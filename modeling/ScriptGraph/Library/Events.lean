import ScriptGraph.Catalogue

/-!
# Event nodes

The entries that triggers start at, and the node that publishes events.
-/

namespace ScriptGraph.Library.Events

open Json

def category : String := "Events"

def entryKind (id name trigger description : String) (pins : List Pin) :
    NodeKind :=
  { id, name, category, isEntry := true, trigger := some trigger, pins,
    description := some description }

/-- The outputs of an event: the fields of its data, its type, and the data as a
whole. -/
def eventValues (data : Value) (event : Option String) : Table Value :=
  let fields := data.asTable?.getD .empty
  let typed := match event with
    | some name => fields.insert "event_type" (.text name)
    | none =>
      if fields.contains "event_type" then fields
      else fields.insert "event_type" .null
  typed.insert "data" data

def publish : Executor := fun inv services =>
  let type? := match inv.text? "event_type" with
    | some type => some type
    | none => inv.configText? "event_type"
  match type?, services.eventBus with
  | none, _ =>
    (.output (.error "Invalid input 'event_type': missing"), services)
  | some _, .error cause => (.output (.error cause.message), services)
  | some type, .ok bus =>
    let (_, bus) := bus.emit ⟨type, inv.nodeId, .ofOption (inv.input? "data")⟩
    (.output (.proceed "then" .empty), { services with events := some bus })

def kinds : List (NodeKind × Executor) := [
  (entryKind "event/OnStart" "On Start" "start"
    "Fires when the blueprint is started" [.execOut "exec"],
   .ofOutput fun _ => .proceed "exec" .empty),
  (entryKind "event/OnEvent" "On Event" "event"
    "Fires when an event reaches the blueprint"
    [.execOut "exec", .dataOut "event_type" .text, .dataOut "data" .any],
   .ofOutput fun inv =>
     .proceed "exec" (eventValues (.ofOption inv.triggerData) inv.event)),
  ({ id := "event/PublishEvent", name := "Publish Event", category
     description := some "Publish an event to subscribers"
     pins := [.execIn, .dataIn "event_type" .text, .dataIn "data" .any,
       .execOut "then"] },
   publish)]

end ScriptGraph.Library.Events
