import ScriptGraph.Json.Decoding

/-!
# Events

An event bus delivers every event to the receivers that are subscribed when it
is emitted.  Receivers are numbered in the order in which they subscribed; one
that has left keeps its number.
-/

namespace ScriptGraph

open Json

structure Event where
  type : String
  source : String
  data : Value
  deriving DecidableEq, Repr

def Event.toJson (event : Event) : Value :=
  .record [
    ("data", some event.data),
    ("event_type", some (.text event.type)),
    ("source", some (.text event.source))]

/-- The receivers, each with the events it has not taken yet, or `none` once it
has left. -/
structure EventBus where
  receivers : List (Option (Array Event))
  deriving DecidableEq, Repr

namespace EventBus

def silent : EventBus :=
  ⟨[]⟩

def withReceiver : EventBus :=
  ⟨[some #[]]⟩

def subscribe (bus : EventBus) : Nat × EventBus :=
  (bus.receivers.length, ⟨bus.receivers ++ [some #[]]⟩)

def pending? (bus : EventBus) (receiver : Nat) : Option (Array Event) :=
  (bus.receivers[receiver]?).join

def unsubscribe (bus : EventBus) (receiver : Nat) : EventBus :=
  ⟨bus.receivers.set receiver none⟩

def emit (bus : EventBus) (event : Event) : Nat × EventBus :=
  ((bus.receivers.filter Option.isSome).length,
    ⟨bus.receivers.map fun receiver => receiver.map fun events =>
      events.push event⟩)

def take (bus : EventBus) (receiver : Nat) : Array Event × EventBus :=
  match bus.pending? receiver with
  | some events => (events, ⟨bus.receivers.set receiver (some #[])⟩)
  | none => (#[], bus)

end EventBus

end ScriptGraph
