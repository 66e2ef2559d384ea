import ScriptGraph.Catalogue

/-!
# Scripted executors

Executors described by data, for hosts that bring node kinds of their own
without code.  Each counts its calls under a key of its own in the services.
-/

namespace ScriptGraph

open Json

inductive Behavior where
  | raw (outcome : Option Value)
  /-- Answers with one raw outcome after another, and stays with the last. -/
  | rawList (outcomes : List Value)
  | record (pin : String)
  | setVariable (name : String) (value : Option Value) (pin : String)
  | fail (cause : Failure)
  | crash (message : Option String)
  deriving DecidableEq, Repr

namespace Behavior

def outcomeAt (outcomes : List Value) (n : Nat) : Option Value :=
  match outcomes[n - 1]? with
  | some outcome => some outcome
  | none => outcomes.getLast?

def shownValues (inv : Invocation) (n : Nat) : Table Value :=
  .ofList [
    ("call", .ofNat n),
    ("config", inv.config),
    ("event_type", .ofOption (inv.event.map .text)),
    ("inputs", .ofTable inv.inputs),
    ("node_id", .text inv.nodeId),
    ("node_type", .text inv.nodeKind),
    ("trigger_data", .ofOption inv.triggerData),
    ("variables", .ofTable inv.snapshot)]

/-- The executor of a behavior, which counts its calls under `key`. -/
def executor (behavior : Behavior) (key : String) : Executor :=
  fun inv services =>
  let (n, services) := services.count key
  match behavior with
  | raw outcome => (.output (.ofRaw outcome), services)
  | rawList outcomes => (.output (.ofRaw (outcomeAt outcomes n)), services)
  | record pin =>
    let line := "record " ++ inv.nodeKind ++ " " ++
      String.ofList (Nat.toDigits 10 n)
    (.output (.proceed pin (shownValues inv n)), inv.log services .debug line)
  | setVariable name value pin =>
    let written := match inv.input? "value" with
      | some v => v
      | none => .ofOption value
    let (inv, services) := inv.setVariable services name written
    (.output (.proceed pin
      (.ofList [("call", .ofNat n), ("snapshot", .ofTable inv.snapshot)])),
      services)
  | fail cause => (.failure cause, services)
  | crash message => (.crash message, services)

end Behavior

end ScriptGraph
