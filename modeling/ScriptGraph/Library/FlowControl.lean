import ScriptGraph.Catalogue

/-!
# Flow control nodes
-/

namespace ScriptGraph.Library.FlowControl

open Json

def category : String := "Flow Control"

def defaultBranches : Int64 := 2

def branchPins (count : Nat) : List String :=
  (List.range count).map fun i =>
    "then_" ++ String.ofList (Nat.toDigits 10 i)

def maxAllocation : Nat := Int64.maxValue.toInt.toNat

/-- How many bytes a text takes in a list of texts, without its letters. -/
def textSize : Nat := 24

/-- Room is made for the pins before the first of them is named, and the
executor breaks off where so much cannot be asked for. -/
def sequence : Executor := fun inv services =>
  let count :=
    ((inv.configInteger? "outputs").getD defaultBranches).toInt.toNat
  if count * textSize ≤ maxAllocation then
    (.output (.sequence (branchPins count)), services)
  else (.crash (some "capacity overflow"), services)

def duration (inv : Invocation) : Float :=
  let asked := match inv.real? "duration_ms" with
    | some x => x
    | none => ((inv.config? "duration_ms").bind Value.asFloat?).getD 0.0
  if 0.0 < asked then asked else 0.0

def kinds : List (NodeKind × Executor) := [
  ({ id := "flow/Branch", name := "Branch", category
     description := some "Route execution based on a condition"
     pins := [.execIn, .dataIn "condition" .boolean,
       (Pin.execOut "true").withLabel "True",
      (Pin.execOut "false").withLabel "False"] },
   .ofOutput fun inv =>
    .proceed (if (inv.bool? "condition").getD false then "true" else "false")
      .empty),
  ({ id := "flow/Sequence", name := "Sequence", category
     description := some "Run each output in order, one after another"
     pins := [.execIn, (Pin.execOut "then_0").withLabel "Then 0",
      (Pin.execOut "then_1").withLabel "Then 1"] },
   sequence),
  ({ id := "flow/ForLoop", name := "For Loop", category
     description := some "Run the body once for each index in [start, end)"
     pins := [.execIn, .dataIn "start" .number, .dataIn "end" .number,
      (Pin.execOut "body").withLabel "Loop Body", .dataOut "index" .number,
      (Pin.execOut "completed").withLabel "Completed"] },
   .ofOutput fun inv =>
    .loop "body" ((inv.integer? "start").getD 0) ((inv.integer? "end").getD 0)),
  ({ id := "flow/Delay", name := "Delay", category, isLatent := true
     description := some "Wait before continuing"
     pins := [.execIn, .dataIn "duration_ms" .number, .execOut "completed"] },
   .ofOutput fun inv =>
    .proceed "completed" (.single "elapsed_ms" (.ofFloat (duration inv))))]

end ScriptGraph.Library.FlowControl
