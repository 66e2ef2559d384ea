import ScriptGraph.Json.Decoding

/-!
# Limits

The bounds that keep every run finite, and the name under which loops publish
their index.
-/

namespace ScriptGraph

open Json

structure Limits where
  maxSteps : UInt64 := 100000
  /-- The variable that holds the index of the innermost loop. -/
  loopVariable : String := "__loop_index"
  maxIterations : UInt64 := 1000000
  maxCallDepth : UInt64 := 32
  deriving DecidableEq, Repr

namespace Limits

def toJson (limits : Limits) : Value :=
  .record [
    ("loop_index_variable", some (.text limits.loopVariable)),
    ("max_call_depth", some (.ofNat limits.maxCallDepth.toNat)),
    ("max_loop_iterations", some (.ofNat limits.maxIterations.toNat)),
    ("max_steps", some (.ofNat limits.maxSteps.toNat))]

def ofJson? : Decoder Limits := fun v =>
  match v.fields?
      ["max_steps", "loop_index_variable", "max_loop_iterations",
        "max_call_depth"] with
  | some [maxSteps, loopVariable, maxIterations, maxCallDepth] => do
    let standard : Limits := {}
    return {
      maxSteps := ← Decoder.orElse .natural standard.maxSteps maxSteps
      loopVariable := ← Decoder.orElse .text standard.loopVariable loopVariable
      maxIterations :=
        ← Decoder.orElse .natural standard.maxIterations maxIterations
      maxCallDepth :=
        ← Decoder.orElse .natural standard.maxCallDepth maxCallDepth }
  | _ => none

end Limits

end ScriptGraph
