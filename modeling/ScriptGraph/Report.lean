import ScriptGraph.Json.Decoding

/-!
# Reports

A run ends with a report: its status, the outputs of the nodes that ran, the
variables, and a diagnostic for every condition that the run passed over.
-/

namespace ScriptGraph

open Json

inductive Status where
  | completed
  | failed
  deriving DecidableEq, Repr

namespace Status

def name : Status → String
  | completed => "completed"
  | failed => "failed"

def toJson (status : Status) : Value :=
  .text status.name

def ofJson? : Decoder Status :=
  .word [("completed", completed), ("failed", failed)]

end Status

inductive Condition where
  | unknownNodeKind
  | nodeError
  | pullError
  | stepLimit
  deriving DecidableEq, Repr

namespace Condition

def name : Condition → String
  | unknownNodeKind => "unknown_node_type"
  | nodeError => "node_execution_error"
  | pullError => "pure_evaluation_error"
  | stepLimit => "step_limit_exceeded"

def toJson (condition : Condition) : Value :=
  .text condition.name

def ofJson? : Decoder Condition :=
  .word [("unknown_node_type", unknownNodeKind),
    ("node_execution_error", nodeError), ("pure_evaluation_error", pullError),
    ("step_limit_exceeded", stepLimit)]

end Condition

structure Diagnostic where
  node : String
  condition : Condition
  message : String
  deriving DecidableEq, Repr

namespace Diagnostic

/-- The diagnostic of a function's body, as its caller reports it. -/
def within (diagnostic : Diagnostic) (caller : String) : Diagnostic :=
  { diagnostic with node := caller ++ "/" ++ diagnostic.node }

def toJson (diagnostic : Diagnostic) : Value :=
  .record [
    ("kind", some diagnostic.condition.toJson),
    ("message", some (.text diagnostic.message)),
    ("node_id", some (.text diagnostic.node))]

def ofJson? : Decoder Diagnostic := fun v =>
  match v.fields? ["node_id", "kind", "message"] with
  | some [node, condition, message] => do
    return {
      node := ← Decoder.required .text node
      condition := ← Decoder.required Condition.ofJson? condition
      message := ← Decoder.required .text message }
  | _ => none

end Diagnostic

structure Report where
  status : Status
  error : Option String := none
  outputs : Table (Table Value) := .empty
  finalVariables : Table Value := .empty
  diagnostics : List Diagnostic := []
  deriving DecidableEq, Repr

namespace Report

def failed (error : String) : Report :=
  { status := .failed, error := some error }

def output? (report : Report) (node pin : String) : Option Value :=
  (report.outputs.get? node).bind fun values => values.get? pin

def has (report : Report) (condition : Condition) : Bool :=
  report.diagnostics.any fun diagnostic => diagnostic.condition == condition

def toJson (report : Report) : Value :=
  .record [
    ("diagnostics", if report.diagnostics.isEmpty then none
      else some (.ofListWith Diagnostic.toJson report.diagnostics)),
    ("error", report.error.map .text),
    ("outputs", some (.ofTableWith Value.ofTable report.outputs)),
    ("status", some report.status.toJson),
    ("variables", some (.ofTable report.finalVariables))]

def ofJson? : Decoder Report := fun v =>
  match v.fields?
      ["status", "error", "outputs", "variables", "diagnostics"] with
  | some [status, error, outputs, finalVariables, diagnostics] => do
    return {
      status := ← Decoder.required Status.ofJson? status
      error := ← Decoder.optional .text error
      outputs := ← Decoder.orElse (.table (.table .any)) .empty outputs
      finalVariables := ← Decoder.orElse (.table .any) .empty finalVariables
      diagnostics :=
        ← Decoder.orElse (.list Diagnostic.ofJson?) [] diagnostics }
  | _ => none

end Report

end ScriptGraph
