import ScriptGraph.Json.Decoding

/-!
# Triggers

A trigger starts one run of a blueprint.
-/

namespace ScriptGraph

open Json

structure Trigger where
  kind : String
  data : Option Value := none
  explicitEvent : Option String := none
  deriving DecidableEq, Repr

namespace Trigger

/-- The name of the event: the explicit one, or the text under `event_type` in
the data. -/
def event? (trigger : Trigger) : Option String :=
  match trigger.explicitEvent with
  | some event => some event
  | none =>
    (trigger.data.bind fun data => data.get? "event_type").bind Value.asText?

def toJson (trigger : Trigger) : Value :=
  .record [
    ("data", trigger.data),
    ("event_type", trigger.explicitEvent.map .text),
    ("type", some (.text trigger.kind))]

def ofJson? : Decoder Trigger := fun v =>
  match v.fields? ["type", "data", "event_type"] with
  | some [kind, data, event] => do
    return {
      kind := ← Decoder.required .text kind
      data := ← Decoder.optional .any data
      explicitEvent := ← Decoder.optional .text event }
  | _ => none

end Trigger

end ScriptGraph
