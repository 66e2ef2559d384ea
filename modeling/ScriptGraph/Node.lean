import ScriptGraph.Json.Decoding

/-!
# Nodes

A node of a graph names its kind and carries a configuration, which is any JSON
value.  Its position is for editors only; coordinates are single precision
numbers, held as doubles.
-/

namespace ScriptGraph

open Json

structure Position where
  x : Float
  y : Float
  deriving DecidableEq, Repr

namespace Position

def origin : Position :=
  ⟨0.0, 0.0⟩

/-- Any number, rounded to single precision. -/
def coordinate? : Decoder Float
  | .number (.integer n) => some (Binary64.singleOfInt n)
  | .number (.real x) => some (Binary64.toSingle x)
  | _ => none

def toJson (position : Position) : Value :=
  .record [("x", some (.ofFloat position.x)), ("y", some (.ofFloat position.y))]

def ofJson? : Decoder Position := fun v =>
  match v.fields? ["x", "y"] with
  | some [x, y] => do
    return { x := ← Decoder.required coordinate? x,
             y := ← Decoder.required coordinate? y }
  | _ => none

end Position

structure Node where
  id : String
  kind : String
  position : Position := Position.origin
  config : Value := Value.emptyObject
  deriving DecidableEq, Repr

namespace Node

def configText? (node : Node) (key : String) : Option String :=
  (node.config.get? key).bind Value.asText?

def toJson (node : Node) : Value :=
  .record [
    ("config", some node.config),
    ("id", some (.text node.id)),
    ("position", some node.position.toJson),
    ("type", some (.text node.kind))]

def ofJson? : Decoder Node := fun v =>
  match v.fields? ["id", "type", "position", "config"] with
  | some [id, kind, position, config] => do
    return {
      id := ← Decoder.required .text id
      kind := ← Decoder.required .text kind
      position := ← Decoder.orElse Position.ofJson? Position.origin position
      config := ← Decoder.orElse .any Value.emptyObject config }
  | _ => none

end Node

end ScriptGraph
