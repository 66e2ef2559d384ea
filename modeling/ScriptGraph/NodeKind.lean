import ScriptGraph.Pin

/-!
# Node kinds

A node kind describes the nodes of one type: their pins, whether they are
evaluated on demand, and whether they start a run.
-/

namespace ScriptGraph

open Json

inductive Purity where
  | pure
  | impure
  | latent
  deriving DecidableEq, Repr

def Purity.name : Purity → String
  | .pure => "pure"
  | .impure => "impure"
  | .latent => "latent"

structure NodeKind where
  id : String
  name : String
  category : String
  isPure : Bool := false
  isLatent : Bool := false
  isEntry : Bool := false
  trigger : Option String := none
  pins : List Pin := []
  description : Option String := none
  deriving DecidableEq, Repr

namespace NodeKind

def purity (kind : NodeKind) : Purity :=
  if kind.isPure then .pure else if kind.isLatent then .latent else .impure

/-- Whether nodes of this kind are entries for just this kind of trigger. -/
def respondsTo (kind : NodeKind) (trigger : String) : Bool :=
  kind.isEntry && kind.trigger == some trigger

def inputs (kind : NodeKind) : List Pin :=
  kind.pins.filter fun pin => pin.direction == .input

def outputs (kind : NodeKind) : List Pin :=
  kind.pins.filter fun pin => pin.direction == .output

def execOutputs (kind : NodeKind) : List Pin :=
  kind.outputs.filter fun pin => pin.type.isExec

def dataInputs (kind : NodeKind) : List Pin :=
  kind.inputs.filter fun pin => pin.type.isData

def dataOutputs (kind : NodeKind) : List Pin :=
  kind.outputs.filter fun pin => pin.type.isData

def pin? (kind : NodeKind) (name : String) (direction : Direction) :
    Option Pin :=
  kind.pins.find? fun pin => pin.name == name && pin.direction == direction

def toJson (kind : NodeKind) : Value :=
  .record [
    ("category", some (.text kind.category)),
    ("description", kind.description.map .text),
    ("entry", some (.bool kind.isEntry)),
    ("id", some (.text kind.id)),
    ("latent", some (.bool kind.isLatent)),
    ("name", some (.text kind.name)),
    ("pins", some (.ofListWith Pin.toJson kind.pins)),
    ("pure", some (.bool kind.isPure)),
    ("trigger", kind.trigger.map .text)]

def ofJson? : Decoder NodeKind := fun v =>
  match v.fields?
    ["id", "name", "category", "pure", "latent", "entry", "trigger", "pins",
      "description"] with
  | some [id, name, category, isPure, isLatent, isEntry, trigger, pins,
    description] => do
    return {
      id := ← Decoder.required .text id
      name := ← Decoder.required .text name
      category := ← Decoder.required .text category
      isPure := ← Decoder.orElse .bool false isPure
      isLatent := ← Decoder.orElse .bool false isLatent
      isEntry := ← Decoder.orElse .bool false isEntry
      trigger := ← Decoder.optional .text trigger
      pins := ← Decoder.required (.list Pin.ofJson?) pins
      description := ← Decoder.optional .text description }
  | _ => none

end NodeKind

end ScriptGraph
