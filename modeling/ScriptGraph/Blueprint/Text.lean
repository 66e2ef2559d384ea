import ScriptGraph.Blueprint
import ScriptGraph.Json.Parser

/-!
# Blueprints as text

A blueprint file is JSON text.  Where the text gives a field of a record twice
it is not clear which one is meant, so such a text is refused; in a table, such
as the variables, the last value of a repeated key stays.  Fields that a record
does not have are passed over.
-/

namespace ScriptGraph

open Json

/-! ## Pin types -/

def occurrences (key : String) (members : List (String × Value)) : Nat :=
  (members.filter fun member => member.1 == key).length

/-- Whether a pin type, as it was written, gives each of its fields at most
once.  A type that holds no other has only its tag; what else it is given does
not matter. -/
def PinType.givenOnce (nested : Bool) : Value → Bool
  | .object members =>
    occurrences "type" members ≤ 1 &&
      if (Table.findEntry "type" members).bind (tag? nested) = some "Array" then
        match _h : Table.findEntry "element" members with
        | some element =>
          occurrences "element" members ≤ 1 && givenOnce true element
        | none => true
      else true
  | .array (first :: rest) =>
    if tag? nested first = some "Array" then
      match rest with
      | [element] => givenOnce true element
      | _ => true
    else true
  | _ => true
termination_by v => sizeOf v
decreasing_by
  · have := sizeOf_findEntry _h
    simp
    omega
  · simp
    omega

/-! ## Shapes -/

def PinType.shape : Shape :=
  .value (PinType.givenOnce false)

def Parameter.shape : Shape :=
  .record [("name", .any), ("type", PinType.shape), ("default", .any),
    ("description", .any)]

def Position.shape : Shape :=
  .record [("x", .any), ("y", .any)]

def Node.shape : Shape :=
  .record [("id", .any), ("type", .any), ("position", Position.shape),
    ("config", .any)]

def Connection.shape : Shape :=
  .record [("from", .any), ("to", .any)]

def Function.shape : Shape :=
  .record [("name", .any), ("description", .any),
    ("inputs", .list Parameter.shape), ("outputs", .list Parameter.shape),
    ("pure", .any), ("nodes", .list Node.shape),
    ("connections", .list Connection.shape)]

def Variable.shape : Shape :=
  .record [("type", PinType.shape), ("default", .any), ("description", .any)]

def Blueprint.shape : Shape :=
  .record [("id", .any), ("name", .any), ("version", .any),
    ("description", .any), ("variables", .table Variable.shape),
    ("nodes", .list Node.shape), ("connections", .list Connection.shape),
    ("functions", .table Function.shape)]

/-- Reads a blueprint from text.  Values that a later one replaces have to be
readable too. -/
def Blueprint.parse? (text : String) : Option Blueprint :=
  match parseAs? Blueprint.shape text with
  | none => none
  | some written =>
    match Blueprint.ofJson? written with
    | none => none
    | some _ => Blueprint.ofJson? written.canonical

end ScriptGraph
