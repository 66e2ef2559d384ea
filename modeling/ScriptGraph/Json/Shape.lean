import ScriptGraph.Json.Value

/-!
# Shapes of values

A shape says what the reader of a text looks for in it.  What it does not look
for is passed over.
-/

namespace ScriptGraph.Json

inductive Shape where
  | value (accepts : Value → Bool)
  /-- A record with these fields, in the order in which an array gives them.  An
  object gives each of them at most once. -/
  | record (fields : List (String × Shape))
  | list (item : Shape)
  | table (entry : Shape)

namespace Shape

def any : Shape :=
  .value fun _ => true

def accepts : Shape → Value → Bool
  | value ok, v => ok v
  | _, _ => true

def givesOnce : Shape → Bool
  | record _ => true
  | _ => false

def member? : Shape → String → Option Shape
  | record fields, key => fields.lookup key
  | table entry, _ => some entry
  | _, _ => some any

/-- The shapes of the items of an array: those of the first ones, and that of
all others. -/
def items : Shape → List Shape × Shape
  | record fields => (fields.map Prod.snd, any)
  | list item => ([], item)
  | _ => ([], any)

end Shape

end ScriptGraph.Json
