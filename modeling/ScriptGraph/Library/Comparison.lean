import ScriptGraph.Catalogue

/-!
# Comparison nodes

If both inputs can be taken as numbers they are compared as numbers, and an
input that is not there counts as zero.  All other values are only equal or not.
-/

namespace ScriptGraph.Library.Comparison

open Json

def category : String := "Comparison"

inductive Relation where
  | equal
  | notEqual
  | greater
  | greaterOrEqual
  | less
  | lessOrEqual
  deriving DecidableEq, Repr

namespace Relation

def symbol : Relation → String
  | equal => "=="
  | notEqual => "!="
  | greater => ">"
  | greaterOrEqual => ">="
  | less => "<"
  | lessOrEqual => "<="

def all : List Relation :=
  [equal, notEqual, greater, greaterOrEqual, less, lessOrEqual]

def ofSymbol? (symbol : String) : Option Relation :=
  all.find? fun relation => relation.symbol == symbol

/-- The relation on numbers; what is no number is only not equal. -/
def onFloats : Relation → Float → Float → Bool
  | equal, a, b => a == b
  | notEqual, a, b => a != b
  | greater, a, b => b < a
  | greaterOrEqual, a, b => b ≤ a
  | less, a, b => a < b
  | lessOrEqual, a, b => a ≤ b

def onEquality : Relation → Bool → Bool
  | equal, same => same
  | notEqual, same => !same
  | _, _ => false

end Relation

def number? (inv : Invocation) (pin : String) : Option Float :=
  match inv.input? pin with
  | none => some 0.0
  | some v => v.toReal?

def sameInputs : Option Value → Option Value → Bool
  | some a, some b => a.same b
  | none, none => true
  | _, _ => false

def compare (inv : Invocation) (relation : Relation) : Bool :=
  match number? inv "a", number? inv "b" with
  | some a, some b => relation.onFloats a b
  | _, _ => relation.onEquality (sameInputs (inv.input? "a") (inv.input? "b"))

def pins : List Pin :=
  [.dataIn "a" .any, .dataIn "b" .any, .dataOut "result" .boolean]

def fixed (id name : String) (relation : Relation) : NodeKind × Executor :=
  ({ id, name, category, isPure := true,
     description := some ("a " ++ relation.symbol ++ " b"), pins },
   .ofOutput fun inv => .single "result" (.bool (compare inv relation)))

def operand (inv : Invocation) (pin : String) : Float :=
  (inv.real? pin).getD 0.0

def kinds : List (NodeKind × Executor) := [
  fixed "compare/Equal" "Equal" .equal,
  fixed "compare/NotEqual" "Not Equal" .notEqual,
  fixed "compare/Greater" "Greater" .greater,
  fixed "compare/GreaterOrEqual" "Greater Or Equal" .greaterOrEqual,
  fixed "compare/Less" "Less" .less,
  fixed "compare/LessOrEqual" "Less Or Equal" .lessOrEqual,
  ({ id := "compare/Compare", name := "Compare", category, isPure := true
     description := some "Compare a and b with the configured operator", pins },
   .ofOutput fun inv =>
    let symbol := (inv.configText? "operator").getD "=="
    match Relation.ofSymbol? symbol with
    | some relation => .single "result" (.bool (compare inv relation))
    | none => .error ("unknown operator '" ++ symbol ++ "'")),
  ({ id := "compare/InRange", name := "In Range", category, isPure := true
     description := some "Whether min <= value <= max"
     pins := [.dataIn "value" .number, .dataIn "min" .number,
       .dataIn "max" .number, .dataOut "result" .boolean] },
   .ofOutput fun inv =>
    let value := operand inv "value"
    .single "result"
      (.bool (operand inv "min" ≤ value && value ≤ operand inv "max")))]

end ScriptGraph.Library.Comparison
