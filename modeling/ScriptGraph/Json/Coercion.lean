import ScriptGraph.Decimal.Reading
import ScriptGraph.Json.Printer

/-!
# Coercion

How a dynamic value is taken as a number, a truth value or a text where a node
asks for one.
-/

namespace ScriptGraph.Json.Value

/-- A value as a double: numbers, truth values as one and zero, and texts that
write a number. -/
def toReal? : Value → Option Float
  | .number n => some n.toFloat
  | .bool b => some (if b then 1.0 else 0.0)
  | .text s => Decimal.readFloat? (Decimal.trimBlanks s.toList)
  | _ => none

def toInteger? (v : Value) : Option Int64 :=
  match v.asInt64? with
  | some n => some n
  | none => v.toReal?.map Binary64.toInt64

/-- A value as a truth value: a number is true unless it is zero. -/
def toBool? : Value → Option Bool
  | .bool b => some b
  | .number n => some (n.toFloat != 0.0)
  | _ => none

/-- The text of a value for people: a text is not quoted, and an integral number
below `10 ^ 15` has no fraction. -/
def display : Value → String
  | .text s => s
  | .number n =>
    let x := n.toFloat
    if Binary64.isIntegral x && x.abs < 1e15 then
      (Number.integer (Binary64.truncate x)).render
    else n.render
  | v => v.render

def displayOption : Option Value → String
  | some v => v.display
  | none => "(empty)"

end ScriptGraph.Json.Value
