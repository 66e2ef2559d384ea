import ScriptGraph.Catalogue

/-!
# Arithmetic nodes

Inputs that are not numbers count as zero.  A result that is no finite number is
written as null.
-/

namespace ScriptGraph.Library.Math

open Json

def category : String := "Math"

def pureKind (id name description : String) (pins : List Pin) : NodeKind :=
  { id, name, category, isPure := true, pins, description := some description }

def operand (inv : Invocation) (pin : String) (default : Float) : Float :=
  (inv.real? pin).getD default

def binary (id name description out : String) (f : Float → Float → Float) :
    NodeKind × Executor :=
  (pureKind id name description
    [.dataIn "a" .number, .dataIn "b" .number, .dataOut out .number],
   .ofOutput fun inv =>
     .single out (.ofFloat (f (operand inv "a" 0.0) (operand inv "b" 0.0))))

def divide (a b : Float) : Float :=
  if b == 0.0 then 0.0 else a / b

def modulo (a b : Float) : Float :=
  if b == 0.0 then 0.0 else Binary64.remainder a b

def clamp (value low high : Float) : Float :=
  Binary64.least (Binary64.greatest value low) high

/-- The number a fraction `t` of the way from `low` to `high`; a range without
width or without ends gives `low`.  A width beyond every double is avoided by
weighing the ends. -/
def sample (low high t : Float) : Float :=
  if !(low < high) || !low.isFinite || !high.isFinite then low
  else if (high - low).isFinite then
    let value := low + (high - low) * t
    if value < high then value else low
  else clamp (low * (1.0 - t) + high * t) low high

def kinds : List (NodeKind × Executor) := [
  binary "math/Add" "Add" "Add two numbers" "sum" (· + ·),
  binary "math/Subtract" "Subtract" "Subtract b from a" "difference" (· - ·),
  binary "math/Multiply" "Multiply" "Multiply two numbers" "product" (· * ·),
  binary "math/Divide" "Divide" "Divide a by b (0 when b is 0)"
    "quotient" divide,
  binary "math/Modulo" "Modulo" "Remainder of a / b (0 when b is 0)"
    "remainder" modulo,
  binary "math/Min" "Min" "Smaller of two numbers" "result" Binary64.least,
  binary "math/Max" "Max" "Larger of two numbers" "result" Binary64.greatest,
  (pureKind "math/Abs" "Abs" "Absolute value"
    [.dataIn "value" .number, .dataOut "result" .number],
   .ofOutput fun inv =>
     .single "result" (.ofFloat (operand inv "value" 0.0).abs)),
  (pureKind "math/Clamp" "Clamp" "Clamp a value between min and max" [
    .dataIn "value" .number,
    (Pin.dataIn "min" .number).withDefault (.ofInt 0),
    (Pin.dataIn "max" .number).withDefault (.ofInt 1),
    .dataOut "result" .number],
   .ofOutput fun inv => .single "result" (.ofFloat
    (clamp (operand inv "value" 0.0) (operand inv "min" 0.0)
      (operand inv "max" 1.0)))),
  (pureKind "math/Random" "Random" "Random number in [min, max)" [
    (Pin.dataIn "min" .number).withDefault (.ofInt 0),
    (Pin.dataIn "max" .number).withDefault (.ofInt 1),
    .dataOut "value" .number],
   .reading fun inv services => .single "value" (.ofFloat
    (sample (operand inv "min" 0.0) (operand inv "max" 1.0)
      (services.draw inv.nodeId))))]

end ScriptGraph.Library.Math
