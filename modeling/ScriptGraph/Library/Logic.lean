import ScriptGraph.Catalogue

/-!
# Logic nodes

Inputs that are neither truth values nor numbers count as false.
-/

namespace ScriptGraph.Library.Logic

open Json

def category : String := "Logic"

def operand (inv : Invocation) (pin : String) : Bool :=
  (inv.bool? pin).getD false

def binary (id name description : String) (f : Bool → Bool → Bool) :
    NodeKind × Executor :=
  ({ id, name, category, isPure := true, description := some description
     pins := [.dataIn "a" .boolean, .dataIn "b" .boolean,
       .dataOut "result" .boolean] },
   .ofOutput fun inv =>
     .single "result" (.bool (f (operand inv "a") (operand inv "b"))))

def kinds : List (NodeKind × Executor) := [
  binary "logic/And" "AND" "Logical AND" and,
  binary "logic/Or" "OR" "Logical OR" or,
  binary "logic/Xor" "XOR" "Logical XOR" xor,
  ({ id := "logic/Not", name := "NOT", category, isPure := true,
     description := some "Logical NOT"
     pins := [.dataIn "value" .boolean, .dataOut "result" .boolean] },
   .ofOutput fun inv => .single "result" (.bool (!operand inv "value")))]

end ScriptGraph.Library.Logic
