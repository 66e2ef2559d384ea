import ScriptGraph.Function

/-!
# Failures

The ways in which executing a node, calling a function or using a point can
fail, and their messages.
-/

namespace ScriptGraph

inductive PointError where
  | notFound (path : String)
  | writeFailed (reason : String)
  | invalidValue (reason : String)
  deriving DecidableEq, Repr

def PointError.message : PointError → String
  | notFound path => "Point not found: " ++ path
  | writeFailed reason => "Write failed: " ++ reason
  | invalidValue reason => "Invalid value: " ++ reason

inductive Failure where
  | execution (message : String)
  | crashed (message : String)
  | unavailable (service : String)
  | unknownFunction (name : String)
  | invalidFunction (invalid : InvalidFunction)
  | callDepthExceeded (limit : Nat)
  | invalidInput (pin reason : String)
  | point (error : PointError)
  deriving DecidableEq, Repr

def Failure.message : Failure → String
  | execution message => message
  | crashed message => "Node panicked: " ++ message
  | unavailable service => service ++ " not available"
  | unknownFunction name => "Unknown function '" ++ name ++ "'"
  | invalidFunction invalid => invalid.message
  | callDepthExceeded limit =>
    "Function call depth limit (" ++ String.ofList (Nat.toDigits 10 limit) ++
      ") reached"
  | invalidInput pin reason => "Invalid input '" ++ pin ++ "': " ++ reason
  | point error => error.message

end ScriptGraph
