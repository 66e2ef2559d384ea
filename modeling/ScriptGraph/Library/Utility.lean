import ScriptGraph.Catalogue

/-!
# Utility nodes

Messages, constants, variables and texts.
-/

namespace ScriptGraph.Library.Utility

open Json

def category : String := "Utility"

def logMessage (level : Invocation → LogLevel) : Executor := fun inv services =>
  (.output (.proceed "then" .empty),
    inv.log services (level inv) (Value.displayOption (inv.input? "message")))

def missingVariable : Output :=
  .error "Invalid input 'variable': missing"

def setVariable : Executor := fun inv services =>
  match inv.configText? "variable" with
  | none => (.output missingVariable, services)
  | some name =>
    let value := Value.ofOption (inv.input? "value")
    (.output (.proceed "then" (.single "value" value)),
      services.setVariable name value)

def kinds : List (NodeKind × Executor) := [
  ({ id := "utility/Print", name := "Print", category
     description := some "Print a message to the log"
     pins := [.execIn, .dataIn "message" .any, .execOut "then"] },
   logMessage fun _ => .info),
  ({ id := "utility/Log", name := "Log", category
     description := some "Log a message at the configured level"
     pins := [.execIn, .dataIn "message" .any, .execOut "then"] },
   logMessage fun inv => .ofName ((inv.configText? "level").getD "info")),
  ({ id := "utility/Constant", name := "Constant", category, isPure := true
     description := some "A fixed value from the node config"
     pins := [.dataOut "value" .any] },
   .ofOutput fun inv => .single "value" (.ofOption (inv.config? "value"))),
  ({ id := "utility/GetVariable", name := "Get Variable", category,
     isPure := true
     description := some "Read a blueprint variable"
     pins := [.dataOut "value" .any] },
   .reading fun inv services =>
    match inv.configText? "variable" with
    | none => missingVariable
    | some name => .single "value" (.ofOption (services.store.get? name))),
  ({ id := "utility/SetVariable", name := "Set Variable", category
     description := some "Write a blueprint variable"
     pins := [.execIn, .dataIn "value" .any, .execOut "then",
       .dataOut "value" .any] },
   setVariable),
  ({ id := "utility/ToString", name := "To String", category, isPure := true
     description := some "Render any value as text"
     pins := [.dataIn "value" .any, .dataOut "result" .text] },
   .ofOutput fun inv =>
     .single "result" (.text (Value.displayOption (inv.input? "value"))))]

end ScriptGraph.Library.Utility
