import ScriptGraph.Catalogue

/-!
# Point nodes
-/

namespace ScriptGraph.Library.Points

open Json

def category : String := "Points"

/-- The path of the point: the input if it is a text, else the configured one;
it may not be empty. -/
def path (inv : Invocation) : Except Failure String :=
  let path? := match inv.text? "path" with
    | some path => some path
    | none => inv.configText? "path"
  match path?.filter fun path => !path.isEmpty with
  | some path => .ok path
  | none => .error (.invalidInput "path" "no point path given")

def readValue (inv : Invocation) (services : Services) :
    Except Failure Value := do
  let path ← path inv
  let store ← services.pointStore
  match store.read path with
  | .error cause => .error (.point cause)
  | .ok none => .error (.point (.notFound path))
  | .ok (some value) => .ok value

def read : Executor := fun inv services =>
  match readValue inv services with
  | .ok value => (.output (.proceed "then" (.single "value" value)), services)
  | .error cause => (.failure cause, services)

def write : Executor := fun inv services =>
  match path inv, services.pointStore with
  | .error cause, _ => (.failure cause, services)
  | .ok _, .error cause => (.failure cause, services)
  | .ok path, .ok store =>
    let (answer, store) := store.write path (.ofOption (inv.input? "value"))
    let services := { services with points := some store }
    match answer with
    | .ok () => (.output (.proceed "then" .empty), services)
    | .error cause => (.failure (.point cause), services)

def kinds : List (NodeKind × Executor) := [
  ({ id := "point/ReadPoint", name := "Read Point", category
     description := some "Read the current value of a point"
     pins := [.execIn, .dataIn "path" .text, .dataOut "value" .point,
       .execOut "then"] },
   read),
  ({ id := "point/WritePoint", name := "Write Point", category
     description := some "Write a value to a point"
     pins := [.execIn, .dataIn "path" .text, .dataIn "value" .point,
       .execOut "then"] },
   write)]

end ScriptGraph.Library.Points
