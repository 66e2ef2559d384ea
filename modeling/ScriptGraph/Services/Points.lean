import ScriptGraph.Failure

/-!
# Points

A point store holds the values of points by path.  How it answers is up to its
host, given as a `PointDriver`; the memory driver accepts every write with a
path.
-/

namespace ScriptGraph

open Json

structure PointDriver where
  /-- `none` when there is no such point. -/
  read : Table Value → String → Except PointError (Option Value)
  /-- The answer and what the store holds afterwards. -/
  write : Table Value → String → Value → Except PointError Unit × Table Value

namespace PointDriver

def memory : PointDriver where
  read points path := .ok (points.get? path)
  write points path value :=
    if path.isEmpty then (.error (.writeFailed "empty point path"), points)
    else (.ok (), points.insert path value)

def refusing : PointDriver where
  read _ path := .error (.invalidValue path)
  write points path _ := (.error (.writeFailed path), points)

end PointDriver

structure PointStore where
  driver : PointDriver
  points : Table Value

namespace PointStore

def memory (points : Table Value) : PointStore :=
  ⟨.memory, points⟩

def refusing : PointStore :=
  ⟨.refusing, .empty⟩

def read (store : PointStore) (path : String) :
    Except PointError (Option Value) :=
  store.driver.read store.points path

def write (store : PointStore) (path : String) (value : Value) :
    Except PointError Unit × PointStore :=
  let (answer, points) := store.driver.write store.points path value
  (answer, { store with points := points })

end PointStore

end ScriptGraph
