import ScriptGraph.Json.Value

/-!
# Variables

The variables of a run live in one shared store, a table.  A `VariableView` is a
copy that is handed to nodes: it is brought up to date by `sync`, and writes
through it reach the store and the copy but nothing else.
-/

namespace ScriptGraph

open Json

abbrev VariableStore := Table Value

structure VariableView where
  snapshot : Table Value
  deriving DecidableEq, Repr

namespace VariableView

def init (defaults : Table Value) : VariableView × VariableStore :=
  (⟨defaults⟩, defaults)

def attach (view : VariableView) : VariableView :=
  view

def sync (_view : VariableView) (store : VariableStore) : VariableView :=
  ⟨store⟩

def publish (view : VariableView) (store : VariableStore) (name : String)
    (value : Value) : VariableView × VariableStore :=
  (⟨view.snapshot.insert name value⟩, store.insert name value)

def final (_view : VariableView) (store : VariableStore) : Table Value :=
  store

end VariableView

end ScriptGraph
