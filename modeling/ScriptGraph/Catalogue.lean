import ScriptGraph.Invocation
import ScriptGraph.NodeKind

/-!
# The catalogue of node kinds

A catalogue has two layers: the built-in kinds, and the kinds that plugins bring
and take away with them.  A plugin's kind hides a built-in kind with the same
id.
-/

namespace ScriptGraph

structure Entry where
  kind : NodeKind
  run : Executor
  /-- The plugin that brought it; `none` for a built-in kind. -/
  owner : Option String := none

structure Catalogue where
  builtin : Table Entry
  plugin : Table Entry

namespace Catalogue

def empty : Catalogue :=
  ⟨.empty, .empty⟩

def register (catalogue : Catalogue) (kind : NodeKind) (run : Executor) :
    Catalogue :=
  { catalogue with
    builtin := catalogue.builtin.insert kind.id ⟨kind, run, none⟩ }

def registerAll (catalogue : Catalogue) (kinds : List (NodeKind × Executor)) :
    Catalogue :=
  kinds.foldl (fun acc item => acc.register item.1 item.2) catalogue

def registerPlugin (catalogue : Catalogue) (owner : String) (kind : NodeKind)
    (run : Executor) : Catalogue :=
  { catalogue with
    plugin := catalogue.plugin.insert kind.id ⟨kind, run, some owner⟩ }

def unload (catalogue : Catalogue) (owner : String) : Nat × Catalogue :=
  let kept := catalogue.plugin.filter fun _ entry => entry.owner != some owner
  (catalogue.plugin.size - kept.size, { catalogue with plugin := kept })

/-- The entry of an id: a plugin's, else the built-in one. -/
def lookup (catalogue : Catalogue) (id : String) : Option Entry :=
  match catalogue.plugin.get? id with
  | some entry => some entry
  | none => catalogue.builtin.get? id

def kind? (catalogue : Catalogue) (id : String) : Option NodeKind :=
  (catalogue.lookup id).map Entry.kind

def contains (catalogue : Catalogue) (id : String) : Bool :=
  (catalogue.lookup id).isSome

def kinds (catalogue : Catalogue) : List NodeKind :=
  catalogue.plugin.values.map Entry.kind ++
    (catalogue.builtin.filter fun _ entry =>
      !catalogue.plugin.contains entry.kind.id).values.map
      Entry.kind

def ids (catalogue : Catalogue) : List String :=
  (Table.ofList (catalogue.kinds.map fun kind => (kind.id, ()))).keys

def categories (catalogue : Catalogue) : List String :=
  (Table.ofList (catalogue.kinds.map fun kind => (kind.category, ()))).keys

def size (catalogue : Catalogue) : Nat :=
  catalogue.kinds.length

def isEmpty (catalogue : Catalogue) : Bool :=
  catalogue.builtin.isEmpty && catalogue.plugin.isEmpty

def canConnect (catalogue : Catalogue)
    (fromKind fromPin toKind toPin : String) : Bool :=
  match (catalogue.kind? fromKind).bind fun kind => kind.pin? fromPin .output,
    (catalogue.kind? toKind).bind fun kind => kind.pin? toPin .input with
  | some source, some target => source.type.compatible target.type
  | _, _ => false

end Catalogue

end ScriptGraph
