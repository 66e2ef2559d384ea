import ScriptGraph.Endpoint
import ScriptGraph.Node

/-!
# Graphs

The part of a blueprint or of a function that a run walks: its nodes, and its
connections with both ends split.  An end that is not well formed is `none` and
belongs to no node.
-/

namespace ScriptGraph

structure Wire where
  source : Option Endpoint
  target : Option Endpoint
  deriving DecidableEq, Repr

def Connection.wire (connection : Connection) : Wire :=
  ⟨connection.source?, connection.target?⟩

structure Graph where
  nodes : List Node
  wires : List Wire
  deriving DecidableEq, Repr

namespace Graph

def ofConnections (nodes : List Node) (connections : List Connection) : Graph :=
  ⟨nodes, connections.map Connection.wire⟩

def node? (graph : Graph) (id : String) : Option Node :=
  graph.nodes.find? fun node => node.id == id

def wiresFrom (graph : Graph) (source : Endpoint) : List Wire :=
  graph.wires.filter fun wire => wire.source == some source

def wiresInto (graph : Graph) (node : String) : List Wire :=
  graph.wires.filter fun wire => wire.target.map Endpoint.node == some node

/-- The node that a pin is wired to: the first wire whose other end is well
formed. -/
def target? (graph : Graph) (node pin : String) : Option String :=
  (graph.wiresFrom ⟨node, pin⟩).findSome? fun wire =>
    wire.target.map Endpoint.node

end Graph

end ScriptGraph
