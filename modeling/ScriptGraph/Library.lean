import ScriptGraph.Library.Comparison
import ScriptGraph.Library.Events
import ScriptGraph.Library.FlowControl
import ScriptGraph.Library.Logic
import ScriptGraph.Library.Math
import ScriptGraph.Library.Points
import ScriptGraph.Library.Utility

/-!
# The library of built-in nodes
-/

namespace ScriptGraph

def Library.kinds : List (NodeKind × Executor) :=
  Math.kinds ++ Logic.kinds ++ Comparison.kinds ++ FlowControl.kinds ++
    Events.kinds ++ Points.kinds ++ Utility.kinds

def Catalogue.registerLibrary (catalogue : Catalogue) : Catalogue :=
  catalogue.registerAll Library.kinds

def Catalogue.standard : Catalogue :=
  Catalogue.empty.registerLibrary

end ScriptGraph
