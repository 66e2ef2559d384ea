import ScriptGraph.Function

/-!
# Blueprints

A blueprint is a graph with variables and functions: the script that a run
executes.
-/

namespace ScriptGraph

open Json

structure Variable where
  type : PinType
  default : Option Value := none
  description : Option String := none
  deriving DecidableEq, Repr

namespace Variable

def toJson (var : Variable) : Value :=
  .record [
    ("default", var.default),
    ("description", var.description.map .text),
    ("type", some var.type.toJson)]

def ofJson? : Decoder Variable := fun v =>
  match v.fields? ["type", "default", "description"] with
  | some [type, default, description] => do
    return {
      type := ← Decoder.required PinType.ofJson? type
      default := ← Decoder.optional .any default
      description := ← Decoder.optional .text description }
  | _ => none

end Variable

structure Blueprint where
  id : String
  name : String
  version : String := "1.0.0"
  description : Option String := none
  variableDefs : Table Variable := .empty
  nodes : List Node := []
  connections : List Connection := []
  functions : Table Function := .empty
  deriving DecidableEq, Repr

namespace Blueprint

def graph (blueprint : Blueprint) : Graph :=
  .ofConnections blueprint.nodes blueprint.connections

def connectionsFrom (blueprint : Blueprint) (source : Endpoint) :
    List Connection :=
  blueprint.connections.filter fun connection => connection.leaves source

def connectionsInto (blueprint : Blueprint) (node : String) : List Connection :=
  blueprint.connections.filter fun connection => connection.arrivesAt node

def variableDefaults (blueprint : Blueprint) : Table Value :=
  blueprint.variableDefs.map fun var => .ofOption var.default

def invalidFunctions (blueprint : Blueprint) : List InvalidFunction :=
  blueprint.functions.entries.filterMap fun (name, function) =>
    match function.validate name with
    | .ok () => none
    | .error invalid => some invalid

def toJson (blueprint : Blueprint) : Value :=
  .record [
    ("connections", some (.ofListWith Connection.toJson blueprint.connections)),
    ("description", blueprint.description.map .text),
    ("functions", if blueprint.functions.isEmpty then none
      else some (.ofTableWith Function.toJson blueprint.functions)),
    ("id", some (.text blueprint.id)),
    ("name", some (.text blueprint.name)),
    ("nodes", some (.ofListWith Node.toJson blueprint.nodes)),
    ("variables", some (.ofTableWith Variable.toJson blueprint.variableDefs)),
    ("version", some (.text blueprint.version))]

def ofJson? : Decoder Blueprint := fun v =>
  match v.fields?
    ["id", "name", "version", "description", "variables", "nodes",
      "connections", "functions"] with
  | some [id, name, version, description, variableDefs, nodes, connections,
    functions] => do
    return {
      id := ← Decoder.required .text id
      name := ← Decoder.required .text name
      version := ← Decoder.orElse .text "1.0.0" version
      description := ← Decoder.optional .text description
      variableDefs :=
        ← Decoder.orElse (.table Variable.ofJson?) .empty variableDefs
      nodes := ← Decoder.orElse (.list Node.ofJson?) [] nodes
      connections := ← Decoder.orElse (.list Connection.ofJson?) [] connections
      functions := ← Decoder.orElse (.table Function.ofJson?) .empty functions }
  | _ => none

end Blueprint

/-- The body of a function as a blueprint of its own; the function's name stands
in for its own if it has none. -/
def Function.toBlueprint (function : Function) (id : String) : Blueprint :=
  { id := id
    name := function.name.getD id
    nodes := function.nodes
    connections := function.connections }

end ScriptGraph
