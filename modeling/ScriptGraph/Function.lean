import ScriptGraph.Graph
import ScriptGraph.Pin

/-!
# Functions

A function is a graph with parameters.  Its body holds two marker nodes: the
entry, whose outputs are the arguments, and the exit, whose inputs become the
results.  `Function.problems` lists what is wrong with one.
-/

namespace ScriptGraph

open Json

/-- The node whose outputs carry the arguments. -/
def entryMarker : String := "__entry__"

/-- The node whose inputs become the results. -/
def exitMarker : String := "__exit__"

def callKind : String := "function/Call"

/-! ## Parameters -/

structure Parameter where
  name : String
  type : PinType
  /-- Stands in for an argument that is not given, or a result that the body
  does not produce. -/
  default : Option Value := none
  description : Option String := none
  deriving DecidableEq, Repr

namespace Parameter

def toJson (parameter : Parameter) : Value :=
  .record [
    ("default", parameter.default),
    ("description", parameter.description.map .text),
    ("name", some (.text parameter.name)),
    ("type", some parameter.type.toJson)]

def ofJson? : Decoder Parameter := fun v =>
  match v.fields? ["name", "type", "default", "description"] with
  | some [name, type, default, description] => do
    return {
      name := ← Decoder.required .text name
      type := ← Decoder.required PinType.ofJson? type
      default := ← Decoder.optional .any default
      description := ← Decoder.optional .text description }
  | _ => none

def value (parameter : Parameter) (supplied : Table Value) : Value :=
  match supplied.get? parameter.name with
  | some v => v
  | none => .ofOption parameter.default

def values (parameters : List Parameter) (supplied : Table Value) :
    Table Value :=
  .ofList (parameters.map fun parameter =>
    (parameter.name, parameter.value supplied))

end Parameter

/-! ## Functions -/

structure Function where
  name : Option String := none
  description : Option String := none
  inputs : List Parameter := []
  outputs : List Parameter := []
  isPure : Bool := false
  nodes : List Node := []
  connections : List Connection := []
  deriving DecidableEq, Repr

inductive Side where
  | source
  | target
  deriving DecidableEq, Repr

def Side.name : Side → String
  | .source => "from"
  | .target => "to"

inductive Problem where
  | missingMarker (marker : String)
  | unknownNode (side : Side) (node : String)
  | malformedEndpoint (text : String)
  | entryWired
  | exitWired
  | repeatedInput (name : String)
  | repeatedOutput (name : String)
  deriving DecidableEq, Repr

def Problem.message : Problem → String
  | missingMarker marker => "missing node '" ++ marker ++ "'"
  | unknownNode side node =>
    "connection " ++ side.name ++ " unknown node '" ++ node ++ "'"
  | malformedEndpoint text => "malformed endpoint '" ++ text ++ "'"
  | entryWired => "pure function has an exec connection from its entry"
  | exitWired => "pure function has an exec connection into its exit"
  | repeatedInput name => "duplicate input '" ++ name ++ "'"
  | repeatedOutput name => "duplicate output '" ++ name ++ "'"

/-- The items that have occurred before, one for each repetition. -/
def repetitions (seen : List String) : List String → List String
  | [] => []
  | name :: rest =>
    if seen.contains name then name :: repetitions seen rest
    else repetitions (name :: seen) rest

namespace Function

def graph (function : Function) : Graph :=
  .ofConnections function.nodes function.connections

def connectionsFrom (function : Function) (source : Endpoint) :
    List Connection :=
  function.connections.filter fun connection => connection.leaves source

def missingMarkers (function : Function) : List Problem :=
  ([entryMarker, exitMarker].filter fun marker =>
    !function.nodes.any fun node => node.id == marker).map
    .missingMarker

def endProblem? (function : Function) (side : Side) (text : String) :
    Option Problem :=
  match Endpoint.parse? text with
  | none => some (.malformedEndpoint text)
  | some endpoint =>
    if function.nodes.any fun node => node.id == endpoint.node then none
    else some (.unknownNode side endpoint.node)

def wiringProblems (function : Function) : List Problem :=
  function.connections.flatMap fun connection =>
    (function.endProblem? .source connection.source).toList ++
      (function.endProblem? .target connection.target).toList

def purityProblems (function : Function) : List Problem :=
  if function.isPure then
    (if (function.connectionsFrom ⟨entryMarker, "exec"⟩).isEmpty then []
     else [.entryWired]) ++
      (if function.connections.any fun connection =>
        connection.target == exitMarker ++ ".exec"
        then [.exitWired] else [])
  else []

def problems (function : Function) : List Problem :=
  function.missingMarkers ++ function.wiringProblems ++
    function.purityProblems ++
    (repetitions [] (function.inputs.map Parameter.name)).map .repeatedInput ++
    (repetitions [] (function.outputs.map Parameter.name)).map .repeatedOutput

end Function

structure InvalidFunction where
  function : String
  problems : List Problem
  deriving DecidableEq, Repr

def InvalidFunction.message (invalid : InvalidFunction) : String :=
  "function '" ++ invalid.function ++ "' is invalid: " ++
    ", ".intercalate (invalid.problems.map Problem.message)

namespace Function

def validate (function : Function) (name : String) :
    Except InvalidFunction Unit :=
  if function.problems.isEmpty then .ok () else .error ⟨name, function.problems⟩

def toJson (function : Function) : Value :=
  .record [
    ("connections", some (.ofListWith Connection.toJson function.connections)),
    ("description", function.description.map .text),
    ("inputs", some (.ofListWith Parameter.toJson function.inputs)),
    ("name", function.name.map .text),
    ("nodes", some (.ofListWith Node.toJson function.nodes)),
    ("outputs", some (.ofListWith Parameter.toJson function.outputs)),
    ("pure", some (.bool function.isPure))]

def ofJson? : Decoder Function := fun v =>
  match v.fields?
      ["name", "description", "inputs", "outputs", "pure", "nodes",
        "connections"] with
  | some [name, description, inputs, outputs, isPure, nodes, connections] => do
    return {
      name := ← Decoder.optional .text name
      description := ← Decoder.optional .text description
      inputs := ← Decoder.orElse (.list Parameter.ofJson?) [] inputs
      outputs := ← Decoder.orElse (.list Parameter.ofJson?) [] outputs
      isPure := ← Decoder.orElse .bool false isPure
      nodes := ← Decoder.orElse (.list Node.ofJson?) [] nodes
      connections :=
        ← Decoder.orElse (.list Connection.ofJson?) [] connections }
  | _ => none

end Function

end ScriptGraph
