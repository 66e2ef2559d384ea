import ScriptGraph.Blueprint.Text
import ScriptGraph.Engine.Run
import ScriptGraph.Library
import ScriptGraph.Settings

/-!
# The command

The command runs a blueprint file once and shows the report.  `Arguments.parse?`
reads its arguments, and `Command.run` does its work, given how files are read;
printing is left to the caller.
-/

namespace ScriptGraph

open Json

/-! ## Options -/

inductive ValueOption where
  | blueprint
  | trigger
  | data
  | eventType
  | config
  | points
  deriving DecidableEq, Repr

namespace ValueOption

def all : List ValueOption :=
  [blueprint, trigger, data, eventType, config, points]

def long : ValueOption → String
  | blueprint => "blueprint"
  | trigger => "trigger"
  | data => "data"
  | eventType => "event-type"
  | config => "config"
  | points => "points"

def short? : ValueOption → Option Char
  | blueprint => some 'b'
  | trigger => some 't'
  | data => some 'd'
  | eventType => some 'e'
  | config => some 'c'
  | points => none

def isPath : ValueOption → Bool
  | blueprint => true
  | config => true
  | points => true
  | _ => false

end ValueOption

inductive Argument where
  | awaiting (option : ValueOption)
  | attached (option : ValueOption) (value : String)
  | jsonLogs
  | separator
  | unexpected
  deriving DecidableEq, Repr

def splitEquals (text : List Char) : String × Option String :=
  match text.span (· != '=') with
  | (name, _ :: value) => (String.ofList name, some (String.ofList value))
  | (name, []) => (String.ofList name, none)

namespace Argument

def ofLong (text : List Char) : Argument :=
  let (name, value?) := splitEquals text
  if name = "json-logs" then
    match value? with
    | none => jsonLogs
    | some _ => unexpected
  else match ValueOption.all.find? fun option => option.long == name,
    value? with
    | some option, some value => attached option value
    | some option, none => awaiting option
    | none, _ => unexpected

def ofShort (letter : Char) (rest : List Char) : Argument :=
  match ValueOption.all.find? fun option => option.short? == some letter,
      rest with
  | none, _ => unexpected
  | some option, [] => awaiting option
  | some option, '=' :: value => attached option (String.ofList value)
  | some option, value => attached option (String.ofList value)

def ofText (text : String) : Argument :=
  match text.toList with
  | ['-', '-'] => separator
  | '-' :: '-' :: name => ofLong name
  | '-' :: letter :: rest => ofShort letter rest
  | _ => unexpected

/-- Whether an argument cannot be the value of the option before it. -/
def isDashed (text : String) : Bool :=
  match text.toList with
  | '-' :: _ :: _ => true
  | _ => false

end Argument

/-! ## Arguments -/

structure Given where
  values : List (ValueOption × String) := []
  jsonLogs : Bool := false
  deriving DecidableEq, Repr

namespace Given

def get? (given : Given) (option : ValueOption) : Option String :=
  given.values.lookup option

def add? (given : Given) (option : ValueOption) (value : String) :
    Option Given :=
  if (given.get? option).isSome || (option.isPath && value.isEmpty) then none
  else some { given with values := (option, value) :: given.values }

/-- Reads arguments one after another; `waiting` is the option that still needs
its value. -/
def scan? (given : Given) (waiting : Option ValueOption) :
    List String → Option Given
  | [] => if waiting.isSome then none else some given
  | argument :: rest =>
    match waiting with
    | some option =>
      if Argument.isDashed argument then none
      else match given.add? option argument with
        | some given => given.scan? none rest
        | none => none
    | none =>
      match Argument.ofText argument with
      | .awaiting option => given.scan? (some option) rest
      | .attached option value =>
        match given.add? option value with
        | some given => given.scan? none rest
        | none => none
      | .jsonLogs =>
        if given.jsonLogs then none
        else { given with jsonLogs := true }.scan? none rest
      | .separator => if rest.isEmpty then some given else none
      | .unexpected => none

end Given

structure Arguments where
  blueprint : String
  trigger : String := "start"
  data : Option String := none
  eventType : Option String := none
  config : Option String := none
  points : Option String := none
  jsonLogs : Bool := false
  deriving DecidableEq, Repr

namespace Arguments

def parse? (arguments : List String) : Option Arguments := do
  let given ← Given.scan? {} none arguments
  return {
    blueprint := ← given.get? .blueprint
    trigger := (given.get? .trigger).getD "start"
    data := given.get? .data
    eventType := given.get? .eventType
    config := given.get? .config
    points := given.get? .points
    jsonLogs := given.jsonLogs }

def files (arguments : Arguments) : List String :=
  arguments.blueprint :: (arguments.config.toList ++ arguments.points.toList)

end Arguments

/-! ## The command -/

inductive CommandError where
  | usage
  | settings (cause : SettingsError)
  | blueprintMissing (path : String)
  | blueprintInvalid (path : String)
  | dataInvalid
  | pointsMissing (path : String)
  | pointsInvalid (path : String)
  deriving DecidableEq, Repr

namespace CommandError

def message : CommandError → String
  | usage =>
    "usage: -b BLUEPRINT [-t TRIGGER] [-d DATA] [-e EVENT_TYPE] [-c CONFIG] [--points POINTS] [--json-logs]"
  | settings cause => cause.message
  | blueprintMissing path => "Failed to read blueprint " ++ path
  | blueprintInvalid path => "Failed to parse blueprint " ++ path
  | dataInvalid => "Trigger data is not valid JSON"
  | pointsMissing path => "Failed to read points " ++ path
  | pointsInvalid path => "Points file " ++ path ++ " must be a JSON object"

def exitCode : CommandError → Nat
  | usage => 2
  | _ => 1

end CommandError

namespace Command

def loadBlueprint (read : String → FileContent) (path : String) :
    Except CommandError Blueprint :=
  match (read path).text? with
  | none => .error (.blueprintMissing path)
  | some text =>
    match Blueprint.parse? text with
    | some blueprint => .ok blueprint
    | none => .error (.blueprintInvalid path)

def loadData : Option String → Except CommandError (Option Value)
  | none => .ok none
  | some text =>
    match Json.parse? text with
    | some written => .ok (some written.canonical)
    | none => .error .dataInvalid

def loadPoints (read : String → FileContent) :
    Option String → Except CommandError (Table Value)
  | none => .ok .empty
  | some path =>
    match (read path).text? with
    | none => .error (.pointsMissing path)
    | some text =>
      match (Json.parse? text).bind fun written =>
          written.canonical.asTable? with
      | some points => .ok points
      | none => .error (.pointsInvalid path)

def loadLimits (read : String → FileContent) (config : Option String)
    (environment : List (String × String)) : Except CommandError Limits :=
  match Settings.load (config.map fun path => (path, read path))
      environment with
  | .ok limits => .ok limits
  | .error cause => .error (.settings cause)

def execute (read : String → FileContent)
    (environment : List (String × String)) (draw : String → Float)
    (arguments : Arguments) : Except CommandError Report := do
  let limits ← loadLimits read arguments.config environment
  let blueprint ← loadBlueprint read arguments.blueprint
  let data ← loadData arguments.data
  let points ← loadPoints read arguments.points
  let trigger : Trigger :=
    { kind := arguments.trigger, data, explicitEvent := arguments.eventType }
  let services : Services :=
    { points := some (.memory points), events := some .withReceiver, draw }
  return (Engine.runBlueprint .standard limits blueprint trigger services).1

def run (read : String → FileContent) (environment : List (String × String))
    (draw : String → Float) (arguments : List String) :
    Except CommandError Report :=
  match Arguments.parse? arguments with
  | none => .error .usage
  | some arguments => execute read environment draw arguments

end Command

end ScriptGraph
