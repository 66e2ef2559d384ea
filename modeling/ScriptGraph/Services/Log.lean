import ScriptGraph.Json.Decoding

/-!
# The log

Nodes write messages to a log, each at a level.
-/

namespace ScriptGraph

open Json

inductive LogLevel where
  | error
  | warn
  | info
  | debug
  | trace
  deriving DecidableEq, Repr

namespace LogLevel

def name : LogLevel → String
  | error => "error"
  | warn => "warn"
  | info => "info"
  | debug => "debug"
  | trace => "trace"

/-- The level of a name, in any case; a name that is not known is
information. -/
def ofName (name : String) : LogLevel :=
  match name.map Char.toLower with
  | "error" => error
  | "warn" => warn
  | "warning" => warn
  | "debug" => debug
  | "trace" => trace
  | _ => info

end LogLevel

structure LogEntry where
  level : LogLevel
  node : String
  message : String
  deriving DecidableEq, Repr

namespace LogEntry

def toJson (entry : LogEntry) : Value :=
  .record [
    ("level", some (.text entry.level.name)),
    ("message", some (.text entry.message)),
    ("node_id", some (.text entry.node))]

end LogEntry

end ScriptGraph
