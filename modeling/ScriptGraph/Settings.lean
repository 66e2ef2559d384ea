import ScriptGraph.FileContent
import ScriptGraph.Limits
import ScriptGraph.Settings.Environment

/-!
# Settings

The limits of a run come from three layers: the defaults, a settings file, and
the environment.  A later layer overrides an earlier one setting by setting, and
only what is left in the end has to be of the right kind.
-/

namespace ScriptGraph

open Json

inductive SettingsError where
  | fileNotFound (path : String)
  | invalid
  deriving DecidableEq, Repr

def SettingsError.message : SettingsError → String
  | fileNotFound path => "Config file not found: " ++ path
  | invalid => "Failed to load engine configuration"

namespace Settings

/-- The settings of a file, given its path and what is found there; a folder has
none. -/
def fileLayer :
    Option (String × FileContent) → Except SettingsError (Table Value)
  | none => .ok .empty
  | some (path, .missing) => .error (.fileNotFound path)
  | some (_, .folder) => .ok .empty
  | some (_, .text text) =>
    match Toml.parse? text with
    | some settings => .ok settings
    | none => .error .invalid

def load (file : Option (String × FileContent))
    (environment : List (String × String)) : Except SettingsError Limits := do
  let settings ← fileLayer file
  match Limits.ofJson?
      (.ofTable (settings.insertAll (Environment.settings environment).entries))
        with
  | some limits => .ok limits
  | none => .error .invalid

end Settings

end ScriptGraph
