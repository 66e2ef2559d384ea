/-!
# Files

What a program that is given a path finds there.
-/

namespace ScriptGraph

inductive FileContent where
  | missing
  | folder
  | text (content : String)
  deriving DecidableEq, Repr

def FileContent.text? : FileContent → Option String
  | text content => some content
  | _ => none

end ScriptGraph
