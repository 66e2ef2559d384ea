import ScriptGraph.Settings.Toml

/-!
# Settings from the environment

An environment variable whose name starts with `BLUEPRINT_`, in any case, is the
setting that the rest of its name spells in lower case.  Its text is read as the
value that it looks like.
-/

namespace ScriptGraph.Environment

open Json

def namePrefix : String := "BLUEPRINT_"

def key? (name : String) : Option (List String) :=
  let chars := (Decimal.trimBlanks name.toList).map Char.toLower
  let lead := namePrefix.toList.map Char.toLower
  if lead.isPrefixOf chars then
    let parts :=
      (String.ofList (Decimal.trimBlanks (chars.drop lead.length))).splitOn "."
    if parts.any String.isEmpty then none else some parts
  else none

/-! ## Values -/

def isSpace (c : Char) : Bool :=
  c == ' ' || c == '\t' || c == '\n' || c == '\r' || c.toNat == 12

def skipSpace (text : List Char) : List Char :=
  text.dropWhile isSpace

def isSeparator (c : Char) : Bool :=
  c == ',' || c == '[' || c == ']' || c.toNat == 0x7b || c.toNat == 0x7d

def integer? (token : List Char) : Option Int :=
  let (negative, digits) := Decimal.spanSign token
  if digits.isEmpty || !digits.all Char.isDigit then none
  else
    let n : Int := Decimal.natOfDigits digits
    let signed := if negative then -n else n
    if Int64.minValue.toInt ≤ signed ∧ signed < UInt64.size then
      some signed
    else none

def plain (token : List Char) : Value :=
  let word := String.ofList token
  if token.contains '.' then
    match Decimal.readFloat? token with
    | some x => .ofFloat x
    | none => .text word
  else match integer? token with
    | some n => .ofInt n
    | none => .text word

def takeBytes : (size : Nat) → List Char → List Char
  | _, [] => []
  | size, c :: rest =>
    if c.utf8Size ≤ size then c :: takeBytes (size - c.utf8Size) rest else []

/-- The text between quotes.  Where it has escapes, as many bytes stay of what
stands before the first one as there are characters: all of it, if those are of
one byte each. -/
def unquote? (inner : List Char) : Option String :=
  let (lead, rest) := inner.span (· != '\\')
  if rest.isEmpty then (Toml.unescapeAll? lead).map String.ofList
  else if lead.any Toml.isControl then none
  else (Toml.unescapeAll? rest).map fun tail =>
    String.ofList (takeBytes lead.length lead ++ tail)

def scanQuoted (text : List Char) : Option (String × List Char) :=
  match Toml.spanQuoted text with
  | some (inner, rest) => (unquote? inner).map fun s => (s, rest)
  | none => none

def scanKey (text : List Char) : Option (String × List Char) :=
  match text with
  | '"' :: rest => scanQuoted rest
  | _ =>
    let (name, rest) := text.span Toml.isBare
    if name.isEmpty then none else some (String.ofList name, rest)

mutual

/-- Reads a value with the blanks around it.  A value starts with what tells its
kind, and all that starts with nothing of that sort is plain. -/
def scanValue : Nat → List Char → Option (Value × List Char)
  | 0, _ => none
  | fuel + 1, text =>
    let found : Option (Value × List Char) := match skipSpace text with
      | 't' :: 'r' :: 'u' :: 'e' :: rest => some (.bool true, rest)
      | 'f' :: 'a' :: 'l' :: 's' :: 'e' :: rest => some (.bool false, rest)
      | '"' :: rest => (scanQuoted rest).map fun (s, rest) => (.text s, rest)
      | '\'' :: c :: '\'' :: rest => some (.text (String.ofList [c]), rest)
      | '\'' :: _ => none
      | '[' :: rest => scanItems fuel [] rest
      | '\x7b' :: rest => scanMembers fuel [] rest
      | rest =>
        let (token, rest) := rest.span fun c => !isSeparator c
        some (plain (Decimal.trimBlanks token), rest)
    found.map fun (v, rest) => (v, skipSpace rest)

def scanItems : Nat → List Value → List Char → Option (Value × List Char)
  | 0, _, _ => none
  | _ + 1, acc, ']' :: rest => some (.array acc.reverse, rest)
  | fuel + 1, acc, text =>
    match scanValue fuel text with
    | some (v, ',' :: rest) => scanItems fuel (v :: acc) rest
    | some (v, ']' :: rest) => some (.array (v :: acc).reverse, rest)
    | _ => none

def scanMembers :
    Nat → List (String × Value) → List Char → Option (Value × List Char)
  | 0, _, _ => none
  | _ + 1, acc, '\x7d' :: rest =>
    some (.object (Table.ofList acc.reverse).entries, rest)
  | fuel + 1, acc, text =>
    match scanKey (skipSpace text) with
    | none => none
    | some (key, rest) =>
      match skipSpace rest with
      | '=' :: rest =>
        match scanValue fuel rest with
        | some (v, ',' :: rest) => scanMembers fuel ((key, v) :: acc) rest
        | some (v, '\x7d' :: rest) =>
          some (.object (Table.ofList ((key, v) :: acc).reverse).entries, rest)
        | _ => none
      | _ => none

end

/-- The value of a text; a text that cannot be read as a whole is taken as it
stands.  Any two steps of the reader in a row use up a character, so twice the
length of the text bounds them. -/
def value (text : String) : Value :=
  let chars := text.toList
  match scanValue (2 * chars.length + 2) chars with
  | some (v, []) => v
  | _ => .text text

/-! ## Settings -/

def settings (assignments : List (String × String)) : Table Value :=
  .ofList (assignments.filterMap fun (name, text) =>
    match key? name with
    | some [key] => some (key, value text)
    | some (key :: _) => some (key, .emptyObject)
    | _ => none)

end ScriptGraph.Environment
