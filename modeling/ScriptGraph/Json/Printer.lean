import ScriptGraph.Decimal.Style
import ScriptGraph.Json.Value

/-!
# Compact JSON text

Values are written without blanks and members in the order of the value.
Doubles have their shortest digits and always a fraction or an exponent, so that
their kind can be read back.
-/

namespace ScriptGraph.Json

/-- Doubles are written positionally from `10 ^ -5` to below `10 ^ 16`, always
with a fraction. -/
def doubleStyle : Decimal.Style where
  positionalFrom := -5
  positionalBelow := 16
  emptyFraction := "0"
  exponentMark := "e+"
  negativeExponentMark := "e-"

def Number.render : Number → String
  | .integer n => if n < 0 then "-" ++ String.ofList (Decimal.digitsOf n.natAbs)
    else String.ofList (Decimal.digitsOf n.natAbs)
  | .real x => doubleStyle.write x

def hexByte (n : Nat) : List Char :=
  [Nat.digitChar (n / 16), Nat.digitChar (n % 16)]

/-- The text of one character inside quotes: only quotes, backslashes and
control characters are escaped. -/
def escapeChar (c : Char) : List Char :=
  if c = '"' then ['\\', '"']
  else if c = '\\' then ['\\', '\\']
  else if c = '\n' then ['\\', 'n']
  else if c = '\r' then ['\\', 'r']
  else if c = '\t' then ['\\', 't']
  else if c.toNat = 8 then ['\\', 'b']
  else if c.toNat = 12 then ['\\', 'f']
  else if c.toNat < 32 then ['\\', 'u', '0', '0'] ++ hexByte c.toNat
  else [c]

def appendQuoted (acc : String) (s : String) : String :=
  (s.foldl (fun acc c => (escapeChar c).foldl String.push acc)
    (acc.push '"')).push '"'

mutual

def Value.appendTo (acc : String) : Value → String
  | .null => acc ++ "null"
  | .bool true => acc ++ "true"
  | .bool false => acc ++ "false"
  | .number n => acc ++ n.render
  | .text s => appendQuoted acc s
  | .array items => (appendItems (acc.push '[') true items).push ']'
  | .object members =>
    (appendMembers (acc.push '\x7b') true members).push '\x7d'

def appendItems (acc : String) (first : Bool) : List Value → String
  | [] => acc
  | item :: items =>
    appendItems (item.appendTo (if first then acc else acc.push ','))
      false items

def appendMembers (acc : String) (first : Bool) : List (String × Value) → String
  | [] => acc
  | (key, v) :: members =>
    let opened :=
      (appendQuoted (if first then acc else acc.push ',') key).push ':'
    appendMembers (v.appendTo opened) false members

end

def Value.render (v : Value) : String :=
  v.appendTo ""

/-! ## Text in lines -/

def newLine (acc : String) (level : Nat) : String :=
  (List.replicate (2 * level) ' ').foldl String.push (acc.push '\n')

mutual

/-- Appends the text of a value in lines; what is empty stays on one line. -/
def Value.appendLines (acc : String) (level : Nat) : Value → String
  | .array [] => acc ++ "[]"
  | .array (item :: items) =>
    let inner :=
      item.appendLines (newLine (acc.push '[') (level + 1)) (level + 1)
    (newLine (appendItemLines inner (level + 1) items) level).push ']'
  | .object [] => (acc.push '\x7b').push '\x7d'
  | .object ((key, v) :: members) =>
    let named :=
      appendQuoted (newLine (acc.push '\x7b') (level + 1)) key ++ ": "
    let inner := v.appendLines named (level + 1)
    (newLine (appendMemberLines inner (level + 1) members) level).push '\x7d'
  | .null => Value.null.appendTo acc
  | .bool b => (Value.bool b).appendTo acc
  | .number n => (Value.number n).appendTo acc
  | .text s => (Value.text s).appendTo acc

def appendItemLines (acc : String) (level : Nat) : List Value → String
  | [] => acc
  | item :: items =>
    appendItemLines
      (item.appendLines (newLine (acc.push ',') level) level) level items

def appendMemberLines (acc : String) (level : Nat) :
    List (String × Value) → String
  | [] => acc
  | (key, v) :: members =>
    let named := appendQuoted (newLine (acc.push ',') level) key ++ ": "
    appendMemberLines (v.appendLines named level) level members

end

def Value.renderLines (v : Value) : String :=
  v.appendLines "" 0

end ScriptGraph.Json
