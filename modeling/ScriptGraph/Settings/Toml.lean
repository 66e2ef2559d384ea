import ScriptGraph.Decimal.Reading
import ScriptGraph.Json.Parser

/-!
# Settings files

Settings are written in TOML, one `key = value` a line: integers, doubles, truth
values and quoted texts, with comments and table headers between them.  `parse?`
gives a file as a table of values.  A table is made by its own header, by the
header of a table inside it or by a dotted key, and how it was made decides what
may be added to it later.
-/

namespace ScriptGraph.Toml

open Json

/-! ## Characters -/

def skipSpace (text : List Char) : List Char :=
  text.dropWhile fun c => c == ' ' || c == '\t'

def isControl (c : Char) : Bool :=
  (c.toNat < 32 && c != '\t') || c.toNat == 127

def endsLine (rest : List Char) : Bool :=
  match skipSpace rest with
  | [] => true
  | c :: comment => c == '#' && !comment.any isControl

/-! ## Texts -/

def scanLiteral (text : List Char) : Option (String × List Char) :=
  match text.span (· != '\'') with
  | (inner, _ :: rest) =>
    if inner.any isControl then none else some (String.ofList inner, rest)
  | (_, []) => none

def charOfHex? (digits : List Char) : Option Char := do
  let values ← digits.mapM hexDigit?
  let n := values.foldl (fun n d => 16 * n + d) 0
  if n < 0xD800 || (0xDFFF < n && n < 0x110000) then
    some (Char.ofNat n)
  else none

/-- Splits a text at the quote that closes it, which is the first one without a
backslash before it. -/
def spanQuoted : List Char → Option (List Char × List Char)
  | [] => none
  | '"' :: rest => some ([], rest)
  | '\\' :: c :: rest =>
    (spanQuoted rest).map fun (inner, after) => ('\\' :: c :: inner, after)
  | c :: rest => (spanQuoted rest).map fun (inner, after) => (c :: inner, after)

def unescapeAll? : List Char → Option (List Char)
  | [] => some []
  | '\\' :: 'u' :: a :: b :: c :: d :: rest => do
    return (← charOfHex? [a, b, c, d]) :: (← unescapeAll? rest)
  | '\\' :: 'U' :: a :: b :: c :: d :: e :: f :: g :: h :: rest => do
    return (← charOfHex? [a, b, c, d, e, f, g, h]) :: (← unescapeAll? rest)
  | '\\' :: c :: rest => do
    return (← if c = '/' then none else unescape? c) :: (← unescapeAll? rest)
  | c :: rest =>
    if isControl c || c = '\\' then none else (unescapeAll? rest).map (c :: ·)

def scanBasic (text : List Char) : Option (String × List Char) :=
  match spanQuoted text with
  | some (inner, rest) =>
    (unescapeAll? inner).map fun chars => (String.ofList chars, rest)
  | none => none

/-! ## Scalars -/

def groupedDigits? (isDigit : Char → Bool) (text : List Char) :
    Option (List Char) :=
  let groups := (String.ofList text).splitOn "_"
  if groups.all fun group => !group.isEmpty && group.toList.all isDigit then
    some (text.filter (· != '_'))
  else none

def decimalDigits? (text : List Char) : Option (List Char) :=
  match groupedDigits? Char.isDigit text with
  | some digits =>
    if digits.length > 1 && digits.head? == some '0' then none else some digits
  | none => none

def basedNat? (base : Nat) (text : List Char) : Option Nat := do
  let digits ← groupedDigits? (fun c => match hexDigit? c with
    | some d => decide (d < base)
    | none => false) text
  let values ← digits.mapM hexDigit?
  return values.foldl (fun n d => base * n + d) 0

def integer? (token : List Char) : Option Int :=
  let bounded := fun n : Int =>
    if Int64.minValue.toInt ≤ n ∧ n ≤ Int64.maxValue.toInt then some n
    else none
  match token with
  | '0' :: 'x' :: digits => (basedNat? 16 digits).bind fun n => bounded n
  | '0' :: 'o' :: digits => (basedNat? 8 digits).bind fun n => bounded n
  | '0' :: 'b' :: digits => (basedNat? 2 digits).bind fun n => bounded n
  | _ =>
    let (negative, digits) := Decimal.spanSign token
    (decimalDigits? digits).bind fun digits =>
      let n : Int := Decimal.natOfDigits digits
      bounded (if negative then -n else n)

def isRealLiteral (text : List Char) : Bool :=
  let (mantissa, exponent) := text.span fun c => c != 'e' && c != 'E'
  let (whole, fraction) := mantissa.span (· != '.')
  let exponentOk := match exponent with
    | [] => true
    | _ :: rest =>
      (groupedDigits? Char.isDigit (Decimal.spanSign rest).2).isSome
  let fractionOk := match fraction with
    | [] => true
    | _ :: rest => (groupedDigits? Char.isDigit rest).isSome
  (decimalDigits? whole).isSome && fractionOk && exponentOk &&
    (!fraction.isEmpty || !exponent.isEmpty)

/-- A double: one of the words for what is not finite, or a literal that is not
too large for a double.  A negative literal that is too large is minus
infinity. -/
def real? (token : List Char) : Option Float :=
  let (_, unsigned) := Decimal.spanSign token
  if unsigned = ['i', 'n', 'f'] || unsigned = ['n', 'a', 'n'] then
    Decimal.readFloat? token
  else if isRealLiteral unsigned then
    (Decimal.readFloat? (token.filter (· != '_'))).filter fun x =>
      !(x.isInf && 0.0 < x)
  else none

def scalar? (token : List Char) : Option Value :=
  if token = ['t', 'r', 'u', 'e'] then some (.bool true)
  else if token = ['f', 'a', 'l', 's', 'e'] then some (.bool false)
  else match integer? token with
    | some n => some (.ofInt n)
    | none => (real? token).map .ofFloat

def scanValue (text : List Char) : Option (Value × List Char) :=
  match text with
  | '"' :: rest => (scanBasic rest).map fun (s, rest) => (.text s, rest)
  | '\'' :: rest => (scanLiteral rest).map fun (s, rest) => (.text s, rest)
  | _ =>
    let (token, rest) := text.span fun c => c != ' ' && c != '\t' && c != '#'
    (scalar? token).map fun v => (v, rest)

/-! ## Keys -/

def isBare (c : Char) : Bool :=
  (c.isAlphanum || c == '_' || c == '-')

def scanName (text : List Char) : Option (String × List Char) :=
  match text with
  | '"' :: rest => scanBasic rest
  | '\'' :: rest => scanLiteral rest
  | _ =>
    let (name, rest) := text.span isBare
    if name.isEmpty then none else some (String.ofList name, rest)

def scanParts : Nat → List Char → Option (List String × List Char)
  | 0, _ => none
  | fuel + 1, text =>
    match scanName (skipSpace text) with
    | none => none
    | some (name, rest) =>
      match skipSpace rest with
      | '.' :: more =>
        (scanParts fuel more).map fun (names, rest) => (name :: names, rest)
      | rest => some ([name], rest)

def partLimit : Nat := 80

def scanPath (text : List Char) : Option (List String × List Char) :=
  (scanParts text.length text).filter fun found => found.1.length < partLimit

inductive Line where
  | blank
  | table (path : List String)
  | tableItem (path : List String)
  | setting (path : List String) (value : Value)
  deriving DecidableEq, Repr

def Line.parse? (text : List Char) : Option Line :=
  match skipSpace text with
  | [] => some .blank
  | '#' :: comment => if comment.any isControl then none else some .blank
  | '[' :: '[' :: rest =>
    match scanPath rest with
    | some (path, ']' :: ']' :: rest) =>
      if endsLine rest then some (.tableItem path) else none
    | _ => none
  | '[' :: rest =>
    match scanPath rest with
    | some (path, ']' :: rest) =>
      if endsLine rest then some (.table path) else none
    | _ => none
  | rest =>
    match scanPath rest with
    | some (path, '=' :: rest) =>
      match scanValue (skipSpace rest) with
      | some (value, rest) =>
        if endsLine rest then some (.setting path value) else none
      | none => none
    | _ => none

/-! ## Files -/

inductive Origin where
  | header
  | inner
  | dotted
  deriving DecidableEq, Repr

inductive Item where
  | value (v : Value)
  | table (origin : Origin) (members : List (String × Item))
  | tables (last : List (String × Item)) (earlier : List (List (String × Item)))

abbrev Members := List (String × Item)

/-- Changes the table that a path leads to.  Tables that are missing on the way
are made with the origin `made`; a dotted key does not lead into a table with a
header of its own. -/
def changeAt (made : Origin) (change : Origin → Members → Option Members) :
    List String → Origin → Members → Option Members
  | [], origin, members => change origin members
  | name :: path, _, members =>
    match Table.findEntry name members with
    | none =>
      (changeAt made change path made []).map fun inner =>
        Table.insertEntry name (.table made inner) members
    | some (.value _) => none
    | some (.tables last earlier) =>
      (changeAt made change path .header last).map fun last =>
        Table.insertEntry name (.tables last earlier) members
    | some (.table origin inner) =>
      if made = .dotted ∧ origin = .header then none
      else
        (changeAt made change path origin inner).map fun inner =>
          Table.insertEntry name (.table origin inner) members

def assign (name : String) (value : Value) (members : Members) :
    Option Members :=
  match Table.findEntry name members with
  | none => some (Table.insertEntry name (.value value) members)
  | some _ => none

/-- Adds a setting to a table.  A dotted key adds only to tables that dotted
keys have made. -/
def assignAt (path : List String) (value : Value) (origin : Origin)
    (members : Members) : Option Members :=
  match path.dropLast, path.getLast? with
  | _, none => none
  | [], some name => assign name value members
  | parents, some name =>
    changeAt .dotted
      (fun origin members => if origin = .dotted then
        assign name value members else none)
      parents origin members

/-- Makes a table with a header, which may have been made by the header of a
table inside it before. -/
def openTable (name : String) (members : Members) : Option Members :=
  match Table.findEntry name members with
  | none => some (Table.insertEntry name (.table .header []) members)
  | some (.table .inner inner) =>
    some (Table.insertEntry name (.table .header inner) members)
  | some _ => none

def openItem (name : String) (members : Members) : Option Members :=
  match Table.findEntry name members with
  | none => some (Table.insertEntry name (.tables [] []) members)
  | some (.tables last earlier) =>
    some (Table.insertEntry name (.tables [] (last :: earlier)) members)
  | some _ => none

def openAt (make : String → Members → Option Members) (path : List String)
    (top : Members) : Option Members :=
  match path.getLast? with
  | none => none
  | some name =>
    changeAt .inner (fun _ members => make name members) path.dropLast
      .header top

structure Document where
  top : Members := []
  current : List String := []

def Document.add? (document : Document) : Line → Option Document
  | .blank => some document
  | .table path =>
    (openAt openTable path document.top).map fun top => ⟨top, path⟩
  | .tableItem path =>
    (openAt openItem path document.top).map fun top => ⟨top, path⟩
  | .setting path value =>
    (changeAt .inner (assignAt path value) document.current .header
      document.top).map fun top => { document with top := top }

mutual

def Item.toValue : Item → Value
  | .value v => v
  | .table _ members => .object (membersToValues members)
  | .tables last earlier =>
    .array ((.object (membersToValues last) :: tablesToValues earlier).reverse)

def membersToValues : List (String × Item) → List (String × Value)
  | [] => []
  | (name, item) :: members => (name, item.toValue) :: membersToValues members

def tablesToValues : List (List (String × Item)) → List Value
  | [] => []
  | members :: tables =>
    .object (membersToValues members) :: tablesToValues tables

end

/-- The lines of a text, without their ends; a mark of the byte order before the
first one is dropped. -/
def linesOf (text : String) : List (List Char) :=
  let lines := (text.splitOn "\n").map String.toList
  let lines := match lines with
    | (c :: line) :: rest =>
      (if c.toNat = 0xFEFF then line else c :: line) :: rest
    | _ => lines
  let ended := lines.dropLast.map fun line =>
    if line.getLast? == some '\r' then line.dropLast else line
  ended ++ lines.getLast?.toList

def parse? (text : String) : Option (Table Value) := do
  let lines ← (linesOf text).mapM Line.parse?
  let document ← lines.foldlM Document.add? {}
  return .ofList (membersToValues document.top)

end ScriptGraph.Toml
