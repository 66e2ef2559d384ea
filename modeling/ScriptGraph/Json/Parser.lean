import ScriptGraph.Json.Shape
import ScriptGraph.Json.Token

/-!
# Reading JSON text

`parseAs?` reads a whole text, as far as a shape looks for it, and `parse?`
reads all of it.  The members of an object are kept as they stand, repeated keys
included: whether a repetition matters is for the reader of the value to say
(`Value.canonical` keeps the last one).
-/

namespace ScriptGraph.Json

def nestingLimit : Nat := 128

/-! ## Passing over values -/

inductive Container where
  | array
  | object
  deriving DecidableEq, Repr

def skipKey (text : List Char) : Option (List Char) :=
  match skipBlanks text with
  | '"' :: rest =>
    match skipText rest with
    | some rest =>
      match skipBlanks rest with
      | ':' :: rest => some rest
      | _ => none
    | none => none
  | _ => none

/-- Passes over the rest of a value inside open containers, the innermost first;
`ended` says whether a value inside them has just ended or is to start.
Containers may nest without a limit. -/
def skipRest : Nat → (ended : Bool) → List Container → List Char →
    Option (List Char)
  | 0, _, _, _ => none
  | _ + 1, true, [], text => some text
  | fuel + 1, true, container :: stack, text =>
    match container, skipBlanks text with
    | .array, ',' :: rest => skipRest fuel false (.array :: stack) rest
    | .array, ']' :: rest => skipRest fuel true stack rest
    | .object, ',' :: rest =>
      match skipKey rest with
      | some rest => skipRest fuel false (.object :: stack) rest
      | none => none
    | .object, '\x7d' :: rest => skipRest fuel true stack rest
    | _, _ => none
  | fuel + 1, false, stack, text =>
    match skipBlanks text with
    | 'n' :: 'u' :: 'l' :: 'l' :: rest => skipRest fuel true stack rest
    | 't' :: 'r' :: 'u' :: 'e' :: rest => skipRest fuel true stack rest
    | 'f' :: 'a' :: 'l' :: 's' :: 'e' :: rest => skipRest fuel true stack rest
    | '"' :: rest =>
      match skipText rest with
      | some rest => skipRest fuel true stack rest
      | none => none
    | '[' :: rest =>
      match skipBlanks rest with
      | ']' :: rest => skipRest fuel true stack rest
      | rest => skipRest fuel false (.array :: stack) rest
    | '\x7b' :: rest =>
      match skipBlanks rest with
      | '\x7d' :: rest => skipRest fuel true stack rest
      | rest =>
        match skipKey rest with
        | some rest => skipRest fuel false (.object :: stack) rest
        | none => none
    | rest =>
      match skipNumber rest with
      | some rest => skipRest fuel true stack rest
      | none => none

def skipValue (fuel : Nat) (text : List Char) : Option (List Char) :=
  skipRest fuel false [] text

/-! ## Values -/

mutual

/-- Reads a value from the front of a text.  `depth` is how many containers may
still be opened around it. -/
def scanValue :
    (fuel depth : Nat) → Shape → List Char → Option (Value × List Char)
  | 0, _, _, _ => none
  | fuel + 1, depth, shape, text =>
    match skipBlanks text with
    | 'n' :: 'u' :: 'l' :: 'l' :: rest => some (.null, rest)
    | 't' :: 'r' :: 'u' :: 'e' :: rest => some (.bool true, rest)
    | 'f' :: 'a' :: 'l' :: 's' :: 'e' :: rest => some (.bool false, rest)
    | '"' :: rest => (scanText [] rest).map fun (s, rest) => (.text s, rest)
    | '[' :: rest =>
      if depth ≤ 1 then none
      else match skipBlanks rest with
        | ']' :: rest => some (.array [], rest)
        | rest => scanItems fuel (depth - 1) shape.items.1 shape.items.2 [] rest
    | '\x7b' :: rest =>
      if depth ≤ 1 then none
      else match skipBlanks rest with
        | '\x7d' :: rest => some (.object [], rest)
        | rest => scanMembers fuel (depth - 1) shape [] rest
    | rest => (scanNumber rest).map fun (n, rest) => (.number n, rest)

def scanItems : (fuel depth : Nat) → (first : List Shape) → (others : Shape) →
    List Value → List Char → Option (Value × List Char)
  | 0, _, _, _, _, _ => none
  | fuel + 1, depth, first, others, acc, text =>
    let shape := first.head?.getD others
    match scanValue fuel depth shape text with
    | none => none
    | some (v, rest) =>
      if !shape.accepts v then none
      else match skipBlanks rest with
        | ',' :: rest => scanItems fuel depth first.tail others (v :: acc) rest
        | ']' :: rest => some (.array (v :: acc).reverse, rest)
        | _ => none

def scanMembers : (fuel depth : Nat) → Shape → List (String × Value) →
    List Char → Option (Value × List Char)
  | 0, _, _, _, _ => none
  | fuel + 1, depth, shape, acc, text =>
    match skipBlanks text with
    | '"' :: rest =>
      match scanText [] rest with
      | none => none
      | some (key, rest) =>
        match skipBlanks rest with
        | ':' :: rest =>
          if shape.givesOnce &&
            acc.any (fun member => member.1 == key) then none
          else
            let found := match shape.member? key with
              | none => (skipValue fuel rest).map fun rest => (acc, rest)
              | some inner =>
                match scanValue fuel depth inner rest with
                | none => none
                | some (v, rest) =>
                  if inner.accepts v then some ((key, v) :: acc, rest) else none
            match found with
            | none => none
            | some (acc, rest) =>
              match skipBlanks rest with
              | ',' :: rest => scanMembers fuel depth shape acc rest
              | '\x7d' :: rest => some (.object acc.reverse, rest)
              | _ => none
        | _ => none
    | _ => none

end

/-- Reads a whole text as far as a shape looks for it, keeping repeated keys.
Any two steps of the reader in a row use up a character, so twice the length of
the text bounds them. -/
def parseAs? (shape : Shape) (text : String) : Option Value :=
  let chars := text.toList
  match scanValue (2 * chars.length + 2) nestingLimit shape chars with
  | some (v, rest) =>
    if (skipBlanks rest).isEmpty && shape.accepts v then some v else none
  | none => none

def parse? (text : String) : Option Value :=
  parseAs? .any text

end ScriptGraph.Json
