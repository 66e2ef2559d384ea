import ScriptGraph.Json.Decoding
import ScriptGraph.Json.Printer

/-!
# Node outputs

Executing a node gives values for its output pins and a `Flow`: where control
goes next.  `Output.ofRaw` reads an output from the loosely shaped JSON that
dynamic nodes return.
-/

namespace ScriptGraph

open Json

/-! ## Flow -/

inductive Flow where
  | proceed (pin : String)
  | sequence (pins : List String)
  | loop (pin : String) (start stop current : Int64)
  | error (message : String)
  | finish
  deriving DecidableEq, Repr

inductive FlowError where
  | malformed
  | fractionalBound (n : Number)
  deriving DecidableEq, Repr

namespace Flow

def unspecifiedError : String := "node reported an error"

def toJson : Flow → Value
  | proceed pin => .object [("pin", .text pin), ("type", .text "continue")]
  | sequence pins =>
    .object [("pins", .ofTexts pins), ("type", .text "sequence")]
  | loop pin start stop current => .object [
      ("current", .ofInt current.toInt),
      ("end", .ofInt stop.toInt),
      ("pin", .text pin),
      ("start", .ofInt start.toInt),
      ("type", .text "loop")]
  | error message =>
    .object [("message", .text message), ("type", .text "error")]
  | finish => .object [("type", .text "end")]

/-- A loop bound: an integer, also one written as a double, taken to the nearest
one of 64 bits. -/
def bound : Value → Except FlowError Int64
  | .number n =>
    match n.toInt64? with
    | some i => .ok i
    | none =>
      if Binary64.isIntegral n.toFloat then .ok (Binary64.toInt64 n.toFloat)
      else .error (.fractionalBound n)
  | _ => .error .malformed

def demand {α : Type} : Option α → Except FlowError α
  | some a => .ok a
  | none => .error .malformed

def field {α : Type} (decode : Value → Except FlowError α)
    (default : Option α) : Option Value → Except FlowError α
  | some v => decode v
  | none => demand default

def present {α : Type} (decode : Value → Except FlowError α) :
    Option Value → Except FlowError Unit
  | some v => (decode v).map fun _ => ()
  | none => .ok ()

def text (v : Value) : Except FlowError String :=
  demand v.asText?

def readLoop (pin start stop current : Option Value) :
    Except FlowError Flow := do
  return .loop
    (← field text none pin)
    (← field bound none start)
    (← field bound none stop)
    (← field bound (some 0) current)

/-- Reads a loop from the fields of an object.  The fields that are there are
read in the order of their names before any is missed, so the first of them that
is wrong decides the error. -/
def readLoopObject (pin start stop current : Option Value) :
    Except FlowError Flow := do
  present bound current
  present bound stop
  present text pin
  present bound start
  readLoop pin start stop current

/-- Reads a loop from the items of an array, one after another; an item too many
is noticed last. -/
def readLoopArray (items : List Value) : Except FlowError Flow := do
  let flow ← readLoop items[0]? items[1]? items[2]? items[3]?
  if items.length ≤ 4 then return flow else throw .malformed

def readAs (tag : String) (payload : Value) : Except FlowError Flow :=
  match tag with
  | "continue" =>
    match payload.fields? ["pin"] with
    | some [pin] => demand ((Decoder.required .text pin).map .proceed)
    | _ => .error .malformed
  | "sequence" =>
    match payload.fields? ["pins"] with
    | some [pins] =>
      demand ((Decoder.required (.list .text) pins).map .sequence)
    | _ => .error .malformed
  | "loop" =>
    match payload with
    | .object _ =>
      readLoopObject (payload.get? "pin") (payload.get? "start")
        (payload.get? "end") (payload.get? "current")
    | .array items => readLoopArray items
    | _ => .error .malformed
  | "error" =>
    match payload.fields? ["message"] with
    | some [message] =>
      demand ((Decoder.orElse .text unspecifiedError message).map .error)
    | _ => .error .malformed
  | "end" =>
    match payload.fields? [] with
    | some _ => .ok .finish
    | none => .error .malformed
  | _ => .error .malformed

def ofJson : Value → Except FlowError Flow
  | .object members =>
    match (Table.findEntry "type" members).bind Value.asText? with
    | some tag => readAs tag (.object members)
    | none => .error .malformed
  | .array (.text tag :: rest) => readAs tag (.array rest)
  | _ => .error .malformed

end Flow

def FlowError.message? : FlowError → Option String
  | .malformed => none
  | .fractionalBound n => some ("expected an integer, got " ++ n.render)

/-! ## Outputs -/

structure Output where
  values : Table Value
  flow : Flow
  deriving DecidableEq, Repr

namespace Output

def proceed (pin : String) (values : Table Value) : Output :=
  ⟨values, .proceed pin⟩

def sequence (pins : List String) : Output :=
  ⟨.empty, .sequence pins⟩

def loop (pin : String) (start stop : Int64) : Output :=
  ⟨.empty, .loop pin start stop start⟩

def finish (values : Table Value) : Output :=
  ⟨values, .finish⟩

def single (pin : String) (value : Value) : Output :=
  finish (.single pin value)

def error (message : String) : Output :=
  ⟨.empty, .error message⟩

def isProceed (output : Output) : Bool :=
  match output.flow with
  | .proceed _ => true
  | _ => false

def isFinish (output : Output) : Bool :=
  match output.flow with
  | .finish => true
  | _ => false

def isError (output : Output) : Bool :=
  match output.flow with
  | .error _ => true
  | _ => false

def nextPin? (output : Output) : Option String :=
  match output.flow with
  | .proceed pin => some pin
  | _ => none

def errorMessage? (output : Output) : Option String :=
  match output.flow with
  | .error message => some message
  | _ => none

/-- Reads a loosely shaped output: an object with `values` and `result`, either
of which may be missing or of no use; an object with neither is the values
themselves; all else is an end without values. -/
def ofRaw : Option Value → Output
  | some (.object members) =>
    let raw := Table.ofList members
    if !raw.contains "values" && !raw.contains "result" then finish raw
    else
      { values := ((raw.get? "values").bind Value.asTable?).getD .empty
        flow :=
          match (raw.get? "result").map Flow.ofJson with
          | some (.ok flow) => flow
          | _ => .finish }
  | _ => finish .empty

end Output

end ScriptGraph
