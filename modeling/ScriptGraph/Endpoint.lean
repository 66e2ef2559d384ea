import ScriptGraph.Json.Decoding

/-!
# Endpoints and connections

An endpoint is a pin on a node, written `node.pin`; the last dot divides the
two, so node names may hold dots and pin names may not.  A connection is a pair
of endpoint texts, which need not be well formed.
-/

namespace ScriptGraph

open Json

structure Endpoint where
  node : String
  pin : String
  deriving DecidableEq, Repr

namespace Endpoint

def render (endpoint : Endpoint) : String :=
  endpoint.node ++ "." ++ endpoint.pin

/-- Splits a text at its last dot; both sides have to be there. -/
def parse? (text : String) : Option Endpoint :=
  match text.toList.reverse.span (· != '.') with
  | (pin, _ :: node) =>
    if pin.isEmpty || node.isEmpty then none
    else some ⟨String.ofList node.reverse, String.ofList pin.reverse⟩
  | (_, []) => none

def aroundLastDot? (text : String) : Option (String × String) :=
  match text.toList.reverse.span (· != '.') with
  | (after, _ :: before) =>
    some (String.ofList before.reverse, String.ofList after.reverse)
  | (_, []) => none

def split? (text : String) : Option (String × String) :=
  (aroundLastDot? text).filter fun parts => !parts.1.isEmpty && !parts.2.isEmpty

end Endpoint

structure Connection where
  source : String
  target : String
  deriving DecidableEq, Repr

namespace Connection

def between (source target : Endpoint) : Connection :=
  ⟨source.render, target.render⟩

def source? (connection : Connection) : Option Endpoint :=
  Endpoint.parse? connection.source

def target? (connection : Connection) : Option Endpoint :=
  Endpoint.parse? connection.target

def sourceParts? (connection : Connection) : Option (String × String) :=
  Endpoint.split? connection.source

def targetParts? (connection : Connection) : Option (String × String) :=
  Endpoint.split? connection.target

def leaves (connection : Connection) (endpoint : Endpoint) : Bool :=
  connection.source? == some endpoint

def arrivesAt (connection : Connection) (node : String) : Bool :=
  connection.target?.map Endpoint.node == some node

def toJson (connection : Connection) : Value :=
  .record [("from", some (.text connection.source)),
    ("to", some (.text connection.target))]

def ofJson? : Decoder Connection := fun v =>
  match v.fields? ["from", "to"] with
  | some [source, target] => do
    return {
      source := ← Decoder.required .text source
      target := ← Decoder.required .text target }
  | _ => none

end Connection

end ScriptGraph
