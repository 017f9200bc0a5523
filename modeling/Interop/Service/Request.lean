import Interop.Json.Reader
import Interop.Options
import Interop.Schema.Codec

/-! # Requests

Requests are JSON objects. A request that lacks a part or has one of the wrong kind is malformed;
a value of the schema that cannot be read is reported as such. In a list of questions each one
succeeds or fails by itself.
-/

namespace Interop.Service

open Schema

/-- Why a question has no answer. -/
inductive Refusal where
  | malformed
  | unreadable
  /-- The type that the question is about has no instances. -/
  | noOwner
  /-- The answer is an error of the library. -/
  | failed (kind message : String)
  /-- The stack overflows: neither this question nor any other gets an answer. -/
  | overflow
  deriving DecidableEq, Repr, Inhabited

def failure (kind message : String) : Json :=
  .obj [("error", .str kind), ("message", .str message)]

def Refusal.toJson : Refusal → Json
  | malformed => .obj [("error", .str "BadInput")]
  | unreadable => .obj [("error", .str "Json")]
  | noOwner => .obj [("error", .str "NoOwner")]
  | failed kind message => failure kind message
  | overflow => .obj [("error", .str "StackOverflow")]

abbrev Decode := Except Refusal

def answer (result : Decode Json) : Json :=
  match result with
  | .ok value => value
  | .error refusal => refusal.toJson

/-- The answers to a list of questions. Each one succeeds or fails by itself, as long as the stack
does not overflow. -/
def answers (results : List (Decode Json)) : Decode Json := do
  let answered ← results.mapM fun
    | .error .overflow => .error .overflow
    | result => .ok (answer result)
  return .arr answered

/-- The request that a line holds: a document that can be read to its last part. -/
def ofLine (line : String) : Decode Json :=
  match Json.parse? line with
  | some request =>
    if Json.intact Json.documentRoom request then .ok request else .error .malformed
  | none => .error .malformed

/-- Room for values that are part of a request; the request as a whole has been read already. -/
def room : Nat := 1000

/-- A part of a request; `null` counts as absent. -/
def field? (value : Json) (key : String) : Option Json :=
  match value.get? key with
  | some .null | none => none
  | some part => some part

def need {α : Type} (part : Option α) : Decode α :=
  match part with
  | some value => .ok value
  | none => .error .malformed

def model {α : Type} (read : Json.Reader α) (value : Json) : Decode α :=
  match read room value with
  | some value => .ok value
  | none => .error .unreadable

def asText : Json → Decode String
  | .str text => .ok text
  | _ => .error .malformed

def asNat : Json → Decode Nat
  | .int value => if 0 ≤ value then .ok value.toNat else .error .malformed
  | _ => .error .malformed

def asInt : Json → Decode Int
  | .int value => .ok value
  | _ => .error .malformed

def asBool : Json → Decode Bool
  | .bool value => .ok value
  | _ => .error .malformed

def asList : Json → Decode (List Json)
  | .arr items => .ok items
  | _ => .error .malformed

/-- The part of a list at a place; one that is not there is `null`, and more than are asked for do
not matter. -/
def argument (parts : List Json) (place : Nat) : Json := parts.getD place .null

def text (value : Json) (key : String) : Decode String := do asText (← need (field? value key))

def textOr (value : Json) (key fallback : String) : Decode String :=
  match field? value key with
  | some part => asText part
  | none => .ok fallback

def asText? : Json → Decode (Option String)
  | .null => .ok none
  | part => some <$> asText part

def text? (value : Json) (key : String) : Decode (Option String) :=
  asText? ((value.get? key).getD .null)

def nat (value : Json) (key : String) : Decode Nat := do asNat (← need (field? value key))

def nat? (value : Json) (key : String) : Decode (Option Nat) :=
  match field? value key with
  | some part => some <$> asNat part
  | none => .ok none

/-- The number at a key, or another one where there is none. What is no natural number counts as
none. -/
def natOr (value : Json) (key : String) (fallback : Nat) : Nat :=
  match value.get? key with
  | some (.int number) => if 0 ≤ number then number.toNat else fallback
  | _ => fallback

/-- The pointer size that a request asks for, by default that of the options. -/
def pointerSize (value : Json) : Nat :=
  natOr value "pointer_size" ({} : Options).pointerSize

def asFlag : Json → Decode Bool
  | .null => .ok false
  | part => asBool part

def flag (value : Json) (key : String) : Decode Bool :=
  asFlag ((value.get? key).getD .null)

def list (value : Json) (key : String) : Decode (List Json) := do
  asList (← need (field? value key))

def listOr (value : Json) (key : String) : Decode (List Json) :=
  match field? value key with
  | some part => asList part
  | none => .ok []

/-- The repository of a request, empty by default. -/
def repository (request : Json) : Decode Repository :=
  match field? request "repo" with
  | some part => model Repository.read part
  | none => .ok (.ofSpaces [])

/-- Runs steps on a state one after the other and lists their answers. -/
def runSteps {α : Type} (steps : List Json) (start : α) (step : α → Json → Json × α) : Json :=
  let run := fun (state : List Json × α) request =>
    let (value, next) := step state.2 request
    (value :: state.1, next)
  .arr (steps.foldl run ([], start)).1.reverse

end Interop.Service
