import Interop.Json.Token

/-! # Reading JSON text

A stack of open arrays and objects reads the tokens one by one. `Json.parse?` accepts exactly one
value with nothing after it.
-/

namespace Interop

namespace Json

/-- The members of an open object in reverse; absent once a key was unreadable. -/
abbrev Members := Option (List (String × Json))

/-- An array or an object that is still open, with what it holds so far in reverse. -/
inductive Frame where
  | items (seen : List Json)
  | members (seen : Members) (key : Option String)

/-- What the parser waits for, inside of the frames that are open around it. -/
inductive Expecting where
  /-- A value, or the end of the array just opened. -/
  | beforeValue (orEnd : Bool) (outer : List Frame)
  /-- A key, or the end of the object just opened. -/
  | beforeKey (orEnd : Bool) (seen : Members) (outer : List Frame)
  | beforeColon (seen : Members) (key : Option String) (outer : List Frame)
  | afterItem (seen : List Json) (outer : List Frame)
  | afterMember (seen : Members) (outer : List Frame)
  /-- Nothing: the document is complete. -/
  | complete (value : Json)

namespace Expecting

/-- A complete value goes to the innermost open frame. -/
def deliver (value : Json) : List Frame → Expecting
  | [] => .complete value
  | .items seen :: outer => .afterItem (value :: seen) outer
  | .members seen key :: outer =>
    .afterMember (seen.bind fun seen => key.map fun key => (key, value) :: seen) outer

def close : Members → Json
  | some seen => .obj seen.reverse
  | none => .broken

/-- Reads the first token of a value. -/
def startValue (outer : List Frame) : Token → Option Expecting
  | .atom value => some (deliver value outer)
  | .text (some value) => some (deliver (.str value) outer)
  | .text none => some (deliver .broken outer)
  | .openArray => some (.beforeValue true (.items [] :: outer))
  | .openObject => some (.beforeKey true (some []) outer)
  | _ => none

def step : Expecting → Token → Option Expecting
  | .beforeValue true (.items seen :: outer), .closeArray =>
    some (deliver (.arr seen.reverse) outer)
  | .beforeValue _ outer, token => startValue outer token
  | .beforeKey _ seen outer, .text key => some (.beforeColon seen key outer)
  | .beforeKey true seen outer, .closeObject => some (deliver (close seen) outer)
  | .beforeKey .., _ => none
  | .beforeColon seen key outer, .colon => some (.beforeValue false (.members seen key :: outer))
  | .beforeColon .., _ => none
  | .afterItem seen outer, .comma => some (.beforeValue false (.items seen :: outer))
  | .afterItem seen outer, .closeArray => some (deliver (.arr seen.reverse) outer)
  | .afterItem .., _ => none
  | .afterMember seen outer, .comma => some (.beforeKey false seen outer)
  | .afterMember seen outer, .closeObject => some (deliver (close seen) outer)
  | .afterMember .., _ => none
  | .complete _, _ => none

def run (state : Expecting) : List Token → Option Expecting
  | [] => some state
  | token :: rest => (step state token).bind (run · rest)

end Expecting

/-- The value of a text that is one JSON document. -/
def parse? (text : String) : Option Json := do
  let tokens ← Token.ofChars? text.toList
  match ← Expecting.run (.beforeValue false []) tokens with
  | .complete value => return value
  | _ => none

end Json

end Interop
