import Interop.Json.Numeral

/-! # Tokens of JSON text

A character automaton cuts a text into brackets, separators, bare words and strings. It reads
each character once; `Json.Token.scan` is structural on the text.
-/

namespace Interop

namespace Json

inductive Token where
  | openArray
  | closeArray
  | openObject
  | closeObject
  | comma
  | colon
  | atom (value : Json)
  /-- A string, absent if it holds a lone surrogate. -/
  | text (value : Option String)

namespace Token

/-- What one position of a string contributes: a character, or half of a surrogate pair written
as an escape. -/
inductive Piece where
  | scalar (c : Char)
  | surrogate (unit : Nat)

/-- The piece written as an escaped UTF-16 unit. -/
def Piece.ofUnit (unit : Nat) : Piece :=
  if 0xD800 ≤ unit ∧ unit < 0xE000 then .surrogate unit else .scalar (Char.ofNat unit)

/-- Joins surrogate pairs; `none` if half of one stands alone. -/
def joinPieces : List Piece → Option (List Char)
  | [] => some []
  | .scalar c :: rest => (joinPieces rest).map (c :: ·)
  | .surrogate high :: .surrogate low :: rest =>
    if high < 0xDC00 ∧ 0xDC00 ≤ low then
      (joinPieces rest).map (Char.ofNat (0x10000 + (high - 0xD800) * 0x400 + (low - 0xDC00)) :: ·)
    else none
  | .surrogate _ :: _ => none

/-- Where the automaton stands. What was read so far is kept in reverse. -/
inductive Mode where
  | gap
  | word (seen : List Char)
  | string (seen : List Piece)
  | escape (seen : List Piece)
  | unicode (seen : List Piece) (missing : Nat) (unit : Nat)

def isWordChar (c : Char) : Bool :=
  c.isAlphanum || c == '-' || c == '+' || c == '.'

/-- Reads a character outside of words and strings: a blank, a token, or the start of a word or a
string. -/
def startAt (c : Char) : Option (List Token × Mode) :=
  match c with
  | ' ' | '\t' | '\n' | '\r' => some ([], .gap)
  | '[' => some ([.openArray], .gap)
  | ']' => some ([.closeArray], .gap)
  | '\x7b' => some ([.openObject], .gap)
  | '\x7d' => some ([.closeObject], .gap)
  | ',' => some ([.comma], .gap)
  | ':' => some ([.colon], .gap)
  | '"' => some ([], .string [])
  | c => if isWordChar c then some ([], .word [c]) else none

def unescape (c : Char) : Option Char :=
  match c with
  | '"' => some '"'
  | '\\' => some '\\'
  | '/' => some '/'
  | 'b' => some '\x08'
  | 'f' => some '\x0c'
  | 'n' => some '\n'
  | 'r' => some '\r'
  | 't' => some '\t'
  | _ => none

/-- One step of the automaton: the tokens that end before or at the character, and where it stands
after it. -/
def step (mode : Mode) (c : Char) : Option (List Token × Mode) :=
  match mode with
  | .gap => startAt c
  | .word seen =>
    if isWordChar c then some ([], .word (c :: seen))
    else do
      let value ← ofWord? seen.reverse
      let (tokens, next) ← startAt c
      return (.atom value :: tokens, next)
  | .string seen =>
    if c = '"' then
      some ([.text ((joinPieces seen.reverse).map String.ofList)], .gap)
    else if c = '\\' then some ([], .escape seen)
    else if c.toNat < 32 then none
    else some ([], .string (.scalar c :: seen))
  | .escape seen =>
    if c = 'u' then some ([], .unicode seen 3 0)
    else (unescape c).map fun c => ([], .string (.scalar c :: seen))
  | .unicode seen missing unit => do
    let unit := unit * 16 + (← Hex.value? c)
    match missing with
    | 0 => return ([], .string (Piece.ofUnit unit :: seen))
    | missing + 1 => return ([], .unicode seen missing unit)

/-- The tokens of a text read from a mode on. -/
def scan : Mode → List Char → Option (List Token)
  | .gap, [] => some []
  | .word seen, [] => (ofWord? seen.reverse).map fun value => [.atom value]
  | .string _, [] | .escape _, [] | .unicode .., [] => none
  | mode, c :: rest => do
    let (tokens, next) ← step mode c
    return tokens ++ (← scan next rest)

def ofChars? (chars : List Char) : Option (List Token) := scan .gap chars

end Token

end Json

end Interop
