import Interop.Number.Binary
import Interop.Json.Basic

/-! # Number literals

Which texts are JSON numbers, and which value each one has.
-/

namespace Interop

namespace Json

/-- A number literal taken apart. -/
structure Numeral where
  negative : Bool
  whole : List Char
  /-- The digits behind the point, if there is one. -/
  fraction : Option (List Char)
  /-- The sign and the digits behind the mark of the exponent, if there is one. -/
  exponent : Option (Bool × List Char)

namespace Numeral

def appendDigit (n : Nat) (c : Char) : Nat := n * 10 + (c.toNat - '0'.toNat)

/-- The number that decimal digits stand for. -/
def digitsValue (digits : List Char) : Nat := digits.foldl appendDigit 0

/-- Digits without a leading zero, or zero itself. -/
def wholeOk : List Char → Bool
  | [] => false
  | ['0'] => true
  | c :: _ => c != '0'

def exponentPart (chars : List Char) : Option (Option (Bool × List Char)) :=
  match chars with
  | [] => some none
  | mark :: rest =>
    if mark != 'e' && mark != 'E' then none
    else
      let (negative, digits) := match rest with
        | '+' :: digits => (false, digits)
        | '-' :: digits => (true, digits)
        | digits => (false, digits)
      if digits.isEmpty || !digits.all Char.isDigit then none else some (some (negative, digits))

/-- Takes a literal apart; `none` if it is not a number of the grammar. -/
def ofChars? (chars : List Char) : Option Numeral := do
  let (negative, chars) := match chars with
    | '-' :: rest => (true, rest)
    | _ => (false, chars)
  let whole := chars.takeWhile Char.isDigit
  guard (wholeOk whole)
  match chars.dropWhile Char.isDigit with
  | '.' :: rest =>
    let fraction := rest.takeWhile Char.isDigit
    guard (!fraction.isEmpty)
    return ⟨negative, whole, some fraction, ← exponentPart (rest.dropWhile Char.isDigit)⟩
  | rest => return ⟨negative, whole, none, ← exponentPart rest⟩

/-- The integer that a literal without fraction and exponent stands for. Minus zero is none. -/
def integer? (numeral : Numeral) : Option Int :=
  match numeral.fraction, numeral.exponent with
  | none, none =>
    let magnitude := digitsValue numeral.whole
    let value : Int := if numeral.negative then - magnitude else magnitude
    if numeral.negative && magnitude == 0 then none
    else if -twoPow 63 ≤ value ∧ value < twoPow 64 then some value
    else none
  | _, _ => none

/-- Reads digits onto a number for as long as it fits 64 bits. The digits from the first one that
does not are only counted. -/
def absorb (significand : Nat) : List Char → Nat × Nat
  | [] => (significand, 0)
  | c :: rest =>
    let next := appendDigit significand c
    if next < twoPow 64 then absorb next rest else (significand, rest.length + 1)

/-- The significand of a numeral and the power of ten it is scaled by. Digits of the whole part that
are not read count as zeros; those of the fraction are dropped. -/
def scaled (numeral : Numeral) : Nat × Int :=
  let (whole, zeros) := absorb 0 numeral.whole
  let fraction := numeral.fraction.getD []
  let (significand, dropped) := absorb whole fraction
  let exponent : Int := match numeral.exponent with
    | none => 0
    | some (negative, digits) =>
      if negative then - (digitsValue digits : Int) else digitsValue digits
  (significand, exponent + zeros + dropped - fraction.length)

def topPower : Nat := 308

/-- Whether a double can hold the number. The significand and the power of ten are rounded each by
itself, and so is their product; a negative power makes any number small enough. -/
def fitsDouble (numeral : Numeral) : Bool :=
  match numeral.scaled with
  | (0, _) => true
  | (_, .negSucc _) => true
  | (significand, .ofNat power) =>
    power ≤ topPower &&
      Binary.isFinite (Binary.times (Binary.ofNat significand) (Binary.ofNat (tenPow power)))

end Numeral

def ofWord? (word : List Char) : Option Json :=
  match word with
  | ['n', 'u', 'l', 'l'] => some .null
  | ['t', 'r', 'u', 'e'] => some (.bool true)
  | ['f', 'a', 'l', 's', 'e'] => some (.bool false)
  | _ => do
    let numeral ← Numeral.ofChars? word
    match numeral.integer? with
    | some value => return .int value
    | none => return if numeral.fitsDouble then .real (String.ofList word) else .broken

end Json

end Interop
