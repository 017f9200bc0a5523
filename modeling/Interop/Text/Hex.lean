/-! # Hexadecimal text

Lower-case hexadecimal digits of natural numbers, in the shortest form, padded to a width, or
behind the mark `0x`. Addresses, hashes and the bit patterns of floats are shown this way.
-/

namespace Interop.Hex

/-- The digit of a number below sixteen; larger numbers have no digit and show as `f`. -/
def digit (n : Nat) : Char :=
  match n with
  | 0 => '0' | 1 => '1' | 2 => '2' | 3 => '3' | 4 => '4' | 5 => '5' | 6 => '6' | 7 => '7'
  | 8 => '8' | 9 => '9' | 10 => 'a' | 11 => 'b' | 12 => 'c' | 13 => 'd' | 14 => 'e' | _ => 'f'

/-- The value of a digit in either case. -/
def value? (c : Char) : Option Nat :=
  if '0' ≤ c ∧ c ≤ '9' then some (c.toNat - '0'.toNat)
  else if 'a' ≤ c ∧ c ≤ 'f' then some (c.toNat - 'a'.toNat + 10)
  else if 'A' ≤ c ∧ c ≤ 'F' then some (c.toNat - 'A'.toNat + 10)
  else none

theorem value?_digit : ∀ n < 16, value? (digit n) = some n := by decide

/-- The last `width` digits of a number. -/
def fixed : Nat → Nat → List Char
  | 0, _ => []
  | width + 1, n => fixed width (n / 16) ++ [digit (n % 16)]

/-- The shortest digits of a number, `0` for zero. -/
def shortest (n : Nat) : String := String.ofList (Nat.toDigits 16 n)

/-- A number behind its mark, as in `0x1010`. -/
def marked (n : Nat) : String := "0x" ++ shortest n

/-- Exactly sixteen digits. -/
def word (n : UInt64) : String := String.ofList (fixed 16 n.toNat)

/-- Reads a text of hexadecimal digits. -/
def read? (text : String) : Option Nat :=
  text.toList.foldlM (fun n c => (value? c).map (n * 16 + ·)) 0

end Interop.Hex
