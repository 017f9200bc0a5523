/-! # Powers

The sizes of number ranges: powers of two for bits and powers of ten for digits.
-/

namespace Interop

/-- How many numbers so many bits tell apart. -/
def twoPow (bits : Nat) : Nat := Nat.pow 2 bits

/-- How many numbers so many decimal digits tell apart. -/
def tenPow (digits : Nat) : Nat := Nat.pow 10 digits

theorem twoPow_pos (bits : Nat) : 0 < twoPow bits := Nat.pow_pos (by decide)

end Interop
