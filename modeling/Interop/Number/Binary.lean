import Interop.Number.Power

/-! # Binary floating point by its bits

Numbers of the two IEEE formats, taken apart exactly and rounded to the nearest number with ties
to the even one. Floats are kept as their bits, so that a NaN keeps its payload.
-/

namespace Interop.Binary

structure Format where
  mantissaBits : Nat
  exponentBits : Nat

def double : Format := ⟨52, 11⟩

def single : Format := ⟨23, 8⟩

namespace Format

/-- The exponent field of infinities and NaNs. -/
def top (format : Format) : Nat := twoPow format.exponentBits - 1

/-- The weight of the last mantissa bit of the smallest numbers, as a power of two. -/
def least (format : Format) : Int :=
  2 - twoPow (format.exponentBits - 1) - format.mantissaBits

def pack (format : Format) (negative : Bool) (exponent mantissa : Nat) : Nat :=
  (negative.toNat * twoPow format.exponentBits + exponent) * twoPow format.mantissaBits + mantissa

end Format

/-- What a bit pattern stands for. -/
inductive Number where
  /-- The magnitude times a power of two. -/
  | finite (negative : Bool) (magnitude : Nat) (power : Int)
  | infinite (negative : Bool)
  /-- Not a number, with the bits of the mantissa. -/
  | nan (negative : Bool) (payload : Nat)
  deriving DecidableEq, Repr, Inhabited

def unpack (format : Format) (bits : Nat) : Number :=
  let mantissa := bits % twoPow format.mantissaBits
  let exponent := bits / twoPow format.mantissaBits % twoPow format.exponentBits
  let negative := bits / twoPow (format.mantissaBits + format.exponentBits) % 2 == 1
  if exponent = format.top then
    if mantissa = 0 then .infinite negative else .nan negative mantissa
  else if exponent = 0 then .finite negative mantissa format.least
  else .finite negative (twoPow format.mantissaBits + mantissa) (format.least + (exponent - 1))

/-- The nearest integer to a quotient of powers, ties going to the even one. -/
def shiftRound (magnitude : Nat) (shift : Int) : Nat :=
  match shift with
  | .negSucc n => magnitude * twoPow (n + 1)
  | .ofNat 0 => magnitude
  | .ofNat (n + 1) =>
    let quotient := magnitude / twoPow (n + 1)
    let rest := magnitude % twoPow (n + 1)
    if rest > twoPow n || (rest == twoPow n && quotient % 2 == 1) then quotient + 1 else quotient

/-- The bits of the number of a format that is nearest to a magnitude times a power of two. -/
def round (format : Format) (negative : Bool) (magnitude : Nat) (power : Int) : Nat :=
  if magnitude = 0 then format.pack negative 0 0
  else
    let wanted := power + magnitude.log2 - format.mantissaBits
    let target := max wanted format.least
    let mantissa := shiftRound magnitude (target - power)
    let steps := (target - format.least).toNat
    let field :=
      if mantissa < twoPow format.mantissaBits then mantissa
      else (steps + 1) * twoPow format.mantissaBits + (mantissa - twoPow format.mantissaBits)
    if format.top * twoPow format.mantissaBits ≤ field then format.pack negative format.top 0
    else format.pack negative 0 field

/-- The bits of a number in another format. A NaN keeps its sign and the leading bits of its payload
and becomes a quiet one. -/
def convert (source target : Format) (bits : Nat) : Nat :=
  match unpack source bits with
  | .finite negative magnitude power => round target negative magnitude power
  | .infinite negative => target.pack negative target.top 0
  | .nan negative payload =>
    let payload :=
      if source.mantissaBits ≤ target.mantissaBits then
        payload * twoPow (target.mantissaBits - source.mantissaBits)
      else payload / twoPow (source.mantissaBits - target.mantissaBits)
    let quiet := twoPow (target.mantissaBits - 1)
    target.pack negative target.top (quiet + payload % quiet)

def ofInt (value : Int) : UInt64 :=
  UInt64.ofNat (round double (decide (value < 0)) value.natAbs 0)

def ofNat (value : Nat) : UInt64 := ofInt value

/-- Whether a double is a number, and not an infinite one. -/
def isFinite (bits : UInt64) : Bool :=
  match unpack double bits.toNat with
  | .finite .. => true
  | _ => false

/-- The product of two finite doubles, rounded. Others have none and stay as they are. -/
def times (a b : UInt64) : UInt64 :=
  match unpack double a.toNat, unpack double b.toNat with
  | .finite negative magnitude power, .finite negative' magnitude' power' =>
    UInt64.ofNat (round double (negative != negative') (magnitude * magnitude') (power + power'))
  | .finite .., _ => b
  | _, _ => a

def toSingle (bits : UInt64) : UInt32 := UInt32.ofNat (convert double single bits.toNat)

def ofSingle (bits : UInt32) : UInt64 := UInt64.ofNat (convert single double bits.toNat)

def isNaN (bits : UInt64) : Bool :=
  match unpack double bits.toNat with
  | .nan .. => true
  | _ => false

def isZero (bits : UInt64) : Bool := bits <<< 1 == 0

/-- Equality of doubles: zeros are equal, and a NaN equals nothing. -/
def equal (a b : UInt64) : Bool := !isNaN a && !isNaN b && (a == b || (isZero a && isZero b))

end Interop.Binary
