import Interop.Text.Hex

/-! # Hashes of type names

Registered classes are keyed by a 64-bit hash of their runtime type name: the XXH64 digest of its
UTF-8 bytes, with a mask that keeps type names apart from other hashed names.
-/

namespace Interop

namespace Digest

/-- The five odd constants of XXH64. -/
def prime1 : UInt64 := 0x9E3779B185EBCA87
@[inherit_doc prime1] def prime2 : UInt64 := 0xC2B2AE3D27D4EB4F
@[inherit_doc prime1] def prime3 : UInt64 := 0x165667B19E3779F9
@[inherit_doc prime1] def prime4 : UInt64 := 0x85EBCA77C2B2AE63
@[inherit_doc prime1] def prime5 : UInt64 := 0x27D4EB2F165667C5

/-- Rotation to the left by fewer than 64 bits. -/
def rotate (x : UInt64) (bits : UInt64) : UInt64 := (x <<< bits) ||| (x >>> (64 - bits))

/-- The number whose little-endian bytes are given. -/
def littleEndian (bytes : List UInt8) : UInt64 :=
  bytes.foldr (fun b n => (n <<< 8) ||| b.toUInt64) 0

/-- One lane absorbs eight bytes. -/
def absorb (lane input : UInt64) : UInt64 := rotate (lane + input * prime2) 31 * prime1

structure Lanes where
  a : UInt64
  b : UInt64
  c : UInt64
  d : UInt64

/-- The lanes before any input, for seed zero. -/
def Lanes.start : Lanes := ⟨prime1 + prime2, prime2, 0, 0 - prime1⟩

/-- The lanes absorb one stripe of 32 bytes. -/
def Lanes.stripe (lanes : Lanes) (bytes : List UInt8) : Lanes where
  a := absorb lanes.a (littleEndian (bytes.take 8))
  b := absorb lanes.b (littleEndian ((bytes.drop 8).take 8))
  c := absorb lanes.c (littleEndian ((bytes.drop 16).take 8))
  d := absorb lanes.d (littleEndian ((bytes.drop 24).take 8))

/-- The lanes joined into one word. -/
def Lanes.merge (lanes : Lanes) : UInt64 :=
  let joined := rotate lanes.a 1 + rotate lanes.b 7 + rotate lanes.c 12 + rotate lanes.d 18
  [lanes.a, lanes.b, lanes.c, lanes.d].foldl
    (fun h lane => (h ^^^ absorb 0 lane) * prime1 + prime4) joined

/-- Absorbs whole stripes and returns what is left, fewer than 32 bytes. -/
def bulk (lanes : Lanes) (bytes : List UInt8) : Lanes × List UInt8 :=
  match _hrest : bytes.drop 31 with
  | [] => (lanes, bytes)
  | _ :: rest => bulk (lanes.stripe (bytes.take 32)) rest
termination_by bytes.length
decreasing_by
  have hlength := congrArg List.length _hrest
  rw [List.length_drop, List.length_cons] at hlength
  omega

/-- Absorbs the end of the input: words of eight bytes, then one of four, then single bytes. -/
def tail (h : UInt64) (bytes : List UInt8) : UInt64 :=
  match bytes with
  | [] => h
  | byte :: rest =>
    if 8 ≤ (byte :: rest).length then
      tail (rotate (h ^^^ absorb 0 (littleEndian ((byte :: rest).take 8))) 27 * prime1 + prime4)
        (rest.drop 7)
    else if 4 ≤ (byte :: rest).length then
      tail (rotate (h ^^^ (littleEndian ((byte :: rest).take 4) * prime1)) 23 * prime2 + prime3)
        (rest.drop 3)
    else
      tail (rotate (h ^^^ (byte.toUInt64 * prime5)) 11 * prime1) rest
termination_by bytes.length

/-- The closing mix, which lets every input bit reach every output bit. -/
def avalanche (h : UInt64) : UInt64 :=
  let h := (h ^^^ (h >>> 33)) * prime2
  let h := (h ^^^ (h >>> 29)) * prime3
  h ^^^ (h >>> 32)

/-- XXH64 with seed zero. -/
def xxh64 (bytes : List UInt8) : UInt64 :=
  let length := UInt64.ofNat bytes.length
  let start := if 32 ≤ bytes.length then
      let (lanes, rest) := bulk Lanes.start bytes
      (lanes.merge, rest)
    else (prime5, bytes)
  avalanche (tail (start.1 + length) start.2)

end Digest

structure TypeHash where
  bits : UInt64
  deriving DecidableEq, Repr, Inhabited

namespace TypeHash

/-- The mask of the domain of type names. -/
def domain : UInt64 := 0x2fac10b63a6cc57c

def ofName (name : String) : TypeHash := ⟨domain ^^^ Digest.xxh64 name.toUTF8.toList⟩

/-- The all-zero hash stands for no type. -/
def isEmpty (hash : TypeHash) : Bool := hash.bits == 0

/-- Sixteen digits behind their mark. -/
def text (hash : TypeHash) : String := "0x" ++ Hex.word hash.bits

def debugText (hash : TypeHash) : String := "TypeHash(" ++ hash.text ++ ")"

end TypeHash

end Interop
