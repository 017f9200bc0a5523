/-! # Reading UTF-8 that may be broken

Bytes are read one by one. Where they stop being the beginning of a character, what was read of it
becomes one replacement character, and reading goes on from there.
-/

namespace Interop.Utf8

/-- The character that stands for unreadable bytes. -/
def replacement : Char := '\ufffd'

/-- A character that has begun: the value read so far, how many bytes are missing, and the bounds of
the next one. -/
structure Pending where
  value : Nat
  missing : Nat
  low : UInt8
  high : UInt8

def begin (byte : UInt8) : List Char × Option Pending :=
  if byte < 0x80 then ([Char.ofNat byte.toNat], none)
  else if 0xC2 ≤ byte && byte ≤ 0xDF then ([], some ⟨byte.toNat - 0xC0, 0, 0x80, 0xBF⟩)
  else if byte == 0xE0 then ([], some ⟨0, 1, 0xA0, 0xBF⟩)
  else if byte == 0xED then ([], some ⟨0xD, 1, 0x80, 0x9F⟩)
  else if 0xE1 ≤ byte && byte ≤ 0xEF then ([], some ⟨byte.toNat - 0xE0, 1, 0x80, 0xBF⟩)
  else if byte == 0xF0 then ([], some ⟨0, 2, 0x90, 0xBF⟩)
  else if 0xF1 ≤ byte && byte ≤ 0xF3 then ([], some ⟨byte.toNat - 0xF0, 2, 0x80, 0xBF⟩)
  else if byte == 0xF4 then ([], some ⟨4, 2, 0x80, 0x8F⟩)
  else ([replacement], none)

def step (pending : Option Pending) (byte : UInt8) : List Char × Option Pending :=
  match pending with
  | none => begin byte
  | some ⟨value, missing, low, high⟩ =>
    if low ≤ byte && byte ≤ high then
      let value := value * 64 + (byte.toNat - 0x80)
      match missing with
      | 0 => ([Char.ofNat value], none)
      | missing + 1 => ([], some ⟨value, missing, 0x80, 0xBF⟩)
    else
      let (chars, pending) := begin byte
      (replacement :: chars, pending)

/-- The characters of bytes read from a state on. -/
def chars (pending : Option Pending) : List UInt8 → List Char
  | [] => if pending.isSome then [replacement] else []
  | byte :: rest =>
    let (read, pending) := step pending byte
    read ++ chars pending rest

def decode (bytes : List UInt8) : String := String.ofList (chars none bytes)

def encode (text : String) : List UInt8 := text.toUTF8.toList

end Interop.Utf8
