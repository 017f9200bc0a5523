import Std.Data.TreeMap

/-! # Blocks of native memory

A block has a fixed number of bytes, all zero at first. Only bytes that were written are kept, so a
large block costs nothing until it is used, wherever in it a write goes. What a byte is worth at an
index does not depend on whether it is kept; the lemmas say what each operation does to that view.
-/

namespace Interop

/-- Bytes by their index. Those that are not there are zero. -/
abbrev Bytes := Std.TreeMap Nat UInt8

namespace Bytes

def get (bytes : Bytes) (index : Nat) : UInt8 := bytes.getD index 0

def overwrite (bytes : Bytes) (start : Nat) : List UInt8 → Bytes
  | [] => bytes
  | byte :: rest => overwrite (bytes.insert start byte) (start + 1) rest

/-- So many bytes from an index on. -/
def slice (bytes : Bytes) (start count : Nat) : List UInt8 :=
  (List.range' start count).map bytes.get

/-- Where the first zero is among so many bytes from an index on. -/
def firstZero? (bytes : Bytes) (start : Nat) : Nat → Option Nat
  | 0 => none
  | count + 1 => if bytes.get start = 0 then some start else firstZero? bytes (start + 1) count

@[simp] theorem get_empty (index : Nat) : Bytes.get ∅ index = 0 := by
  simp [Bytes.get]

theorem get_insert (bytes : Bytes) (index other : Nat) (byte : UInt8) :
    Bytes.get (bytes.insert index byte) other =
      if other = index then byte else bytes.get other := by
  rw [Bytes.get, Std.TreeMap.getD_insert]
  simp only [Nat.compare_eq_eq, Bytes.get]
  grind

/-- A write changes the bytes of its range, and no others. -/
theorem get_overwrite (bytes : Bytes) (start other : Nat) (new : List UInt8) :
    (bytes.overwrite start new).get other =
      if start ≤ other ∧ other < start + new.length then new.getD (other - start) 0
      else bytes.get other := by
  induction new generalizing bytes start with
  | nil => rw [overwrite, if_neg (by simp only [List.length_nil]; omega)]
  | cons byte rest ih =>
    rw [overwrite, ih, get_insert, List.length_cons]
    by_cases hfirst : other = start
    · subst hfirst
      rw [if_neg (by omega), if_pos rfl, if_pos (by omega), Nat.sub_self, List.getD_cons_zero]
    · by_cases hrest : start + 1 ≤ other ∧ other < start + 1 + rest.length
      · have hindex : other - start = (other - (start + 1)) + 1 := by omega
        rw [if_pos hrest, if_pos (by omega), hindex, List.getD_cons_succ]
      · rw [if_neg hrest, if_neg hfirst, if_neg (by omega)]

@[simp] theorem length_slice (bytes : Bytes) (start count : Nat) :
    (bytes.slice start count).length = count := by
  simp [slice]

theorem getElem?_slice (bytes : Bytes) (start : Nat) {count index : Nat} (h : index < count) :
    (bytes.slice start count)[index]? = some (bytes.get (start + index)) := by
  simp [slice, h]

/-- What is found is a zero of the range, and nothing before it in the range is one. -/
theorem of_firstZero? {bytes : Bytes} {start count stop : Nat}
    (h : bytes.firstZero? start count = some stop) :
    start ≤ stop ∧ stop < start + count ∧ bytes.get stop = 0 ∧
      ∀ index, start ≤ index → index < stop → bytes.get index ≠ 0 := by
  induction count generalizing start with
  | zero => simp [firstZero?] at h
  | succ count ih =>
    rw [firstZero?] at h
    by_cases hzero : bytes.get start = 0
    · rw [if_pos hzero, Option.some.injEq] at h
      subst h
      exact ⟨Nat.le_refl _, by omega, hzero, fun index _ _ => by omega⟩
    · rw [if_neg hzero] at h
      obtain ⟨hstart, hstop, hget, hbefore⟩ := ih h
      refine ⟨by omega, by omega, hget, fun index hindex hlt => ?_⟩
      by_cases hfirst : index = start
      · exact hfirst ▸ hzero
      · exact hbefore index (by omega) hlt

end Bytes

structure Block where
  base : Nat
  size : Nat
  bytes : Bytes := ∅
  typeName : Option String
  /-- How many references there are, up to multiples of `2^32`. -/
  refs : UInt32
  deriving Inhabited

namespace Block

/-- The block with new bytes in place of those from an index on. -/
def write (block : Block) (start : Nat) (new : List UInt8) : Block :=
  { block with bytes := block.bytes.overwrite start new }

end Block

end Interop
