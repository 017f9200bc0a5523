import Interop.Memory.Access

/-! # Bytes that are written and read again

What was written to a range is read from it, what lies beside the range stays as it was, and a
number is got back from its bytes as far as they hold it.
-/

namespace Interop

namespace Bytes

variable {bytes : Bytes} {start other count : Nat} {new : List UInt8}

theorem slice_congr {left right : Bytes}
    (h : ∀ index, start ≤ index → index < start + count → left.get index = right.get index) :
    left.slice start count = right.slice start count := by
  refine List.map_congr_left fun index hindex => ?_
  obtain ⟨hle, hlt⟩ := List.mem_range'_1.1 hindex
  exact h index hle hlt

theorem slice_overwrite_of_disjoint
    (h : start + new.length ≤ other ∨ other + count ≤ start) :
    (bytes.overwrite start new).slice other count = bytes.slice other count := by
  refine slice_congr fun index hle hlt => ?_
  rw [get_overwrite, if_neg (by omega)]

theorem slice_overwrite_self : (bytes.overwrite start new).slice start new.length = new := by
  refine List.ext_getElem? fun index => ?_
  by_cases hindex : index < new.length
  · rw [getElem?_slice _ _ hindex, get_overwrite, if_pos (by omega), Nat.add_sub_cancel_left,
      List.getD_eq_getElem?_getD, List.getElem?_eq_getElem hindex, Option.getD_some]
  · rw [List.getElem?_eq_none (by rw [length_slice]; omega), List.getElem?_eq_none (by omega)]

/-- The first zero depends on the bytes up to it and on no others. -/
theorem firstZero?_congr {left right : Bytes}
    (h : ∀ index, start ≤ index → index < start + count →
      (∀ before, start ≤ before → before < index → left.get before ≠ 0) →
        right.get index = left.get index) :
    right.firstZero? start count = left.firstZero? start count := by
  induction count generalizing start with
  | zero => rfl
  | succ count ih =>
      have hfirst := h start (Nat.le_refl _) (by omega) fun before _ _ => by omega
      rw [firstZero?, firstZero?, hfirst]
      split
      next => rfl
      next hzero =>
        refine ih fun index hle hlt hbefore => h index (by omega) (by omega) ?_
        intro before hstart hbound
        by_cases hsame : before = start
        · exact hsame ▸ hzero
        · exact hbefore before (by omega) hbound

theorem firstZero?_eq_some {stop : Nat} (hstart : start ≤ stop) (hstop : stop < start + count)
    (hzero : bytes.get stop = 0)
    (hbefore : ∀ index, start ≤ index → index < stop → bytes.get index ≠ 0) :
    bytes.firstZero? start count = some stop := by
  induction count generalizing start with
  | zero => omega
  | succ count ih =>
      rw [firstZero?]
      by_cases hsame : start = stop
      · rw [if_pos (hsame ▸ hzero), hsame]
      · rw [if_neg (hbefore start (Nat.le_refl _) (by omega))]
        exact ih (by omega) (by omega) fun index hle hlt => hbefore index (by omega) hlt

end Bytes

/-! ## Numbers -/

@[simp] theorem length_bytesOf (count n : Nat) : (bytesOf count n).length = count := by
  induction count generalizing n with
  | zero => rfl
  | succ count ih => rw [bytesOf, List.length_cons, ih]

theorem twoPow_eight_mul_succ (count : Nat) :
    twoPow (8 * (count + 1)) = 256 * twoPow (8 * count) := by
  have hsplit : twoPow (8 * count + 8) = twoPow (8 * count) * twoPow 8 := Nat.pow_add 2 _ _
  rw [Nat.mul_succ, hsplit, Nat.mul_comm]
  rfl

/-- The lowest bytes of a number hold its remainder. -/
theorem littleEndian_bytesOf (count n : Nat) :
    littleEndian (bytesOf count n) = n % twoPow (8 * count) := by
  induction count generalizing n with
  | zero => exact (Nat.mod_one n).symm
  | succ count ih =>
      have hcons : littleEndian (bytesOf (count + 1) n) =
          littleEndian (bytesOf count (n / 256)) * 256 + n % 256 := by
        rw [bytesOf, littleEndian, List.foldr_cons, ← littleEndian, UInt8.toNat_ofNat']
      rw [hcons, ih, twoPow_eight_mul_succ, Nat.mod_mul, Nat.add_comm, Nat.mul_comm]

theorem littleEndian_bytesOf_of_lt {count n : Nat} (h : n < twoPow (8 * count)) :
    littleEndian (bytesOf count n) = n := by
  rw [littleEndian_bytesOf, Nat.mod_eq_of_lt h]

theorem littleEndian_cons (byte : UInt8) (bytes : List UInt8) :
    littleEndian (byte :: bytes) = littleEndian bytes * 256 + byte.toNat := rfl

theorem littleEndian_lt (bytes : List UInt8) :
    littleEndian bytes < twoPow (8 * bytes.length) := by
  induction bytes with
  | nil => exact twoPow_pos 0
  | cons byte bytes ih =>
      have hbyte := byte.toNat_lt
      rw [littleEndian_cons, List.length_cons, twoPow_eight_mul_succ]
      omega

/-- Bytes are got back from the number that they hold. -/
theorem bytesOf_littleEndian (bytes : List UInt8) :
    bytesOf bytes.length (littleEndian bytes) = bytes := by
  induction bytes with
  | nil => rfl
  | cons byte bytes ih =>
      have hbyte := byte.toNat_lt
      have hrest : (littleEndian bytes * 256 + byte.toNat) / 256 = littleEndian bytes := by omega
      have hlast : UInt8.ofNat (littleEndian bytes * 256 + byte.toNat) = byte := by
        rw [← UInt8.toNat_inj, UInt8.toNat_ofNat']
        omega
      rw [littleEndian_cons, List.length_cons, bytesOf, hrest, ih, hlast]

/-- Numbers with the same remainder have the same lowest bytes. -/
theorem bytesOf_congr {count m n : Nat} (h : m % twoPow (8 * count) = n % twoPow (8 * count)) :
    bytesOf count m = bytesOf count n := by
  have hback : ∀ k, bytesOf count (littleEndian (bytesOf count k)) = bytesOf count k := by
    intro k
    have hbytes := bytesOf_littleEndian (bytesOf count k)
    rwa [length_bytesOf] at hbytes
  rw [← hback m, ← hback n, littleEndian_bytesOf, littleEndian_bytesOf, h]

/-- A pointer is got back from its bytes. -/
theorem ofNat_littleEndian_bytesOf (handle : Handle) :
    Handle.ofNat (littleEndian (bytesOf Heap.pointerSize handle.toNat)) = handle := by
  have hlt : handle.toNat < twoPow (8 * Heap.pointerSize) := handle.addr.toNat_lt
  rw [littleEndian_bytesOf_of_lt hlt]
  exact congrArg Handle.mk UInt64.ofNat_toNat

end Interop
