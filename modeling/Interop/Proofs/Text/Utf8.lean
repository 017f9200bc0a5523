import Interop.Text.Utf8

/-! # Reading the bytes of a text

The bytes of a text are read as that text, and none of them is zero unless one of its characters is.
-/

namespace Interop.Utf8

/-- The bytes that a loop has collected and those that are still there. -/
theorem toList_loop (bytes : ByteArray) (index : Nat) (seen : List UInt8) :
    ByteArray.toList.loop bytes index seen = seen.reverse ++ bytes.data.toList.drop index := by
  fun_induction ByteArray.toList.loop bytes index seen with
  | case1 index seen hlt ih =>
      have hindex : index < bytes.data.toList.length := hlt
      have hbyte : bytes.get! index = bytes.data.toList[index] := by
        rw [Array.getElem_toList]
        exact getElem!_pos bytes.data index hlt
      rw [ih, List.drop_eq_getElem_cons hindex, List.reverse_cons, hbyte, List.append_assoc,
        List.singleton_append]
  | case2 index seen hend =>
      have hnone : bytes.data.toList.drop index = [] := List.drop_eq_nil_of_le (Nat.not_lt.1 hend)
      rw [hnone, List.append_nil]

/-- The bytes of a text are those of its characters. -/
theorem encode_eq_flatMap (text : String) :
    encode text = text.toList.flatMap String.utf8EncodeChar := by
  rw [encode, String.toUTF8_eq_toByteArray, ByteArray.toList, toList_loop, List.drop_zero,
    ← String.utf8Encode_toList, List.utf8Encode, List.toList_data_toByteArray]
  rfl

/-! ## One byte at a time -/

section Bytes

variable {byte : UInt8} {value missing : Nat} {low high : UInt8} {rest : List UInt8}

theorem begin_of_lt (h : byte.toNat < 0x80) : begin byte = ([Char.ofNat byte.toNat], none) := by
  rw [begin, if_pos (UInt8.lt_iff_toNat_lt.2 h)]

theorem begin_of_two (hlow : 0xC2 ≤ byte.toNat) (hhigh : byte.toNat ≤ 0xDF) :
    begin byte = ([], some ⟨byte.toNat - 0xC0, 0, 0x80, 0xBF⟩) := by
  simp only [begin, UInt8.lt_iff_toNat_lt, UInt8.le_iff_toNat_le, UInt8.reduceToNat,
    Bool.and_eq_true, decide_eq_true_eq]
  rw [if_neg (by omega), if_pos ⟨hlow, hhigh⟩]

theorem begin_of_three (hlow : 0xE0 ≤ byte.toNat) (hhigh : byte.toNat ≤ 0xEF) :
    begin byte = ([], some ⟨byte.toNat - 0xE0, 1, if byte.toNat = 0xE0 then 0xA0 else 0x80,
      if byte.toNat = 0xED then 0x9F else 0xBF⟩) := by
  simp only [begin, UInt8.lt_iff_toNat_lt, UInt8.le_iff_toNat_le, UInt8.reduceToNat,
    Bool.and_eq_true, decide_eq_true_eq, beq_iff_eq, ← UInt8.toNat_inj]
  rw [if_neg (by omega), if_neg (by omega)]
  split
  next hfirst => simp [hfirst]
  next =>
    split
    next hlast => simp [hlast]
    next => rw [if_pos ⟨by omega, hhigh⟩]

theorem begin_of_four (hlow : 0xF0 ≤ byte.toNat) (hhigh : byte.toNat ≤ 0xF4) :
    begin byte = ([], some ⟨byte.toNat - 0xF0, 2, if byte.toNat = 0xF0 then 0x90 else 0x80,
      if byte.toNat = 0xF4 then 0x8F else 0xBF⟩) := by
  simp only [begin, UInt8.lt_iff_toNat_lt, UInt8.le_iff_toNat_le, UInt8.reduceToNat,
    Bool.and_eq_true, decide_eq_true_eq, beq_iff_eq, ← UInt8.toNat_inj]
  rw [if_neg (by omega), if_neg (by omega), if_neg (by omega), if_neg (by omega),
    if_neg (by omega)]
  split
  next hfirst => simp [hfirst]
  next =>
    split
    next hmiddle => rw [if_neg (by omega)]
    next =>
      have hlast : byte.toNat = 0xF4 := by omega
      simp [hlast]

theorem chars_of_begin {read : List Char} {pending : Option Pending}
    (h : begin byte = (read, pending)) :
    chars none (byte :: rest) = read ++ chars pending rest := by
  rw [chars, step, h]

theorem chars_more (hlow : low.toNat ≤ byte.toNat) (hhigh : byte.toNat ≤ high.toNat) :
    chars (some ⟨value, missing + 1, low, high⟩) (byte :: rest) =
      chars (some ⟨value * 64 + (byte.toNat - 0x80), missing, 0x80, 0xBF⟩) rest := by
  have hinside : (decide (low ≤ byte) && decide (byte ≤ high)) = true := by
    simp only [UInt8.le_iff_toNat_le, hlow, hhigh, decide_true, Bool.and_self]
  rw [chars, step, if_pos hinside]
  rfl

theorem chars_last (hlow : low.toNat ≤ byte.toNat) (hhigh : byte.toNat ≤ high.toNat) :
    chars (some ⟨value, 0, low, high⟩) (byte :: rest) =
      Char.ofNat (value * 64 + (byte.toNat - 0x80)) :: chars none rest := by
  have hinside : (decide (low ≤ byte) && decide (byte ≤ high)) = true := by
    simp only [UInt8.le_iff_toNat_le, hlow, hhigh, decide_true, Bool.and_self]
  rw [chars, step, if_pos hinside]
  rfl

end Bytes

theorem toNat_byte {n : Nat} (h : n < 256) : (UInt8.ofNat n).toNat = n :=
  UInt8.toNat_ofNat_of_lt' h

/-- The bytes of a character are read as that character. -/
theorem chars_utf8EncodeChar (char : Char) (rest : List UInt8) :
    chars none (String.utf8EncodeChar char ++ rest) = char :: chars none rest := by
  have hvalid : char.val.toNat < 0xD800 ∨ 0xDFFF < char.val.toNat ∧ char.val.toNat < 0x110000 :=
    char.valid
  have hchar : Char.ofNat char.val.toNat = char := Char.ofNat_toNat char
  rw [String.utf8EncodeChar]
  generalize char.val.toNat = v at hvalid hchar
  -- the cases are the numbers of bytes; surrogates are what the bounds of second bytes leave out
  split
  next hone =>
    have h0 := @toNat_byte v (by omega)
    rw [List.singleton_append, chars_of_begin (begin_of_lt (by omega)), h0, hchar]
    rfl
  next =>
    split
    next htwo =>
      have h0 := @toNat_byte (v / 64 % 0x20 + 0xc0) (by omega)
      have h1 := @toNat_byte (v % 0x40 + 0x80) (by omega)
      have hvalue : (v / 64 % 0x20 + 0xc0 - 0xC0) * 64 + (v % 0x40 + 0x80 - 0x80) = v := by omega
      rw [List.cons_append, List.singleton_append,
        chars_of_begin (begin_of_two (by omega) (by omega)), List.nil_append,
        chars_last (by simp only [h1, UInt8.reduceToNat]; omega)
          (by simp only [h1, UInt8.reduceToNat]; omega), h0, h1, hvalue, hchar]
    next =>
      split
      next hthree =>
        have h0 := @toNat_byte (v / 4096 % 0x10 + 0xe0) (by omega)
        have h1 := @toNat_byte (v / 64 % 0x40 + 0x80) (by omega)
        have h2 := @toNat_byte (v % 0x40 + 0x80) (by omega)
        have hvalue : ((v / 4096 % 0x10 + 0xe0 - 0xE0) * 64 + (v / 64 % 0x40 + 0x80 - 0x80)) * 64 +
            (v % 0x40 + 0x80 - 0x80) = v := by omega
        rw [List.cons_append, List.cons_append, List.singleton_append,
          chars_of_begin (begin_of_three (by omega) (by omega)), List.nil_append,
          chars_more (by split <;> simp only [h1, UInt8.reduceToNat] <;> omega)
            (by split <;> simp only [h1, UInt8.reduceToNat] <;> omega),
          chars_last (by simp only [h2, UInt8.reduceToNat]; omega)
            (by simp only [h2, UInt8.reduceToNat]; omega), h0, h1, h2, hvalue, hchar]
      next =>
        have h0 := @toNat_byte (v / 262144 % 0x08 + 0xf0) (by omega)
        have h1 := @toNat_byte (v / 4096 % 0x40 + 0x80) (by omega)
        have h2 := @toNat_byte (v / 64 % 0x40 + 0x80) (by omega)
        have h3 := @toNat_byte (v % 0x40 + 0x80) (by omega)
        have hvalue : (((v / 262144 % 0x08 + 0xf0 - 0xF0) * 64 + (v / 4096 % 0x40 + 0x80 - 0x80)) *
            64 + (v / 64 % 0x40 + 0x80 - 0x80)) * 64 + (v % 0x40 + 0x80 - 0x80) = v := by omega
        rw [List.cons_append, List.cons_append, List.cons_append, List.singleton_append,
          chars_of_begin (begin_of_four (by omega) (by omega)), List.nil_append,
          chars_more (by split <;> simp only [h1, UInt8.reduceToNat] <;> omega)
            (by split <;> simp only [h1, UInt8.reduceToNat] <;> omega),
          chars_more (by simp only [h2, UInt8.reduceToNat]; omega)
            (by simp only [h2, UInt8.reduceToNat]; omega),
          chars_last (by simp only [h3, UInt8.reduceToNat]; omega)
            (by simp only [h3, UInt8.reduceToNat]; omega), h0, h1, h2, h3, hvalue, hchar]

theorem decode_encode (text : String) : decode (encode text) = text := by
  have hchars : ∀ list : List Char, chars none (list.flatMap String.utf8EncodeChar) = list := by
    intro list
    induction list with
    | nil => rfl
    | cons char rest ih => rw [List.flatMap_cons, chars_utf8EncodeChar, ih]
  rw [decode, encode_eq_flatMap, hchars, String.ofList_toList]

theorem ne_zero_of_mem_utf8EncodeChar {char : Char} (h : char ≠ '\x00') :
    ∀ byte ∈ String.utf8EncodeChar char, byte ≠ 0 := by
  have hpos : 0 < char.val.toNat := by
    refine Nat.pos_of_ne_zero fun hzero => h ?_
    exact Char.ext (UInt32.toNat_inj.1 hzero)
  have hne : ∀ n, 0 < n → n < 256 → UInt8.ofNat n ≠ 0 := by
    intro n hn hlt hzero
    have hsame : n = 0 := (toNat_byte hlt).symm.trans (congrArg UInt8.toNat hzero)
    omega
  rw [String.utf8EncodeChar]
  generalize char.val.toNat = v at hpos
  split
  next => exact List.forall_mem_singleton.2 (hne v hpos (by omega))
  next =>
    split
    next =>
      refine List.forall_mem_cons.2 ⟨hne _ (by omega) (by omega), ?_⟩
      exact List.forall_mem_singleton.2 (hne _ (by omega) (by omega))
    next =>
      split
      next =>
        refine List.forall_mem_cons.2 ⟨hne _ (by omega) (by omega), ?_⟩
        refine List.forall_mem_cons.2 ⟨hne _ (by omega) (by omega), ?_⟩
        exact List.forall_mem_singleton.2 (hne _ (by omega) (by omega))
      next =>
        refine List.forall_mem_cons.2 ⟨hne _ (by omega) (by omega), ?_⟩
        refine List.forall_mem_cons.2 ⟨hne _ (by omega) (by omega), ?_⟩
        refine List.forall_mem_cons.2 ⟨hne _ (by omega) (by omega), ?_⟩
        exact List.forall_mem_singleton.2 (hne _ (by omega) (by omega))

/-- A text without zeros in it has no zeros among its bytes. -/
theorem ne_zero_of_mem_encode {text : String} (h : '\x00' ∉ text.toList) :
    ∀ byte ∈ encode text, byte ≠ 0 := by
  intro byte hbyte
  rw [encode_eq_flatMap] at hbyte
  obtain ⟨char, hchar, hmem⟩ := List.mem_flatMap.1 hbyte
  exact ne_zero_of_mem_utf8EncodeChar (fun hzero => h (hzero ▸ hchar)) byte hmem

end Interop.Utf8
