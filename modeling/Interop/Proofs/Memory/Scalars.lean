import Interop.Proofs.Memory.Bytes

/-! # Primitive values that are stored and read again

A number that fits its slot is read as it was stored, in the one form that values of its kind have:
a boolean stored as an integer is read as an integer, and an unsigned number stored with a sign is
read with one.
-/

namespace Interop

namespace PrimitiveKind

/-- The form in which a value is read that was stored as one of this kind. -/
def represent? (kind : PrimitiveKind) (value : Value) : Option Value :=
  match kind with
  | void => some .null
  | bool => value.asBool?.map .bool
  | int8 | int16 | int32 | int64 => value.asInt?.map .int
  | uint8 | uint16 | uint32 | uint64 | unichar | gtype => value.asUInt?.map .uint
  | float => value.asFloat?.map fun bits => .float (Binary.ofSingle (Binary.toSingle bits))
  | double => value.asFloat?.map .float
  | pointer => value.asHandle?.map fun handle => if handle.isNull then .null else .pointer handle

variable {kind : PrimitiveKind} {size n : Nat} {value : Value}

/-- What is encoded for an optional view is the encoding of the view. -/
theorem of_bind_view_eq_ok {α β : Type} {view : Option α} {error : DispatchError}
    {next : α → Except DispatchError β} {b : β}
    (h : ((match view with
      | some a => .ok a
      | none => .error error : Except DispatchError α) >>= next) = .ok b) :
    ∃ a, view = some a ∧ next a = .ok b := by
  cases view with
  | none => cases h
  | some a => exact ⟨a, rfl, h⟩

/-- What is encoded on a condition fulfils it. -/
theorem of_view_ite_eq_ok {α : Type} {p : Prop} [Decidable p] {a b : α} {error : DispatchError}
    (h : (match if p then some a else none with
      | some a => .ok a
      | none => .error error : Except DispatchError α) = .ok b) :
    p ∧ a = b := by
  by_cases hp : p
  · rw [if_pos hp] at h
    exact ⟨hp, Except.ok.inj h⟩
  · rw [if_neg hp] at h
    cases h

theorem of_encode_bool (h : encode bool size value = .ok n) :
    ∃ flag, value.asBool? = some flag ∧ n = flag.toNat := by
  obtain ⟨flag, hview, hencode⟩ := of_bind_view_eq_ok h
  exact ⟨flag, hview, (Except.ok.inj hencode).symm⟩

theorem of_encode_pointer (h : encode pointer size value = .ok n) :
    ∃ handle, value.asHandle? = some handle ∧ n = handle.toNat := by
  obtain ⟨handle, hview, hencode⟩ := of_bind_view_eq_ok h
  exact ⟨handle, hview, (Except.ok.inj hencode).symm⟩

theorem of_encode_float (h : encode float size value = .ok n) :
    ∃ bits, value.asFloat? = some bits ∧ n = (Binary.toSingle bits).toNat := by
  obtain ⟨bits, hview, hencode⟩ := of_bind_view_eq_ok h
  exact ⟨bits, hview, (Except.ok.inj hencode).symm⟩

theorem of_encode_double (h : encode double size value = .ok n) :
    ∃ bits, value.asFloat? = some bits ∧ n = bits.toNat := by
  obtain ⟨bits, hview, hencode⟩ := of_bind_view_eq_ok h
  exact ⟨bits, hview, (Except.ok.inj hencode).symm⟩

/-- An integer with a sign is refused unless it fits. -/
theorem of_encode_signed (hsigned : kind.isSigned = true) (h : kind.encode size value = .ok n) :
    ∃ number, value.asInt? = some number ∧ n = (number.toInt % twoPow 64).toNat ∧
      (64 ≤ 8 * size % twoPow 32 ∨ 0 < 8 * size % twoPow 32 ∧
        -twoPow (8 * size % twoPow 32 - 1) ≤ number.toInt ∧
          number.toInt < twoPow (8 * size % twoPow 32 - 1)) := by
  cases kind with
  | int8 | int16 | int32 | int64 =>
      obtain ⟨number, hview, hencode⟩ := of_bind_view_eq_ok h
      obtain ⟨hfits, hstored⟩ := of_view_ite_eq_ok hencode
      exact ⟨number, hview, hstored.symm, hfits⟩
  | _ => cases hsigned

/-- The kinds that are read without a sign. -/
def isUnsigned : PrimitiveKind → Bool
  | uint8 | uint16 | uint32 | uint64 | unichar | gtype => true
  | _ => false

/-- An integer without a sign is refused unless it fits. -/
theorem of_encode_unsigned (hunsigned : kind.isUnsigned = true)
    (h : kind.encode size value = .ok n) :
    ∃ number, value.asUInt? = some number ∧ n = number.toNat ∧
      (64 ≤ 8 * size % twoPow 32 ∨ n < twoPow (8 * size % twoPow 32)) := by
  cases kind with
  | uint8 | uint16 | uint32 | uint64 | unichar | gtype =>
      obtain ⟨number, hview, hencode⟩ := of_bind_view_eq_ok h
      obtain ⟨hfits, rfl⟩ := of_view_ite_eq_ok hencode
      exact ⟨number, hview, rfl, hfits⟩
  | _ => cases hunsigned

/-- A number with a sign is got back from its bytes if they can tell it apart. -/
theorem signedOf_emod {bits : Nat} {number : Int} (hhalf : twoPow bits = 2 * twoPow (bits - 1))
    (hwhole : twoPow bits ∣ twoPow 64)
    (hlow : -twoPow (bits - 1) ≤ number) (hhigh : number < twoPow (bits - 1)) :
    signedOf bits ((number % twoPow 64).toNat % twoPow bits) = number := by
  have hpos := twoPow_pos 64
  have hnonneg : 0 ≤ number % (twoPow 64 : Int) := Int.emod_nonneg _ (by omega)
  have hremainder : (((number % twoPow 64).toNat % twoPow bits : Nat) : Int) =
      number % twoPow bits := by
    rw [Int.natCast_emod, Int.toNat_of_nonneg hnonneg,
      Int.emod_emod_of_dvd _ (Int.natCast_dvd_natCast.2 hwhole)]
  rcases Int.lt_or_le number 0 with hneg | hpos
  · have hwrapped : number % (twoPow bits : Int) = number + twoPow bits := by
      rw [← Int.add_emod_right, Int.emod_eq_of_lt (by omega) (by omega)]
    rw [signedOf, if_neg (by omega), hremainder, hwrapped, Int.add_sub_cancel]
  · have hkept : number % (twoPow bits : Int) = number := Int.emod_eq_of_lt hpos (by omega)
    rw [signedOf, if_pos (by omega), hremainder, hkept]

theorem signed_bounds {number : Int64} (hsigned : kind.isSigned = true)
    (h : 64 ≤ 8 * kind.size Heap.pointerSize % twoPow 32 ∨
      0 < 8 * kind.size Heap.pointerSize % twoPow 32 ∧
        -twoPow (8 * kind.size Heap.pointerSize % twoPow 32 - 1) ≤ number.toInt ∧
          number.toInt < twoPow (8 * kind.size Heap.pointerSize % twoPow 32 - 1)) :
    -twoPow (8 * kind.size Heap.pointerSize - 1) ≤ number.toInt ∧
      number.toInt < twoPow (8 * kind.size Heap.pointerSize - 1) := by
  cases kind with
  | int64 => exact ⟨number.le_toInt, number.toInt_lt⟩
  | int8 | int16 | int32 =>
      rcases h with h | ⟨_, h⟩
      · exact absurd h (by decide)
      · exact h
  | _ => cases hsigned

theorem unsigned_bound {number : UInt64} (hunsigned : kind.isUnsigned = true)
    (h : 64 ≤ 8 * kind.size Heap.pointerSize % twoPow 32 ∨
      number.toNat < twoPow (8 * kind.size Heap.pointerSize % twoPow 32)) :
    number.toNat < twoPow (8 * kind.size Heap.pointerSize) := by
  cases kind with
  | uint64 | gtype => exact number.toNat_lt
  | uint8 | uint16 | uint32 | unichar =>
      rcases h with h | h
      · exact absurd h (by decide)
      · exact h
  | _ => cases hunsigned

theorem decode_signed (hsigned : kind.isSigned = true) (bytes : List UInt8) :
    kind.decode bytes =
      .int (Int64.ofInt (signedOf (8 * bytes.length) (littleEndian bytes))) := by
  cases kind with
  | int8 | int16 | int32 | int64 => rfl
  | _ => cases hsigned

theorem decode_unsigned (hunsigned : kind.isUnsigned = true) (bytes : List UInt8) :
    kind.decode bytes = .uint (UInt64.ofNat (littleEndian bytes)) := by
  cases kind with
  | uint8 | uint16 | uint32 | uint64 | unichar | gtype => rfl
  | _ => cases hunsigned

theorem represent?_signed (hsigned : kind.isSigned = true) :
    kind.represent? value = value.asInt?.map .int := by
  cases kind with
  | int8 | int16 | int32 | int64 => rfl
  | _ => cases hsigned

theorem represent?_unsigned (hunsigned : kind.isUnsigned = true) :
    kind.represent? value = value.asUInt?.map .uint := by
  cases kind with
  | uint8 | uint16 | uint32 | uint64 | unichar | gtype => rfl
  | _ => cases hunsigned

theorem twoPow_size (hsigned : kind.isSigned = true) :
    twoPow (8 * kind.size Heap.pointerSize) =
      2 * twoPow (8 * kind.size Heap.pointerSize - 1) ∧
    twoPow (8 * kind.size Heap.pointerSize) ∣ twoPow 64 := by
  cases kind with
  | int8 | int16 | int32 | int64 => exact ⟨rfl, Nat.pow_dvd_pow 2 (by decide)⟩
  | _ => cases hsigned

/-- A value that can be stored is read in the form that values of the kind have. -/
theorem represent?_eq_decode (h : kind.encode (kind.size Heap.pointerSize) value = .ok n) :
    kind.represent? value = some (kind.decode (bytesOf (kind.size Heap.pointerSize) n)) := by
  -- a number with a sign is stored as a remainder, one without as it is
  by_cases hsigned : kind.isSigned = true
  · obtain ⟨number, hview, rfl, hfits⟩ := of_encode_signed hsigned h
    obtain ⟨hlow, hhigh⟩ := signed_bounds hsigned hfits
    obtain ⟨hhalf, hwhole⟩ := twoPow_size hsigned
    rw [represent?_signed hsigned, hview, decode_signed hsigned, length_bytesOf,
      littleEndian_bytesOf, signedOf_emod hhalf hwhole hlow hhigh, Int64.ofInt_toInt]
    rfl
  by_cases hunsigned : kind.isUnsigned = true
  · obtain ⟨number, hview, rfl, hfits⟩ := of_encode_unsigned hunsigned h
    rw [represent?_unsigned hunsigned, hview, decode_unsigned hunsigned,
      littleEndian_bytesOf_of_lt (unsigned_bound hunsigned hfits), UInt64.ofNat_toNat]
    rfl
  cases kind with
  | void => rfl
  | bool =>
      obtain ⟨flag, hview, rfl⟩ := of_encode_bool h
      have hlt : flag.toNat < twoPow (8 * 4) := Nat.lt_of_le_of_lt flag.toNat_le (by decide)
      rw [represent?, hview, decode, size, littleEndian_bytesOf_of_lt hlt]
      cases flag <;> rfl
  | float =>
      obtain ⟨bits, hview, rfl⟩ := of_encode_float h
      have hlt : (Binary.toSingle bits).toNat < twoPow (8 * 4) := (Binary.toSingle bits).toNat_lt
      rw [represent?, hview, decode, size, littleEndian_bytesOf_of_lt hlt, UInt32.ofNat_toNat]
      rfl
  | double =>
      obtain ⟨bits, hview, rfl⟩ := of_encode_double h
      have hlt : bits.toNat < twoPow (8 * 8) := bits.toNat_lt
      rw [represent?, hview, decode, size, littleEndian_bytesOf_of_lt hlt, UInt64.ofNat_toNat]
      rfl
  | pointer =>
      obtain ⟨handle, hview, rfl⟩ := of_encode_pointer h
      have hlt : handle.toNat < twoPow (8 * Heap.pointerSize) := handle.addr.toNat_lt
      have hnull : (handle.isNull = true) = (handle.toNat = 0) := by
        rw [Handle.isNull, beq_iff_eq, ← UInt64.toNat_inj]
        rfl
      rw [represent?, hview, decode, size, littleEndian_bytesOf_of_lt hlt, Option.map_some]
      simp only [hnull]
      rw [← littleEndian_bytesOf_of_lt hlt, ofNat_littleEndian_bytesOf]
  | int8 | int16 | int32 | int64 => exact absurd rfl hsigned
  | uint8 | uint16 | uint32 | uint64 | unichar | gtype => exact absurd rfl hunsigned

end PrimitiveKind

end Interop
