import Interop.Proofs.Memory.Writes

/-! # Encodings that lose nothing

Whole numbers, truth values and addresses are stored as they are or not at all. A value is refused
unless it stands for something of its kind, which for a number includes that it is in the range of
the kind. What was stored is got back, and any bytes are got back from what they are read as, except
that many bytes are read as true.
-/

namespace Interop

namespace PrimitiveKind

/-- The kinds whose values are whole numbers, truth values or addresses. -/
def isExact : PrimitiveKind → Bool
  | void | float | double => false
  | _ => true

/-- What a value of such a kind stands for. -/
inductive Content where
  | number (n : Int)
  | truth (flag : Bool)
  | address (handle : Handle)
  deriving DecidableEq

/-- What a value stands for where one of this kind is expected. -/
def content? (kind : PrimitiveKind) (value : Value) : Option Content :=
  match kind with
  | bool => value.asBool?.map .truth
  | int8 | int16 | int32 | int64 => value.asInt?.map fun n => .number n.toInt
  | uint8 | uint16 | uint32 | uint64 | unichar | gtype => value.asUInt?.map fun n => .number n.toNat
  | pointer => value.asHandle?.map .address
  | void | float | double => none

/-- The numbers that the bytes of the kind tell apart. -/
def InRange (kind : PrimitiveKind) (n : Int) : Prop :=
  let bits := 8 * kind.size Heap.pointerSize
  if kind.isSigned then -twoPow (bits - 1) ≤ n ∧ n < twoPow (bits - 1)
  else 0 ≤ n ∧ n < twoPow bits

namespace Content

/-- A number has to be in range. Truth values and addresses always fit. -/
def Fits (kind : PrimitiveKind) : Content → Prop
  | number n => kind.InRange n
  | truth _ | address _ => True

/-- The number whose lowest bytes are stored. -/
def raw : Content → Nat
  | number n => (n % twoPow 64).toNat
  | truth flag => flag.toNat
  | address handle => handle.toNat

end Content

variable {kind : PrimitiveKind} {value : Value} {content : Content} {bytes : List UInt8}

/-! ## Storing -/

theorem content?_signed (hsigned : kind.isSigned = true) :
    kind.content? value = value.asInt?.map fun n => .number n.toInt := by
  cases kind with
  | int8 | int16 | int32 | int64 => rfl
  | _ => cases hsigned

theorem content?_unsigned (hunsigned : kind.isUnsigned = true) :
    kind.content? value = value.asUInt?.map fun n => .number n.toNat := by
  cases kind with
  | uint8 | uint16 | uint32 | uint64 | unichar | gtype => rfl
  | _ => cases hunsigned

theorem inRange_signed_iff (hsigned : kind.isSigned = true) {n : Int} :
    kind.InRange n ↔ -twoPow (8 * kind.size Heap.pointerSize - 1) ≤ n ∧
      n < twoPow (8 * kind.size Heap.pointerSize - 1) := by
  unfold InRange
  rw [if_pos hsigned]

theorem inRange_unsigned_iff (hunsigned : kind.isUnsigned = true) {n : Nat} :
    kind.InRange n ↔ n < twoPow (8 * kind.size Heap.pointerSize) := by
  have hsigned : ¬ kind.isSigned = true := by
    cases kind <;> first | exact Bool.false_ne_true | cases hunsigned
  unfold InRange
  rw [if_neg hsigned]
  omega

/-- The check that is made for a number with a sign asks whether it is in range. -/
theorem signed_check_iff (hsigned : kind.isSigned = true) {number : Int64} :
    (64 ≤ 8 * kind.size Heap.pointerSize % twoPow 32 ∨
      0 < 8 * kind.size Heap.pointerSize % twoPow 32 ∧
        -twoPow (8 * kind.size Heap.pointerSize % twoPow 32 - 1) ≤ number.toInt ∧
          number.toInt < twoPow (8 * kind.size Heap.pointerSize % twoPow 32 - 1)) ↔
      kind.InRange number.toInt := by
  rw [inRange_signed_iff hsigned]
  refine ⟨signed_bounds hsigned, fun hbounds => ?_⟩
  cases kind with
  | int64 => exact .inl (by decide)
  | int8 | int16 | int32 => exact .inr ⟨by decide, hbounds⟩
  | _ => cases hsigned

theorem unsigned_check_iff (hunsigned : kind.isUnsigned = true) {number : UInt64} :
    (64 ≤ 8 * kind.size Heap.pointerSize % twoPow 32 ∨
      number.toNat < twoPow (8 * kind.size Heap.pointerSize % twoPow 32)) ↔
      kind.InRange number.toNat := by
  rw [inRange_unsigned_iff hunsigned]
  refine ⟨unsigned_bound hunsigned, fun hbound => ?_⟩
  cases kind with
  | uint64 | gtype => exact .inl (by decide)
  | uint8 | uint16 | uint32 | unichar => exact .inr hbound
  | _ => cases hunsigned

/-- What is encoded on a condition is refused without it. -/
theorem view_ite_eq {α : Type} {p : Prop} [Decidable p] {a : α} {error : DispatchError} :
    (match if p then some a else none with
      | some a => .ok a
      | none => .error error : Except DispatchError α) = if p then .ok a else .error error := by
  by_cases hp : p
  · rw [if_pos hp, if_pos hp]
  · rw [if_neg hp, if_neg hp]

/-- A number with a sign is refused unless it passes the check. -/
theorem encode_signed (hsigned : kind.isSigned = true) (size : Nat) (value : Value) :
    kind.encode size value =
      match value.asInt? with
      | none => .error (.typeMismatch kind.name value.typeName)
      | some number =>
        if 64 ≤ 8 * size % twoPow 32 ∨ 0 < 8 * size % twoPow 32 ∧
            -twoPow (8 * size % twoPow 32 - 1) ≤ number.toInt ∧
              number.toInt < twoPow (8 * size % twoPow 32 - 1) then
          .ok (number.toInt % twoPow 64).toNat
        else .error (.typeMismatch kind.name value.typeName) := by
  cases kind with
  | int8 | int16 | int32 | int64 =>
      simp only [encode]
      cases value.asInt? with
      | none => rfl
      | some number =>
          exact view_ite_eq
  | _ => cases hsigned

theorem encode_unsigned (hunsigned : kind.isUnsigned = true) (size : Nat) (value : Value) :
    kind.encode size value =
      match value.asUInt? with
      | none => .error (.typeMismatch kind.name value.typeName)
      | some number =>
        if 64 ≤ 8 * size % twoPow 32 ∨ number.toNat < twoPow (8 * size % twoPow 32) then
          .ok number.toNat
        else .error (.typeMismatch kind.name value.typeName) := by
  cases kind with
  | uint8 | uint16 | uint32 | uint64 | unichar | gtype =>
      simp only [encode]
      cases value.asUInt? with
      | none => rfl
      | some number =>
          exact view_ite_eq
  | _ => cases hunsigned

/-- What fits is stored. -/
theorem encode_of_fits (hcontent : kind.content? value = some content)
    (hfits : content.Fits kind) :
    kind.encode (kind.size Heap.pointerSize) value = .ok content.raw := by
  by_cases hsigned : kind.isSigned = true
  · rw [content?_signed hsigned] at hcontent
    obtain ⟨number, hview, rfl⟩ := Option.map_eq_some_iff.1 hcontent
    rw [encode_signed hsigned, hview]
    dsimp only
    rw [if_pos ((signed_check_iff hsigned).2 hfits)]
    rfl
  by_cases hunsigned : kind.isUnsigned = true
  · rw [content?_unsigned hunsigned] at hcontent
    obtain ⟨number, hview, rfl⟩ := Option.map_eq_some_iff.1 hcontent
    have hnumber : ((number.toNat : Int) % twoPow 64).toNat = number.toNat := by
      have hlt : number.toNat < twoPow 64 := number.toNat_lt
      rw [Int.emod_eq_of_lt (by omega) (by omega), Int.toNat_natCast]
    rw [encode_unsigned hunsigned, hview, Content.raw, hnumber]
    dsimp only
    rw [if_pos ((unsigned_check_iff hunsigned).2 hfits)]
  cases kind with
  | bool | pointer =>
      obtain ⟨view, hview, rfl⟩ := Option.map_eq_some_iff.1 hcontent
      simp only [encode, hview]
      rfl
  | void | float | double => cases hcontent
  | int8 | int16 | int32 | int64 => exact absurd rfl hsigned
  | uint8 | uint16 | uint32 | uint64 | unichar | gtype => exact absurd rfl hunsigned

/-- What does not fit is refused. -/
theorem encode_of_not_fits (hexact : kind.isExact = true)
    (h : ∀ content, kind.content? value = some content → ¬ content.Fits kind) :
    kind.encode (kind.size Heap.pointerSize) value =
      .error (.typeMismatch kind.name value.typeName) := by
  by_cases hsigned : kind.isSigned = true
  · rw [encode_signed hsigned]
    rw [content?_signed hsigned] at h
    cases hview : value.asInt? with
    | none => rfl
    | some number =>
        have hout : ¬ kind.InRange number.toInt := h (.number number.toInt) (by rw [hview]; rfl)
        dsimp only
        rw [if_neg (mt (signed_check_iff hsigned).1 hout)]
  by_cases hunsigned : kind.isUnsigned = true
  · rw [encode_unsigned hunsigned]
    rw [content?_unsigned hunsigned] at h
    cases hview : value.asUInt? with
    | none => rfl
    | some number =>
        have hout : ¬ kind.InRange number.toNat := h (.number number.toNat) (by rw [hview]; rfl)
        dsimp only
        rw [if_neg (mt (unsigned_check_iff hunsigned).1 hout)]
  cases kind with
  | bool =>
      cases hview : value.asBool? with
      | none =>
          simp only [encode, hview]
          rfl
      | some flag => exact absurd trivial (h (.truth flag) (by simp only [content?, hview]; rfl))
  | pointer =>
      cases hview : value.asHandle? with
      | none =>
          simp only [encode, hview]
          rfl
      | some handle =>
          exact absurd trivial (h (.address handle) (by simp only [content?, hview]; rfl))
  | void | float | double => cases hexact
  | int8 | int16 | int32 | int64 => exact absurd rfl hsigned
  | uint8 | uint16 | uint32 | uint64 | unichar | gtype => exact absurd rfl hunsigned

/-! ## Reading -/

/-- What a value is read as stands for the same. -/
theorem content?_represented {read : Value} (h : kind.represent? value = some read) :
    kind.content? read = kind.content? value := by
  cases kind with
  | void | float | double => rfl
  | pointer =>
      obtain ⟨handle, hview, rfl⟩ := Option.map_eq_some_iff.1 h
      simp only [content?, hview]
      split
      next hnull =>
        have hsame : handle = .null := congrArg Handle.mk (eq_of_beq hnull)
        rw [hsame]
        rfl
      next => rfl
  | _ =>
      obtain ⟨view, hview, rfl⟩ := Option.map_eq_some_iff.1 h
      simp only [content?, hview]
      rfl

/-- What stands for the bytes of a number with a sign: the number that has them as its lowest. -/
theorem emod_signedOf {bits n : Nat} (hwhole : twoPow bits ∣ twoPow 64) (hlt : n < twoPow bits) :
    (signedOf bits n % twoPow 64).toNat % twoPow bits = n := by
  have hpos := twoPow_pos 64
  have hnonneg : 0 ≤ signedOf bits n % (twoPow 64 : Int) := Int.emod_nonneg _ (by omega)
  have hremainder : signedOf bits n % (twoPow bits : Int) = n := by
    unfold signedOf
    split
    next => exact Int.emod_eq_of_lt (by omega) (by omega)
    next =>
      rw [← Int.add_emod_right, Int.sub_add_cancel]
      exact Int.emod_eq_of_lt (by omega) (by omega)
  apply Int.ofNat_inj.1
  rw [Int.natCast_emod, Int.toNat_of_nonneg hnonneg,
    Int.emod_emod_of_dvd _ (Int.natCast_dvd_natCast.2 hwhole), hremainder]

theorem signedOf_bounds {bits n : Nat} (hhalf : twoPow bits = 2 * twoPow (bits - 1))
    (hlt : n < twoPow bits) :
    -twoPow (bits - 1) ≤ signedOf bits n ∧ signedOf bits n < twoPow (bits - 1) := by
  unfold signedOf
  split <;> omega

/-- A number with a sign is one of 64 bits, so it is kept as it is. -/
theorem exists_content_decode_signed (hsigned : kind.isSigned = true)
    (hlength : bytes.length = kind.size Heap.pointerSize) :
    ∃ content, kind.content? (kind.decode bytes) = some content ∧ content.Fits kind ∧
      content.raw % twoPow (8 * kind.size Heap.pointerSize) = littleEndian bytes := by
  have hlt := littleEndian_lt bytes
  obtain ⟨hhalf, hwhole⟩ := twoPow_size hsigned
  rw [hlength] at hlt
  have hbounds := signedOf_bounds hhalf hlt
  have hwide : twoPow (8 * kind.size Heap.pointerSize) ≤ twoPow 64 :=
    Nat.le_of_dvd (twoPow_pos 64) hwhole
  have htop : (twoPow 64 : Int) = 2 * 2 ^ 63 := rfl
  have hkept : (Int64.ofInt (signedOf (8 * kind.size Heap.pointerSize)
      (littleEndian bytes))).toInt =
        signedOf (8 * kind.size Heap.pointerSize) (littleEndian bytes) :=
    Int64.toInt_ofInt_of_le (by omega) (by omega)
  rw [content?_signed hsigned, decode_signed hsigned, hlength]
  refine ⟨.number (signedOf (8 * kind.size Heap.pointerSize) (littleEndian bytes)),
    congrArg (fun n => some (Content.number n)) hkept, ?_, emod_signedOf hwhole hlt⟩
  exact (inRange_signed_iff hsigned).2 hbounds

theorem exists_content_decode_unsigned (hunsigned : kind.isUnsigned = true)
    (hlength : bytes.length = kind.size Heap.pointerSize) :
    ∃ content, kind.content? (kind.decode bytes) = some content ∧ content.Fits kind ∧
      content.raw % twoPow (8 * kind.size Heap.pointerSize) = littleEndian bytes := by
  have hlt := littleEndian_lt bytes
  have hwide : twoPow (8 * kind.size Heap.pointerSize) ≤ twoPow 64 := by
    cases kind with
    | uint8 | uint16 | uint32 | uint64 | unichar | gtype => decide
    | _ => cases hunsigned
  rw [hlength] at hlt
  have hkept : (UInt64.ofNat (littleEndian bytes)).toNat = littleEndian bytes :=
    UInt64.toNat_ofNat_of_lt' (Nat.lt_of_lt_of_le hlt hwide)
  rw [content?_unsigned hunsigned, decode_unsigned hunsigned]
  refine ⟨.number (littleEndian bytes),
    congrArg (fun n : Nat => some (Content.number n)) hkept,
    (inRange_unsigned_iff hunsigned).2 hlt, ?_⟩
  have hnumber : Content.raw (.number (littleEndian bytes)) = littleEndian bytes := by
    rw [Content.raw, Int.emod_eq_of_lt (by omega) (by omega), Int.toNat_natCast]
  rw [hnumber, Nat.mod_eq_of_lt hlt]

theorem exists_content_decode_pointer (hlength : bytes.length = Heap.pointerSize) :
    ∃ content, pointer.content? (pointer.decode bytes) = some content ∧ content.Fits pointer ∧
      content.raw % twoPow (8 * pointer.size Heap.pointerSize) = littleEndian bytes := by
  have hlt := littleEndian_lt bytes
  rw [hlength] at hlt
  have hkept : (Handle.ofNat (littleEndian bytes)).toNat = littleEndian bytes :=
    Handle.toNat_ofNat_of_lt hlt
  refine ⟨.address (.ofNat (littleEndian bytes)), ?_, trivial, ?_⟩
  · rw [decode]
    split
    next hzero =>
      rw [hzero]
      rfl
    next => rfl
  · rw [Content.raw, hkept]
    exact Nat.mod_eq_of_lt hlt

/-- Any bytes are read as something that fits, and of which they are the lowest bytes, unless they
are read as a truth value. -/
theorem exists_content_decode (hexact : kind.isExact = true)
    (hlength : bytes.length = kind.size Heap.pointerSize) :
    ∃ content, kind.content? (kind.decode bytes) = some content ∧ content.Fits kind ∧
      (kind ≠ .bool →
        content.raw % twoPow (8 * kind.size Heap.pointerSize) = littleEndian bytes) := by
  cases kind with
  | bool => exact ⟨.truth (littleEndian bytes != 0), rfl, trivial, fun h => absurd rfl h⟩
  | int8 | int16 | int32 | int64 =>
      obtain ⟨content, hread, hfits, hraw⟩ := exists_content_decode_signed rfl hlength
      exact ⟨content, hread, hfits, fun _ => hraw⟩
  | uint8 | uint16 | uint32 | uint64 | unichar | gtype =>
      obtain ⟨content, hread, hfits, hraw⟩ := exists_content_decode_unsigned rfl hlength
      exact ⟨content, hread, hfits, fun _ => hraw⟩
  | pointer =>
      obtain ⟨content, hread, hfits, hraw⟩ := exists_content_decode_pointer hlength
      exact ⟨content, hread, hfits, fun _ => hraw⟩
  | void | float | double => cases hexact

/-! ## Both ways -/

/-- The kind loses nothing of what it stores. -/
structure Exact (kind : PrimitiveKind) : Prop where
  /-- Those values are stored that stand for something that fits, and no others. -/
  stores (value : Value) :
    (∃ bytes, kind.slotBytes (kind.size Heap.pointerSize) value = .ok bytes) ↔
      ∃ content, kind.content? value = some content ∧ content.Fits kind
  refuses {value : Value} {error : DispatchError}
    (h : kind.slotBytes (kind.size Heap.pointerSize) value = .error error) :
    error = .typeMismatch kind.name value.typeName
  /-- What was stored is read as a value that stands for the same. -/
  reads {value : Value} {bytes : List UInt8}
    (h : kind.slotBytes (kind.size Heap.pointerSize) value = .ok bytes) :
    bytes.length = kind.size Heap.pointerSize ∧
      kind.content? (kind.decode bytes) = kind.content? value
  /-- Any bytes are stored for the value that they are read as, unless it is a truth value and they
  are not those of zero or one. -/
  restores {bytes : List UInt8} (h : bytes.length = kind.size Heap.pointerSize) :
    kind.slotBytes (kind.size Heap.pointerSize) (kind.decode bytes) = .ok bytes ↔
      (kind = .bool → littleEndian bytes ≤ 1)

theorem slotBytes_of_fits (hcontent : kind.content? value = some content)
    (hfits : content.Fits kind) :
    kind.slotBytes (kind.size Heap.pointerSize) value =
      .ok (bytesOf (kind.size Heap.pointerSize) content.raw) := by
  rw [slotBytes, encode_of_fits hcontent hfits]
  rfl

theorem slotBytes_of_not_fits (hexact : kind.isExact = true)
    (h : ∀ content, kind.content? value = some content → ¬ content.Fits kind) :
    kind.slotBytes (kind.size Heap.pointerSize) value =
      .error (.typeMismatch kind.name value.typeName) := by
  rw [slotBytes, encode_of_not_fits hexact h]
  rfl

/-- What is stored for a truth value is zero or one. -/
theorem slotBytes_decode_bool_iff {bytes : List UInt8} (hlength : bytes.length = 4) :
    bool.slotBytes 4 (bool.decode bytes) = .ok bytes ↔ littleEndian bytes ≤ 1 := by
  have hstored : bool.slotBytes 4 (bool.decode bytes) =
      .ok (bytesOf 4 (littleEndian bytes != 0).toNat) := rfl
  have hback := bytesOf_littleEndian bytes
  rw [hlength] at hback
  rw [hstored, Except.ok.injEq]
  refine ⟨fun hsame => ?_, fun hle => ?_⟩
  · have hflag := Bool.toNat_le (littleEndian bytes != 0)
    rw [← hsame, littleEndian_bytesOf]
    exact Nat.le_trans (Nat.mod_le _ _) hflag
  · have hnumber : (littleEndian bytes != 0).toNat = littleEndian bytes := by
      rcases Nat.le_one_iff_eq_zero_or_eq_one.1 hle with hzero | hone
      · rw [hzero]
        rfl
      · rw [hone]
        rfl
    rw [hnumber, hback]

/-- Whole numbers, truth values and addresses are stored without a loss. -/
theorem exact_of_isExact (hexact : kind.isExact = true) : kind.Exact where
  stores value := by
    refine ⟨fun ⟨bytes, hbytes⟩ => ?_, fun ⟨content, hcontent, hfits⟩ => ?_⟩
    · by_contra hnone
      have hmisfit : ∀ content, kind.content? value = some content → ¬ content.Fits kind :=
        fun content hcontent hfits => hnone ⟨content, hcontent, hfits⟩
      rw [slotBytes_of_not_fits hexact hmisfit] at hbytes
      cases hbytes
    · exact ⟨_, slotBytes_of_fits hcontent hfits⟩
  refuses {value error} h := by
    have hmisfit : ∀ content, kind.content? value = some content → ¬ content.Fits kind := by
      intro content hcontent hfits
      rw [slotBytes_of_fits hcontent hfits] at h
      cases h
    rw [slotBytes_of_not_fits hexact hmisfit] at h
    exact (Except.error.inj h).symm
  reads {value bytes} h := by
    obtain ⟨n, hencode, rfl⟩ := of_slotBytes_eq_ok h
    exact ⟨length_bytesOf _ _, content?_represented (represent?_eq_decode hencode)⟩
  restores {bytes} hlength := by
    -- any number but zero is read as true, but only one is what true is stored as
    by_cases hbool : kind = .bool
    · subst hbool
      exact (slotBytes_decode_bool_iff hlength).trans ⟨fun hle _ => hle, fun h => h rfl⟩
    · refine iff_of_true ?_ fun h => absurd h hbool
      obtain ⟨content, hcontent, hfits, hraw⟩ := exists_content_decode hexact hlength
      have hback := bytesOf_littleEndian bytes
      rw [hlength] at hback
      have hsame : bytesOf (kind.size Heap.pointerSize) content.raw =
          bytesOf (kind.size Heap.pointerSize) (littleEndian bytes) := by
        have hlt := littleEndian_lt bytes
        rw [hlength] at hlt
        refine bytesOf_congr ?_
        rw [hraw hbool, Nat.mod_eq_of_lt hlt]
      rw [slotBytes_of_fits hcontent hfits, hsame, hback]

/-- Sixteen bits hold the lowest of their numbers, and bytes are read with a sign. -/
theorem int16_exact :
    int16.slotBytes 2 (.int (-32768)) = .ok [0, 128] ∧
      int16.slotBytes 2 (.uint 32768) = .error (.typeMismatch "int16" "uint") ∧
      int16.Exact :=
  ⟨by decide, by decide, exact_of_isExact rfl⟩

end PrimitiveKind

end Interop
