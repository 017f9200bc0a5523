import Interop.Proofs.Memory.Writes

/-! # Scalars that are written and read again

What a write of a number or of a text does is told by `Written`: which bytes are stored, and which
block is made before. From that follow what is read where the value was written and what is read
beside it.
-/

namespace Interop

/-- A number of the size of its kind, or a text behind a pointer. -/
def Descriptor.IsScalar : Descriptor → Prop
  | .primitive kind size => size = kind.size Heap.pointerSize
  | .string _ => True
  | _ => False

namespace Heap

/-- The form in which a value is read that was stored as a scalar, or the error. What is read for an
address that was stored as a text depends on the heap. -/
def represent? (heap : Heap) (descriptor : Descriptor) (value : Value) :
    Option (Except DispatchError Value) :=
  match descriptor with
  | .primitive kind _ => (kind.represent? value).map .ok
  | .string _ =>
    match value with
    | .string text => some (.ok (.string text))
    | other => other.asHandle?.map fun target =>
      if target.isNull then .ok .null else (heap.readText target).map .string
  | _ => none

/-- The bytes that are stored for a value, and the heap in which they are stored. -/
inductive Written (heap : Heap) : Descriptor → Value → Heap → List UInt8 → Prop
  | number {kind : PrimitiveKind} {size n : Nat} {value : Value}
      (h : kind.encode size value = .ok n) :
      Written heap (.primitive kind size) value heap (bytesOf size n)
  | text (ownership : Ownership) (text : String) :
      Written heap (.string ownership) (.string text) (heap.allocText text).2
        (bytesOf pointerSize (heap.allocText text).1.toNat)
  | address (ownership : Ownership) {value : Value} {target : Handle}
      (h : value.asHandle? = some target) :
      Written heap (.string ownership) value heap (bytesOf pointerSize target.toNat)

variable {heap middle heap' : Heap} {handle : Handle} {descriptor : Descriptor} {value : Value}
  {offset : Nat} {new : List UInt8}

theorem Written.length_eq (h : heap.Written descriptor value middle new) :
    new.length = descriptor.slotSize pointerSize := by
  cases h <;> exact length_bytesOf _ _

theorem written_of_slotBytes_eq_ok (hscalar : descriptor.IsScalar)
    (h : heap.slotBytes descriptor value = .ok new) :
    heap.Written descriptor value (heap.withText descriptor value) new := by
  cases descriptor with
  | primitive kind size =>
      obtain ⟨n, hencode, rfl⟩ := PrimitiveKind.of_slotBytes_eq_ok h
      exact .number hencode
  | string ownership =>
      cases value with
      | string text =>
          cases h
          exact .text ownership text
      | null | pointer | object =>
          cases h
          exact .address ownership rfl
      | _ => cases h
  | _ => exact hscalar.elim

/-- A successful write stores the bytes of the value. -/
theorem exists_written (hscalar : descriptor.IsScalar) {u : Unit}
    (h : write handle descriptor offset value heap = .ok u heap') :
    ∃ middle new, heap.Written descriptor value middle new ∧
      middle.store handle offset new = .ok heap' := by
  have hdescriptor : descriptor.isNull = false := by
    cases descriptor with
    | null => exact hscalar.elim
    | _ => rfl
  obtain ⟨new, hnew, hstore⟩ := exists_store_of_write_eq_ok hdescriptor h
  exact ⟨_, new, written_of_slotBytes_eq_ok hscalar hnew, hstore⟩

/-! ## What is read afterwards -/

theorem Written.sound (h : heap.Written descriptor value middle new) (hsound : heap.Sound) :
    middle.Sound := by
  cases h with
  | text ownership text => exact hsound.allocText text
  | _ => exact hsound

/-- The block made for a text is in nobody's way. -/
theorem Written.locate?_of_lt (h : heap.Written descriptor value middle new)
    (hsound : heap.Sound) (hfits : middle.next ≤ twoPow 64) {addr : Nat}
    (hlt : addr < heap.next) : middle.locate? addr = heap.locate? addr := by
  cases h with
  | text ownership text =>
      have hnext := next_allocText heap text
      exact locate?_allocText_of_lt hsound (by omega) hlt
  | _ => rfl

theorem Sound.isNull_eq_false (hsound : heap.Sound) {block : Block}
    (hlocate : heap.locate? handle.toNat = some block) : handle.isNull = false := by
  refine Handle.isNull_eq_false_iff.2 (Nat.pos_of_ne_zero fun hzero => ?_)
  rw [hzero, hsound.locate?_zero] at hlocate
  cases hlocate

theorem read_primitive {kind : PrimitiveKind} {size : Nat} {bytes : List UInt8}
    (hnull : handle.isNull = false) (h : heap.bytes handle offset size = .ok bytes) :
    heap.read handle (.primitive kind size) offset = .ok (kind.decode bytes) := by
  rw [read, hnull, if_neg Bool.false_ne_true]
  rw [h]
  rfl

theorem readPointer_eq_ok {target : Handle}
    (h : heap.bytes handle offset pointerSize = .ok (bytesOf pointerSize target.toNat)) :
    heap.readPointer handle offset = .ok target := by
  unfold readPointer
  rw [h]
  exact congrArg Except.ok (ofNat_littleEndian_bytesOf target)

theorem read_string_eq {ownership : Ownership} {target : Handle} (hnull : handle.isNull = false)
    (h : heap.readPointer handle offset = .ok target) :
    heap.read handle (.string ownership) offset =
      if target.isNull then .ok .null else (heap.readText target).map .string := by
  rw [read, hnull, if_neg Bool.false_ne_true]
  rw [h]
  change (do
    if target.isNull then return Value.null
    else return Value.string (← heap.readText target)) = _
  split
  next => rfl
  next => cases heap.readText target <;> rfl

theorem read_string {ownership : Ownership} {target : Handle} (hnull : handle.isNull = false)
    (h : heap.bytes handle offset pointerSize = .ok (bytesOf pointerSize target.toNat)) :
    heap.read handle (.string ownership) offset =
      if target.isNull then .ok .null else (heap.readText target).map .string :=
  read_string_eq hnull (readPointer_eq_ok h)

theorem represent?_address {ownership : Ownership} {target : Handle}
    (h : value.asHandle? = some target) :
    heap.represent? (.string ownership) value =
      some (if target.isNull then .ok .null else (heap.readText target).map .string) := by
  cases value with
  | null | pointer | object =>
      cases h
      rfl
  | _ => cases h

/-- A text is read as it was written, or at its address. -/
theorem represent?_string_cases {ownership : Ownership} {found : Value}
    (h : heap.represent? (.string ownership) value = some (.ok found)) :
    (∃ text, value = .string text ∧ found = .string text) ∨
      ∃ target, value.asHandle? = some target ∧
        (target.isNull = true ∧ found = .null ∨
          target.isNull = false ∧ ∃ text, found = .string text) := by
  cases value with
  | string text =>
      cases h
      exact .inl ⟨text, rfl, rfl⟩
  | null | pointer | object =>
      rw [represent?_address rfl, Option.some.injEq] at h
      refine .inr ⟨_, rfl, ?_⟩
      split at h
      next hnull =>
        cases h
        exact .inl ⟨hnull, rfl⟩
      next hthere =>
        refine .inr ⟨Bool.eq_false_iff.2 hthere, ?_⟩
        generalize heap.readText _ = text at h
        cases text with
        | error error => cases h
        | ok text =>
            cases h
            exact ⟨text, rfl⟩
  | _ => cases h

/-- What is stored in an old block ends before the new ones. -/
theorem Written.end_le_next (h : heap.Written descriptor value middle new) (hsound : heap.Sound)
    (hfits : middle.next ≤ twoPow 64) (hhandle : handle.toNat < heap.next)
    (hstore : middle.store handle offset new = .ok heap') :
    handle.toNat + offset + new.length ≤ heap.next := by
  obtain ⟨block, hlocate, hrange, _⟩ := of_store_eq_ok hstore
  rw [h.locate?_of_lt hsound hfits hhandle] at hlocate
  obtain ⟨hmem, hbase, _⟩ := of_locate?_eq_some hlocate
  have hbelow := hsound.below block hmem
  omega

/-- The slot holds the bytes of a scalar. A text lies behind its address, in a block that starts at a
bound or behind it. -/
inductive Holds (heap : Heap) (bound : Nat) (handle : Handle) (offset : Nat) :
    Descriptor → Value → Prop
  | number {kind : PrimitiveKind} {value : Value} {n : Nat}
      (h : kind.encode (kind.size pointerSize) value = .ok n)
      (hbytes : heap.bytes handle offset (kind.size pointerSize) =
        .ok (bytesOf (kind.size pointerSize) n)) :
      Holds heap bound handle offset (.primitive kind (kind.size pointerSize)) value
  | text (ownership : Ownership) {text : String} {target : Handle} {block : Block}
      (hbytes : heap.bytes handle offset pointerSize = .ok (bytesOf pointerSize target.toNat))
      (hlocate : heap.locate? target.toNat = some block) (hbound : bound ≤ block.base)
      (htext : heap.readText target = .ok text) :
      Holds heap bound handle offset (.string ownership) (.string text)
  | address (ownership : Ownership) {value : Value} {target : Handle}
      (h : value.asHandle? = some target)
      (hbytes : heap.bytes handle offset pointerSize = .ok (bytesOf pointerSize target.toNat)) :
      Holds heap bound handle offset (.string ownership) value

/-- A slot is read in the form in which values like the one it holds are read. -/
theorem Holds.represent?_eq {bound : Nat} (h : heap.Holds bound handle offset descriptor value)
    (hsound : heap.Sound) (hnull : handle.isNull = false) :
    heap.represent? descriptor value = some (heap.read handle descriptor offset) := by
  cases h with
  | @number kind _ n hencode hbytes =>
      rw [read_primitive hnull hbytes, represent?, PrimitiveKind.represent?_eq_decode hencode]
      rfl
  | @text ownership text target block hbytes hlocate hbound htext =>
      rw [read_string hnull hbytes, hsound.isNull_eq_false hlocate, if_neg Bool.false_ne_true, htext]
      rfl
  | address ownership htarget hbytes =>
      rw [read_string hnull hbytes, represent?_address htarget]

/-- A slot holds the scalar that is written to it. A new text lies behind all that was there. -/
theorem holds_of_write_eq_ok (hsound : heap.Sound) (hscalar : descriptor.IsScalar)
    (hhandle : handle.toNat < heap.next) (hfits : heap'.next ≤ twoPow 64)
    (hzero : ∀ ownership text, descriptor = .string ownership → value = .string text →
      '\x00' ∉ text.toList) {u : Unit}
    (h : write handle descriptor offset value heap = .ok u heap') :
    heap'.Holds heap.next handle offset descriptor value := by
  obtain ⟨middle, new, hwritten, hstore⟩ := exists_written hscalar h
  rw [next_store hstore] at hfits
  have hbytes := bytes_store_self (hwritten.sound hsound) hstore
  have hend := hwritten.end_le_next hsound hfits hhandle hstore
  cases hwritten with
  | @number kind size n _ hencode =>
      obtain rfl : size = kind.size pointerSize := hscalar
      rw [length_bytesOf] at hbytes
      exact .number hencode hbytes
  | text ownership text =>
      rw [length_bytesOf] at hbytes
      have hroom : heap.next < twoPow 64 := Nat.lt_of_lt_of_le (next_allocText heap text) hfits
      have htarget := toNat_allocText hroom text
      -- the text lies behind the block that its address is stored in
      have hkept : heap'.readText (heap.allocText text).1 = .ok text := by
        rw [readText_store (hsound.allocText text) hstore fun addr ⟨_, _, hle, _⟩ =>
          .inr (by omega)]
        exact readText_allocText_self hsound hroom (hzero ownership text rfl rfl)
      obtain ⟨written, _, _, hlocate⟩ := locate?_store (hsound.allocText text) hstore
        (heap.allocText text).1.toNat
      rw [htarget, locate?_allocText_self hsound hroom, Option.map_some, ← htarget] at hlocate
      refine .text ownership hbytes hlocate (Nat.le_of_eq (Eq.symm ?_)) hkept
      exact ((stays_write _ _).onlyAt written.base _).1
  | address ownership htarget =>
      rw [length_bytesOf] at hbytes
      exact .address ownership htarget hbytes

/-- A scalar is read in the form in which values like it are read. -/
theorem read_write_self (hsound : heap.Sound) (hscalar : descriptor.IsScalar)
    (hhandle : handle.toNat < heap.next) (hfits : heap'.next ≤ twoPow 64)
    (hzero : ∀ text, value = .string text → '\x00' ∉ text.toList) {u : Unit}
    (h : write handle descriptor offset value heap = .ok u heap') :
    heap'.represent? descriptor value = some (heap'.read handle descriptor offset) := by
  obtain ⟨middle, new, hwritten, hstore⟩ := exists_written hscalar h
  have hheld := holds_of_write_eq_ok hsound hscalar hhandle hfits (fun _ text _ => hzero text) h
  exact hheld.represent?_eq ((hwritten.sound hsound).store hstore) (isNull_of_write_eq_ok h)

/-! ## What is read beside it -/

/-- No byte of the text at an address lies in a range, and there is nothing at the address
afterwards if there was nothing before. -/
structure Spares (heap heap' : Heap) (start stop : Nat) (target : Handle) : Prop where
  apart : ∀ addr, heap.InText target addr → addr < start ∨ stop ≤ addr
  live : heap'.isLive target = true → heap.isLive target = true

theorem Written.bytes_eq (h : heap.Written descriptor value middle new) (hsound : heap.Sound)
    (hfits : middle.next ≤ twoPow 64) (hhandle : handle.toNat < heap.next) (other size : Nat) :
    middle.bytes handle other size = heap.bytes handle other size := by
  rw [bytes, bytes, span, span, h.locate?_of_lt hsound hfits hhandle]

/-- A text that is spared is read as before. -/
theorem Written.readText_eq (h : heap.Written descriptor value middle new) (hsound : heap.Sound)
    (hfits : middle.next ≤ twoPow 64) (hstore : middle.store handle offset new = .ok heap')
    {target : Handle} (hspares : heap.Spares heap' (handle.toNat + offset)
      (handle.toNat + offset + new.length) target) :
    heap'.readText target = heap.readText target := by
  cases hlocate : heap.locate? target.toNat with
  | none =>
      have hlive : heap'.isLive target ≠ true := fun hlive => by
        have hbefore := hspares.live hlive
        rw [isLive, hlocate] at hbefore
        cases hbefore
      have hnone := Option.not_isSome_iff_eq_none.1 hlive
      rw [readText, readText, hlocate, hnone]
  | some block =>
      have hold := h.locate?_of_lt hsound hfits (hsound.lt_next hlocate)
      have hsame : middle.readText target = heap.readText target := by
        rw [readText, readText, hold]
      rw [← hsame]
      refine readText_store (h.sound hsound) hstore fun addr haddr => hspares.apart addr ?_
      rw [InText, hold] at haddr
      exact haddr

theorem read_primitive_congr {kind : PrimitiveKind} {size : Nat}
    (h : heap'.bytes handle offset size = heap.bytes handle offset size) :
    heap'.read handle (.primitive kind size) offset =
      heap.read handle (.primitive kind size) offset := by
  rw [read, read]
  rw [h]

/-- Equal addresses are read alike if equal texts are found there. -/
theorem read_string_congr {ownership : Ownership}
    (h : heap'.bytes handle offset pointerSize = heap.bytes handle offset pointerSize)
    (htext : ∀ target, heap.readPointer handle offset = .ok target →
      heap'.readText target = heap.readText target) :
    heap'.read handle (.string ownership) offset = heap.read handle (.string ownership) offset := by
  have hpointer : heap'.readPointer handle offset = heap.readPointer handle offset := by
    rw [readPointer, readPointer, h]
  rw [read, read]
  rw [hpointer]
  cases htarget : heap.readPointer handle offset with
  | error error => rfl
  | ok target =>
      change (if handle.isNull then _ else if target.isNull then _ else _) = _
      rw [htext target htarget]
      rfl

/-- A scalar beside the written one is read as before, if its text is spared. -/
theorem read_write_other (hsound : heap.Sound) (hscalar : descriptor.IsScalar)
    (hhandle : handle.toNat < heap.next) (hfits : heap'.next ≤ twoPow 64) {u : Unit}
    (h : write handle descriptor offset value heap = .ok u heap') {beside : Descriptor}
    (hbeside : beside.IsScalar) {other : Nat}
    (hdisjoint : offset + descriptor.slotSize pointerSize ≤ other ∨
      other + beside.slotSize pointerSize ≤ offset)
    (hspares : ∀ ownership, beside = .string ownership →
      ∀ target, heap.readPointer handle other = .ok target →
        heap.Spares heap' (handle.toNat + offset)
          (handle.toNat + offset + descriptor.slotSize pointerSize) target) :
    heap'.read handle beside other = heap.read handle beside other := by
  obtain ⟨middle, new, hwritten, hstore⟩ := exists_written hscalar h
  rw [next_store hstore] at hfits
  rw [← hwritten.length_eq] at hdisjoint hspares
  have hbytes := bytes_store_of_disjoint (hwritten.sound hsound) hstore hdisjoint
  rw [hwritten.bytes_eq hsound hfits hhandle] at hbytes
  cases beside with
  | primitive kind size => exact read_primitive_congr hbytes
  | string ownership =>
      refine read_string_congr hbytes fun target htarget => ?_
      exact hwritten.readText_eq hsound hfits hstore (hspares ownership rfl target htarget)
  | _ => exact hbeside.elim

end Heap

end Interop
