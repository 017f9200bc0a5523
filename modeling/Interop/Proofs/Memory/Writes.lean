import Interop.Proofs.Memory.Access

/-! # What a write does

A value is turned into bytes, a text is given a block of its own, and the bytes are stored; whoever
reasons about a write reasons about these three. A write that fails has stored nothing. It leaves the
heap as it was, unless the value is a text: its block is made before the place of its address is
looked at, and stays.
-/

namespace Interop

/-- The bytes that are stored for a value in a slot of the given size. -/
def PrimitiveKind.slotBytes (kind : PrimitiveKind) (size : Nat) (value : Value) :
    Except DispatchError (List UInt8) :=
  (kind.encode size value).map (bytesOf size)

theorem PrimitiveKind.of_slotBytes_eq_ok {kind : PrimitiveKind} {size : Nat} {value : Value}
    {bytes : List UInt8} (h : kind.slotBytes size value = .ok bytes) :
    ∃ n, kind.encode size value = .ok n ∧ bytes = bytesOf size n := by
  unfold slotBytes at h
  cases hencode : kind.encode size value with
  | error error =>
      rw [hencode] at h
      cases h
  | ok n =>
      rw [hencode] at h
      cases h
      exact ⟨n, rfl, rfl⟩

/-- The address that a value stands for, where one is expected. -/
def Value.target (value : Value) (expected : String) : Except DispatchError Handle :=
  match value.asHandle? with
  | some target => .ok target
  | none => .error (.typeMismatch expected value.typeName)

namespace Heap

/-- What is stored in the place of a record: a copy of the record at an address, or zeros if there
is none. -/
def recordBytes (heap : Heap) (source : Handle) (size : Nat) : Except DispatchError (List UInt8) :=
  if source.isNull then .ok (List.replicate size 0) else heap.bytes source 0 size

/-- The bytes that are stored for a value. A text is stored as the address of the next block. -/
def slotBytes (heap : Heap) (descriptor : Descriptor) (value : Value) :
    Except DispatchError (List UInt8) :=
  match descriptor, value with
  | .null, _ => .ok []
  | .primitive kind size, value => kind.slotBytes size value
  | .struct _ _ size true _, value =>
    (value.target "struct").bind fun source => heap.recordBytes source size
  | .string _, .string text => .ok (bytesOf pointerSize (heap.allocText text).1.toNat)
  | .callback .., .callback _ => .error (.unsupported "storing a managed callback in native memory")
  | descriptor, value =>
    (value.target descriptor.kindName).map fun target => bytesOf pointerSize target.toNat

/-- The heap in which a value is stored: the block of a text has been made. -/
def withText (heap : Heap) (descriptor : Descriptor) (value : Value) : Heap :=
  match descriptor, value with
  | .string _, .string text => (heap.allocText text).2
  | _, _ => heap

variable {heap heap' : Heap} {handle source : Handle} {descriptor : Descriptor} {value : Value}
  {offset size : Nat} {new : List UInt8} {error : DispatchError}

theorem length_of_recordBytes_eq_ok (h : heap.recordBytes source size = .ok new) :
    new.length = size := by
  unfold recordBytes at h
  split at h
  next =>
    cases h
    exact List.length_replicate
  next => exact length_of_bytes_eq_ok h

theorem put_eq (handle : Handle) (offset : Nat) (new : List UInt8) (heap : Heap) :
    put handle offset new heap =
      match heap.store handle offset new with
      | .ok heap' => .ok ⟨⟩ heap'
      | .error error => .error error heap := by
  unfold put
  rw [Steps.get_bind]
  cases heap.store handle offset new <;> rfl

/-- Whether there is room is found out before bytes are stored just as when they are stored. -/
theorem reach_put_eq (hlength : new.length = size) :
    (reach handle offset size >>= fun _ => put handle offset new) heap =
      put handle offset new heap := by
  have hreach : (reach handle offset size >>= fun _ => put handle offset new) heap =
      match heap.span handle offset size with
      | .ok _ => put handle offset new heap
      | .error error => .error error heap := by
    unfold reach
    rw [bind_assoc, Steps.get_bind]
    cases heap.span handle offset size <;> rfl
  rw [hreach, put_eq, store, hlength]
  cases heap.span handle offset size <;> rfl

/-- What is written where an address is expected, if it does not need a block. -/
theorem put_target_eq (expected : String) :
    (match value.asHandle? with
      | none => throw (.typeMismatch expected value.typeName)
      | some target => put handle offset (bytesOf pointerSize target.toNat) : Write Unit) heap =
      match (value.target expected).map fun target => bytesOf pointerSize target.toNat with
      | .error error => .error error heap
      | .ok new => put handle offset new heap := by
  unfold Value.target
  cases value.asHandle? <;> rfl

/-- A write stores the bytes of the value, once there are some. -/
theorem write_eq (hnull : handle.isNull = false) (hdescriptor : descriptor.isNull = false) :
    write handle descriptor offset value heap =
      match heap.slotBytes descriptor value with
      | .error error => .error error heap
      | .ok new => put handle offset new (heap.withText descriptor value) := by
  unfold write
  rw [hnull]
  cases descriptor with
  | null => cases hdescriptor
  | primitive kind size =>
      simp only [slotBytes, withText, PrimitiveKind.slotBytes]
      cases kind.encode size value with
      | error error => rfl
      | ok n => exact reach_put_eq (length_bytesOf size n)
  | struct innerType library size inPlace ownership =>
      cases inPlace with
      | false => exact put_target_eq _
      | true =>
          simp only [slotBytes, withText, Value.target, Bool.false_eq_true, if_false]
          cases value.asHandle? with
          | none => rfl
          | some source =>
              simp only [Except.bind, recordBytes]
              split
              next => exact reach_put_eq List.length_replicate
              next =>
                rw [Steps.get_bind]
                cases heap.bytes source 0 size <;> rfl
  | string ownership =>
      cases value with
      | string text => rfl
      | _ => rfl
  | callback =>
      cases value with
      | callback => rfl
      | _ => rfl
  | _ => exact put_target_eq _

theorem length_of_slotBytes_eq_ok (h : heap.slotBytes descriptor value = .ok new) :
    new.length = descriptor.slotSize pointerSize := by
  -- most values are stored by their address
  have haddress : ∀ expected, (value.target expected).map (fun target =>
      bytesOf pointerSize target.toNat) = .ok new → new.length = pointerSize := by
    intro expected htarget
    cases hfound : value.target expected with
    | error error =>
        rw [hfound] at htarget
        cases htarget
    | ok target =>
        rw [hfound] at htarget
        cases htarget
        exact length_bytesOf _ _
  cases descriptor with
  | null =>
      cases h
      rfl
  | primitive kind size =>
      obtain ⟨n, _, rfl⟩ := PrimitiveKind.of_slotBytes_eq_ok h
      exact length_bytesOf _ _
  | struct innerType library size inPlace ownership =>
      cases inPlace with
      | false => exact haddress _ h
      | true =>
          simp only [slotBytes] at h
          cases hsource : value.target "struct" with
          | error error =>
              rw [hsource] at h
              cases h
          | ok source =>
              rw [hsource] at h
              exact length_of_recordBytes_eq_ok h
  | string ownership =>
      cases value with
      | string text =>
          cases h
          exact length_bytesOf _ _
      | _ => exact haddress "string" h
  | callback =>
      cases value with
      | callback id => cases h
      | _ => exact haddress "callback" h
  | _ => exact haddress _ h

/-! ## What comes of a write -/

/-- What a write can come to, and the heap that it leaves. -/
inductive WriteCase (heap : Heap) (handle : Handle) (descriptor : Descriptor) (offset : Nat)
    (value : Value) : EStateM.Result DispatchError Heap Unit → Prop
  /-- There is nothing to store. -/
  | nothing (hnull : handle.isNull = false) (hdescriptor : descriptor.isNull = true) :
      WriteCase heap handle descriptor offset value (.ok ⟨⟩ heap)
  /-- The address is null, or there are no bytes for the value. -/
  | refused {error : DispatchError}
      (h : handle.isNull = true ∨ heap.slotBytes descriptor value = .error error) :
      WriteCase heap handle descriptor offset value (.error error heap)
  /-- There is no room for the bytes. -/
  | misplaced {new : List UInt8} {error : DispatchError} (hnull : handle.isNull = false)
      (hnew : heap.slotBytes descriptor value = .ok new)
      (hstore : (heap.withText descriptor value).store handle offset new = .error error) :
      WriteCase heap handle descriptor offset value (.error error (heap.withText descriptor value))
  | stored {new : List UInt8} {heap' : Heap} (hnull : handle.isNull = false)
      (hnew : heap.slotBytes descriptor value = .ok new)
      (hstore : (heap.withText descriptor value).store handle offset new = .ok heap') :
      WriteCase heap handle descriptor offset value (.ok ⟨⟩ heap')

theorem write_cases (heap : Heap) (handle : Handle) (descriptor : Descriptor) (offset : Nat)
    (value : Value) :
    WriteCase heap handle descriptor offset value (write handle descriptor offset value heap) := by
  cases hnull : handle.isNull with
  | true =>
      unfold write
      rw [hnull]
      exact .refused (.inl hnull)
  | false =>
      cases hdescriptor : descriptor.isNull with
      | true =>
          unfold write
          rw [hnull]
          cases descriptor with
          | null => exact .nothing hnull rfl
          | _ => cases hdescriptor
      | false =>
          rw [write_eq hnull hdescriptor]
          cases hnew : heap.slotBytes descriptor value with
          | error error => exact .refused (.inr hnew)
          | ok new =>
              dsimp only
              rw [put_eq]
              cases hstore : (heap.withText descriptor value).store handle offset new with
              | error error => exact .misplaced hnull hnew hstore
              | ok heap' => exact .stored hnull hnew hstore

/-- Nothing is written to the null address. -/
theorem isNull_of_write_eq_ok {u : Unit}
    (h : write handle descriptor offset value heap = .ok u heap') : handle.isNull = false := by
  have hcase := write_cases heap handle descriptor offset value
  rw [h] at hcase
  cases hcase with
  | nothing hnull => exact hnull
  | stored hnull => exact hnull

/-- A write that succeeds stores the bytes of the value. -/
theorem exists_store_of_write_eq_ok (hdescriptor : descriptor.isNull = false) {u : Unit}
    (h : write handle descriptor offset value heap = .ok u heap') :
    ∃ new, heap.slotBytes descriptor value = .ok new ∧
      (heap.withText descriptor value).store handle offset new = .ok heap' := by
  have hcase := write_cases heap handle descriptor offset value
  rw [h] at hcase
  cases hcase with
  | nothing _ hnone => exact absurd (hnone.symm.trans hdescriptor) (by decide)
  | stored _ hnew hstore => exact ⟨_, hnew, hstore⟩

/-! ## Writes that fail -/

/-- A block is made for a text and for nothing else. -/
theorem withText_cases (heap : Heap) (descriptor : Descriptor) (value : Value) :
    heap.withText descriptor value = heap ∨
      ∃ ownership text, descriptor = .string ownership ∧ value = .string text ∧
        heap.withText descriptor value = (heap.allocText text).2 := by
  unfold withText
  split
  next ownership text => exact .inr ⟨ownership, text, rfl, rfl, rfl⟩
  next => exact .inl rfl

theorem allocText_ne (heap : Heap) (text : String) : (heap.allocText text).2 ≠ heap := by
  intro hsame
  have hnext := next_allocText heap text
  rw [hsame] at hnext
  exact Nat.lt_irrefl _ hnext

/-- A write that fails leaves the heap as it was exactly if it is not a text that is written
somewhere. Otherwise the block of the text is there. -/
theorem heap_eq_iff_of_write_eq_error
    (h : write handle descriptor offset value heap = .error error heap') :
    (heap' = heap ↔ ¬ ∃ ownership text, handle.isNull = false ∧
      descriptor = .string ownership ∧ value = .string text) ∧
    ∀ ownership text, handle.isNull = false → descriptor = .string ownership →
      value = .string text → heap' = (heap.allocText text).2 := by
  have hcase := write_cases heap handle descriptor offset value
  rw [h] at hcase
  cases hcase with
  | refused hwhy =>
      -- there are always bytes for a text, so it can only be the address
      have hnone : ∀ ownership text, handle.isNull = false → descriptor = .string ownership →
          value ≠ .string text := by
        rintro ownership text hnull rfl rfl
        rcases hwhy with hisNull | hbytes
        · exact absurd (hisNull.symm.trans hnull) (by decide)
        · cases hbytes
      refine ⟨iff_of_true rfl ?_, fun ownership text hnull hstring htext => ?_⟩
      · rintro ⟨ownership, text, hnull, hstring, htext⟩
        exact hnone ownership text hnull hstring htext
      · exact absurd htext (hnone ownership text hnull hstring)
  | misplaced hnull =>
      rcases heap.withText_cases descriptor value with hsame | ⟨ownership, text, rfl, rfl, hmade⟩
      · have hnone : ∀ ownership text, descriptor = .string ownership → value ≠ .string text := by
          rintro ownership text rfl rfl
          exact allocText_ne heap text hsame
        refine ⟨iff_of_true hsame ?_, fun ownership text _ hstring htext => ?_⟩
        · rintro ⟨ownership, text, _, hstring, htext⟩
          exact hnone ownership text hstring htext
        · exact absurd htext (hnone ownership text hstring)
      · refine ⟨iff_of_false ?_ ?_, fun _ other _ _ htext => ?_⟩
        · rw [hmade]
          exact allocText_ne heap text
        · exact not_not_intro ⟨ownership, text, hnull, rfl, rfl⟩
        · rw [hmade, Value.string.inj htext]

/-- A heap with one block of eight bytes. -/
def eightBytes : Heap := (({} : Heap).alloc 8 none).2

/-- A number that does not fit behind the last one changes nothing. -/
theorem refused_number_leaves_heap :
    Steps.failure? (write (.ofNat 0x1000) (.primitive .int32 4) 8 (.int 1) eightBytes) =
        some (.outOfBounds (.ofNat 0x1000) 8 4) ∧
      Steps.ending (write (.ofNat 0x1000) (.primitive .int32 4) 8 (.int 1) eightBytes) =
        eightBytes := by
  have hfails : Steps.failure? (write (.ofNat 0x1000) (.primitive .int32 4) 8 (.int 1)
      eightBytes) = some (.outOfBounds (.ofNat 0x1000) 8 4) := rfl
  have hleft := heap_eq_iff_of_write_eq_error (Steps.eq_error_of_failure? hfails)
  refine ⟨hfails, hleft.1.2 ?_⟩
  rintro ⟨ownership, text, _, hstring, _⟩
  cases hstring

/-- A text whose address does not fit is not stored, and yet there is one more block. -/
theorem refused_text_stays :
    Steps.failure? (write (.ofNat 0x1000) (.string .none) 4 (.string "x") eightBytes) =
        some (.outOfBounds (.ofNat 0x1000) 4 8) ∧
      eightBytes.size = 1 ∧
      (Steps.ending (write (.ofNat 0x1000) (.string .none) 4 (.string "x") eightBytes)).size =
        2 := by
  decide +kernel

end Heap

end Interop
