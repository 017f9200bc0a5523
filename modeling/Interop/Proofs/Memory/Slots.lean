import Interop.Proofs.Memory.Arrays

/-! # What is found again

A block that was made for a call may be gone when it is looked at. If it is there, it is the one that
was made, since no block comes to lie where another has been, and it holds what was stored in it last,
as long as those who write elsewhere keep to their own blocks.
-/

namespace Interop

/-- A text is given as such and has no zeros, or there is none. -/
def Descriptor.Plain (descriptor : Descriptor) (value : Value) : Prop :=
  match descriptor, value with
  | .string _, .string text => '\x00' ∉ text.toList
  | .string _, other => other.isNull = true
  | _, _ => True

/-- The form in which a plain value is read that was stored as a scalar. -/
def Descriptor.represent? (descriptor : Descriptor) (value : Value) : Option Value :=
  match descriptor with
  | .primitive kind _ => kind.represent? value
  | .string _ =>
    match value with
    | .string text => some (.string text)
    | other => if other.isNull then some .null else none
  | _ => none

/-- Zero, false or null: what is read from a slot in which nothing has been stored. -/
def PrimitiveKind.blank : PrimitiveKind → Value
  | void | pointer => .null
  | bool => .bool false
  | int8 | int16 | int32 | int64 => .int 0
  | uint8 | uint16 | uint32 | uint64 | unichar | gtype => .uint 0
  | float | double => .float 0

def Descriptor.blank : Descriptor → Value
  | .primitive kind _ => kind.blank
  | _ => .null

/-- Only null is a plain address of a text. -/
theorem Descriptor.Plain.isNull {ownership : Ownership} {value : Value} {target : Handle}
    (h : (Descriptor.string ownership).Plain value) (htarget : value.asHandle? = some target) :
    target.isNull = true ∧ (Descriptor.string ownership).represent? value = some .null := by
  cases value with
  | null | pointer | object =>
      cases htarget
      have hform {other : Value} (hnull : other.isNull = true) :
          (if other.isNull then some Value.null else none) = some .null := if_pos hnull
      exact ⟨h, hform h⟩
  | _ => cases htarget

theorem Descriptor.plain_blank (descriptor : Descriptor) : descriptor.Plain descriptor.blank := by
  cases descriptor with
  | string => rfl
  | _ => trivial

/-- What a slot holds before anything is stored in it is read as it is. -/
theorem Descriptor.represent?_blank {descriptor : Descriptor} (hscalar : descriptor.IsScalar) :
    descriptor.represent? descriptor.blank = some descriptor.blank := by
  cases descriptor with
  | primitive kind => cases kind <;> rfl
  | string => rfl
  | _ => exact hscalar.elim

namespace Block

/-- The blocks lie in the same place and hold the same, but for bytes at some addresses. They may
differ in references. -/
structure AlikeBut (touched : Set Nat) (block block' : Block) : Prop where
  base : block'.base = block.base
  size : block'.size = block.size
  bytes : ∀ addr, block.Contains addr → addr ∉ touched →
    block'.bytes.get (addr - block.base) = block.bytes.get (addr - block.base)

variable {touched touched' : Set Nat} {block block' block'' : Block}

theorem SameBut.alike (h : block.SameBut touched block') : block.AlikeBut touched block' :=
  ⟨h.base, h.size, h.bytes⟩

namespace AlikeBut

theorem refl (touched : Set Nat) (block : Block) : block.AlikeBut touched block :=
  ⟨rfl, rfl, fun _ _ _ => rfl⟩

theorem trans (h : block.AlikeBut touched block') (h' : block'.AlikeBut touched block'') :
    block.AlikeBut touched block'' := by
  refine ⟨h'.base.trans h.base, h'.size.trans h.size, fun addr hcontains haddr => ?_⟩
  have hthere : block'.Contains addr := by
    rw [Contains, h.base, h.size]
    exact hcontains
  have hsecond := h'.bytes addr hthere haddr
  rw [h.base] at hsecond
  exact hsecond.trans (h.bytes addr hcontains haddr)

theorem mono (h : block.AlikeBut touched block') (hsub : touched ⊆ touched') :
    block.AlikeBut touched' block' :=
  { h with bytes := fun addr hcontains haddr =>
      h.bytes addr hcontains fun htouched => haddr (hsub htouched) }

end AlikeBut

end Block

namespace Heap

variable {heap heap' heap'' : Heap} {handle : Handle} {descriptor : Descriptor} {value found : Value}
  {offset size start bound : Nat} {new : List UInt8} {touched touched' mine : Set Nat}

/-- What is found from an address on was found there before, alike but for bytes at some addresses.
It need not be there any more, and there may be new blocks behind all that was there. -/
structure StaysFrom (start : Nat) (touched : Set Nat) (heap heap' : Heap) : Prop where
  next_le : heap.next ≤ heap'.next
  sound : heap.Sound → heap'.Sound
  found : heap.Sound → heap'.next ≤ twoPow 64 → ∀ {addr : Nat} {block' : Block}, start ≤ addr →
    addr < heap.next → heap'.locate? addr = some block' →
      ∃ block, heap.locate? addr = some block ∧ block.AlikeBut touched block'

theorem staysFrom_refl (start : Nat) (touched : Set Nat) (heap : Heap) :
    heap.StaysFrom start touched heap :=
  ⟨Nat.le_refl _, id, fun _ _ _ block _ _ hlocate => ⟨block, hlocate, .refl _ _⟩⟩

theorem StaysFrom.trans (h : heap.StaysFrom start touched heap')
    (h' : heap'.StaysFrom start touched heap'') : heap.StaysFrom start touched heap'' := by
  refine ⟨Nat.le_trans h.next_le h'.next_le, h'.sound ∘ h.sound, ?_⟩
  intro hsound hfits addr block'' hstart hnext hlocate
  obtain ⟨block', hlocate', halike'⟩ :=
    h'.found (h.sound hsound) hfits hstart (Nat.lt_of_lt_of_le hnext h.next_le) hlocate
  obtain ⟨block, hfound, halike⟩ :=
    h.found hsound (Nat.le_trans h'.next_le hfits) hstart hnext hlocate'
  exact ⟨block, hfound, halike.trans halike'⟩

theorem StaysFrom.mono (h : heap.StaysFrom start touched heap') (hsub : touched ⊆ touched') :
    heap.StaysFrom start touched' heap' := by
  refine { h with found := fun hsound hfits addr block' hstart hnext hlocate => ?_ }
  obtain ⟨block, hfound, halike⟩ := h.found hsound hfits hstart hnext hlocate
  exact ⟨block, hfound, halike.mono hsub⟩

theorem staysFrom_of_run
    (h : Relation.ReflTransGen (StaysFrom start touched) heap heap') :
    heap.StaysFrom start touched heap' := by
  induction h with
  | refl => exact staysFrom_refl _ _ _
  | tail _ hstep ih => exact ih.trans hstep

theorem Framed.staysFrom (h : heap.Framed touched heap') (start : Nat) :
    heap.StaysFrom start touched heap' := by
  refine ⟨h.next_le, h.sound, fun hsound hfits addr block' _ hnext hlocate => ?_⟩
  obtain ⟨hmem', hcontains⟩ := of_locate?_eq_some hlocate
  rcases (h.keeps hsound hfits).made block' hmem' with ⟨block, hmem, hsame⟩ | hnew
  · exact ⟨block, hsound.locate?_eq_some_iff.2 ⟨hmem, hsame.contains_iff.1 hcontains⟩, hsame.alike⟩
  · exact absurd hcontains.1 (Nat.not_le_of_lt (Nat.lt_of_lt_of_le hnext hnew))

/-- Giving a reference back changes no bytes. -/
theorem staysFrom_of_unref_eq_ok (h : heap.unref handle = .ok heap') (start : Nat) :
    heap.StaysFrom start ∅ heap' := by
  have hstep : heap.Step heap' := .unref h
  refine ⟨hstep.next_le, hstep.sound, fun hsound _ addr block' _ _ hlocate => ?_⟩
  obtain ⟨hmem', hcontains⟩ := of_locate?_eq_some hlocate
  obtain ⟨_, _, ⟨_, rfl⟩ | ⟨_, rfl⟩⟩ := of_unref_eq_ok h
  · exact ⟨block', hsound.locate?_eq_some_iff.2 ⟨(List.mem_filter.1 hmem').1, hcontains⟩, .refl _ _⟩
  · rw [hsound.blocks_modifyBlock] at hmem'
    obtain ⟨block, hmem, rfl⟩ := List.mem_map.1 hmem'
    have halike (base : Nat) : block.AlikeBut ∅
        (onlyAt base (fun block => { block with refs := block.refs - 1 }) block) := by
      unfold onlyAt
      split
      next => exact ⟨rfl, rfl, fun _ _ _ => rfl⟩
      next => exact .refl _ _
    refine ⟨block, hsound.locate?_eq_some_iff.2 ⟨hmem, ?_⟩, halike _⟩
    rw [Block.Contains, ← (halike _).base, ← (halike _).size]
    exact hcontains

/-! ## Reading again -/

/-- Bytes that are found again are those that were there. -/
theorem StaysFrom.bytes_eq (h : heap.StaysFrom start touched heap') (hsound : heap.Sound)
    (hfits : heap'.next ≤ twoPow 64) (hstart : start ≤ handle.toNat)
    (hnext : handle.toNat < heap.next) (hbytes : heap'.bytes handle offset size = .ok new)
    (havoid : ∀ addr ∈ handle.slot offset size, addr ∉ touched) :
    heap.bytes handle offset size = .ok new := by
  obtain ⟨block', hlocate', hreach, _⟩ := of_bytes_eq_ok hbytes
  obtain ⟨block, hlocate, halike⟩ := h.found hsound hfits hstart hnext hlocate'
  obtain ⟨_, hbase, hthere⟩ := of_locate?_eq_some hlocate
  rw [halike.base, halike.size] at hreach
  rw [← hbytes]
  refine (bytes_congr hlocate hlocate' halike.base halike.size (Bytes.slice_congr ?_)).symm
  intro index hlow hhigh
  have hsame := halike.bytes (block.base + index) ⟨by omega, by omega⟩
    (havoid _ (Set.mem_Ico.2 ⟨by omega, by omega⟩))
  rwa [Nat.add_sub_cancel_left] at hsame

theorem StaysFrom.readText_eq (h : heap.StaysFrom start touched heap') (hsound : heap.Sound)
    (hfits : heap'.next ≤ twoPow 64) (hstart : start ≤ handle.toNat)
    (hnext : handle.toNat < heap.next) {text : String} (htext : heap'.readText handle = .ok text)
    (havoid : ∀ block, heap.locate? handle.toNat = some block →
      ∀ addr, block.Contains addr → addr ∉ touched) :
    heap.readText handle = .ok text := by
  cases hlocate' : heap'.locate? handle.toNat with
  | none =>
      rw [readText, hlocate'] at htext
      cases htext
  | some block' =>
      obtain ⟨block, hlocate, halike⟩ := h.found hsound hfits hstart hnext hlocate'
      rw [← htext]
      refine (readText_congr hlocate hlocate' halike.base halike.size fun addr haddr => ?_).symm
      obtain ⟨_, hfound, hle, hreach, _⟩ := haddr
      obtain rfl := Option.some.inj (hlocate.symm.trans hfound)
      have hbase := (of_locate?_eq_some hlocate).2.1
      have hcontains : block.Contains addr := ⟨Nat.le_trans hbase hle, hreach⟩
      exact halike.bytes addr hcontains (havoid block hlocate addr hcontains)

/-- A write from an address on that was in a block reaches at most as far as the blocks of that time,
since it stays in the block that is found there. -/
theorem StaysFrom.slot_subset_of_write {early : Heap} {u : Unit}
    (h : early.StaysFrom start touched heap) (hsound : early.Sound)
    (hfits : heap'.next ≤ twoPow 64) (hstart : start ≤ handle.toNat)
    (hnext : handle.toNat < early.next)
    (hwrite : write handle descriptor 0 value heap = .ok u heap') :
    handle.slot 0 (descriptor.slotSize pointerSize) ⊆ Set.Ico handle.toNat early.next := by
  intro addr haddr
  have hlater := (h.mono (Set.subset_univ touched)).trans
    (((framed_of_write_eq_ok hwrite).staysFrom start).mono (Set.subset_univ _))
  cases hdescriptor : descriptor.isNull with
  | true =>
      cases descriptor with
      | null =>
          rw [Handle.slot, Set.mem_Ico] at haddr
          exact absurd haddr.2 (Nat.not_lt_of_le haddr.1)
      | _ => cases hdescriptor
  | false =>
      obtain ⟨new, hnew, hstore⟩ := exists_store_of_write_eq_ok hdescriptor hwrite
      obtain ⟨block, hmem, hcontains, _, hslot⟩ :=
        exists_block_store ((h.sound hsound).withText descriptor value) hstore
      rw [length_of_slotBytes_eq_ok hnew] at hslot
      have hlocate := (hlater.sound hsound).locate?_eq_some_iff.2 ⟨hmem, hcontains⟩
      obtain ⟨found, hfound, halike⟩ := hlater.found hsound hfits hstart hnext hlocate
      have hbelow := hsound.below found (of_locate?_eq_some hfound).1
      have hreach := (hslot addr haddr).2
      rw [halike.base, halike.size] at hreach
      rw [Handle.slot, Nat.add_zero, Set.mem_Ico] at haddr
      exact ⟨haddr.1, Nat.lt_of_lt_of_le hreach hbelow⟩

/-! ## Slots of scalars -/

theorem of_readPointer_eq_ok {target : Handle} (h : heap.readPointer handle offset = .ok target) :
    ∃ bytes, heap.bytes handle offset pointerSize = .ok bytes ∧
      target = .ofNat (littleEndian bytes) := by
  unfold readPointer at h
  cases hbytes : heap.bytes handle offset pointerSize with
  | error error =>
      rw [hbytes] at h
      cases h
  | ok bytes =>
      rw [hbytes] at h
      cases h
      exact ⟨bytes, rfl, rfl⟩

theorem of_read_primitive_eq_ok {kind : PrimitiveKind}
    (h : heap.read handle (.primitive kind size) offset = .ok found) :
    ∃ bytes, heap.bytes handle offset size = .ok bytes ∧ found = kind.decode bytes := by
  unfold read at h
  split at h
  · cases h
  · dsimp only at h
    cases hbytes : heap.bytes handle offset size with
    | error error =>
        rw [hbytes] at h
        cases h
    | ok bytes =>
        rw [hbytes] at h
        cases h
        exact ⟨bytes, rfl, rfl⟩

/-- A text is read at the address that is stored. -/
theorem of_read_string_eq_ok {ownership : Ownership}
    (h : heap.read handle (.string ownership) offset = .ok found) :
    ∃ target, heap.readPointer handle offset = .ok target ∧
      (target.isNull = true ∧ found = .null ∨
        target.isNull = false ∧ ∃ text, heap.readText target = .ok text ∧ found = .string text) := by
  unfold read at h
  split at h
  · cases h
  · dsimp only at h
    cases htarget : heap.readPointer handle offset with
    | error error =>
        rw [htarget] at h
        cases h
    | ok target =>
        rw [htarget] at h
        refine ⟨target, rfl, ?_⟩
        change (if target.isNull then _ else _) = _ at h
        split at h
        next hnull =>
          cases h
          exact .inl ⟨hnull, rfl⟩
        next hthere =>
          refine .inr ⟨Bool.eq_false_iff.2 hthere, ?_⟩
          cases htext : heap.readText target with
          | error error =>
              rw [htext] at h
              cases h
          | ok text =>
              rw [htext] at h
              cases h
              exact ⟨text, rfl, rfl⟩

/-- The slot holds a scalar, and whatever is read for it lies in a region. -/
structure HoldsIn (mine : Set Nat) (heap : Heap) (handle : Handle) (descriptor : Descriptor)
    (value : Value) : Prop where
  holds : heap.Holds 0 handle 0 descriptor value
  slot : handle.slot 0 (descriptor.slotSize pointerSize) ⊆ mine
  text : ∀ ownership target, descriptor = .string ownership →
    heap.readPointer handle 0 = .ok target → target.isNull = false →
      ∃ block, heap.locate? target.toNat = some block ∧ ∀ addr, block.Contains addr → addr ∈ mine

/-- What is read again is what was held. -/
theorem HoldsIn.read_eq (h : heap.HoldsIn mine handle descriptor value) (hsound : heap.Sound)
    (hstays : heap.StaysFrom start mineᶜ heap') (hfits : heap'.next ≤ twoPow 64)
    (hstart : start ≤ handle.toNat) (hmine : mine ⊆ Set.Ici start)
    (hread : heap'.read handle descriptor 0 = .ok found) :
    heap.read handle descriptor 0 = .ok found := by
  obtain ⟨block, hlocate⟩ := h.holds.exists_locate?
  have hnext := hsound.lt_next hlocate
  -- what is read lies in the slot, which has not been touched
  have hkept : ∀ size new, size ≤ descriptor.slotSize pointerSize →
      heap'.bytes handle 0 size = .ok new → heap.bytes handle 0 size = .ok new :=
    fun size new hsize hbytes => hstays.bytes_eq hsound hfits hstart hnext hbytes
      fun addr haddr hother => hother (h.slot (by
        simp only [Handle.slot, Set.mem_Ico] at haddr ⊢
        omega))
  have hthere := hsound.isNull_eq_false hlocate
  cases descriptor with
  | primitive kind size =>
      obtain ⟨bytes, hbytes, rfl⟩ := of_read_primitive_eq_ok hread
      exact read_primitive hthere (hkept size bytes (Nat.le_refl _) hbytes)
  | string ownership =>
      obtain ⟨target, htarget, hcase⟩ := of_read_string_eq_ok hread
      obtain ⟨bytes, hbytes, rfl⟩ := of_readPointer_eq_ok htarget
      have hpointer : heap.readPointer handle 0 = .ok (.ofNat (littleEndian bytes)) := by
        rw [readPointer, hkept pointerSize bytes (Nat.le_refl _) hbytes]
        rfl
      rw [read_string_eq hthere hpointer]
      rcases hcase with ⟨hnull, rfl⟩ | ⟨hpresent, text, htext, rfl⟩
      · rw [hnull, if_pos rfl]
      · obtain ⟨block', hlocate', hinside⟩ := h.text ownership _ rfl hpointer hpresent
        have hlow : start ≤ _ := hmine (hinside _ (of_locate?_eq_some hlocate').2)
        have hkeptText := hstays.readText_eq hsound hfits hlow (hsound.lt_next hlocate') htext
          fun block hblock addr hcontains hother => hother (by
            obtain rfl := Option.some.inj (hlocate'.symm.trans hblock)
            exact hinside addr hcontains)
        rw [hpresent, if_neg Bool.false_ne_true, hkeptText]
        rfl
  | _ => cases h.holds

theorem represent?_of_plain (hplain : descriptor.Plain value)
    (h : heap.represent? descriptor value = some (.ok found)) :
    descriptor.represent? value = some found := by
  cases descriptor with
  | primitive kind size =>
      obtain ⟨read, hread, hfound⟩ := Option.map_eq_some_iff.1 h
      cases hfound
      exact hread
  | string ownership =>
      rcases represent?_string_cases h with ⟨text, rfl, rfl⟩ | ⟨target, htarget, hcase⟩
      · rfl
      · obtain ⟨hnull, hform⟩ := hplain.isNull htarget
        rcases hcase with ⟨_, rfl⟩ | ⟨hthere, _⟩
        · exact hform
        · rw [hnull] at hthere
          cases hthere
  | _ => cases h

/-- A scalar that is held is read again, if at all, in the form in which values like it are read. -/
theorem HoldsIn.represent?_eq (h : heap.HoldsIn mine handle descriptor value)
    (hplain : descriptor.Plain value) (hsound : heap.Sound)
    (hstays : heap.StaysFrom start mineᶜ heap') (hfits : heap'.next ≤ twoPow 64)
    (hstart : start ≤ handle.toNat) (hmine : mine ⊆ Set.Ici start)
    (hread : heap'.read handle descriptor 0 = .ok found) :
    descriptor.represent? value = some found := by
  obtain ⟨block, hlocate⟩ := h.holds.exists_locate?
  have hheld := h.holds.represent?_eq hsound (hsound.isNull_eq_false hlocate)
  rw [h.read_eq hsound hstays hfits hstart hmine hread] at hheld
  exact represent?_of_plain hplain hheld

/-- A slot that holds something lies in front of all that is still to come. -/
theorem Holds.slot_subset (h : heap.Holds bound handle 0 descriptor value) (hsound : heap.Sound) :
    handle.slot 0 (descriptor.slotSize pointerSize) ⊆ Set.Ico handle.toNat heap.next := by
  obtain ⟨new, hbytes⟩ : ∃ new, heap.bytes handle 0 (descriptor.slotSize pointerSize) = .ok new := by
    cases h with
    | number _ hbytes | text _ hbytes _ _ _ | address _ _ hbytes => exact ⟨_, hbytes⟩
  obtain ⟨block, hlocate, hreach, _⟩ := of_bytes_eq_ok hbytes
  obtain ⟨hmem, hbase, _⟩ := of_locate?_eq_some hlocate
  have hbelow := hsound.below block hmem
  intro addr haddr
  simp only [Handle.slot, Set.mem_Ico] at haddr ⊢
  omega

/-- What is held for a plain value lies in the slot and in a block that was made behind a bound. -/
theorem Holds.holdsIn (h : heap.Holds bound handle 0 descriptor value)
    (hplain : descriptor.Plain value) (hsound : heap.Sound)
    (hslot : handle.slot 0 (descriptor.slotSize pointerSize) ⊆ mine)
    (hbehind : ∀ addr, bound ≤ addr → addr < heap.next → addr ∈ mine) :
    heap.HoldsIn mine handle descriptor value := by
  refine ⟨h.mono (Nat.zero_le _), hslot, ?_⟩
  rintro ownership target rfl hpointer hthere
  cases h with
  | @text _ text target' block hbytes hlocate hbound htext =>
      obtain rfl := Except.ok.inj ((readPointer_eq_ok hbytes).symm.trans hpointer)
      refine ⟨block, hlocate, fun addr hcontains => hbehind addr ?_ ?_⟩
      · exact Nat.le_trans hbound hcontains.1
      · exact Nat.lt_of_lt_of_le hcontains.2 (hsound.below block (of_locate?_eq_some hlocate).1)
  | @address _ _ target' htarget hbytes =>
      obtain rfl := Except.ok.inj ((readPointer_eq_ok hbytes).symm.trans hpointer)
      rw [(hplain.isNull htarget).1] at hthere
      cases hthere

/-- What is held in a new block is zero, false or null. -/
theorem holds_blank (hscalar : descriptor.IsScalar)
    (hbytes : heap.bytes handle 0 (descriptor.slotSize pointerSize) =
      .ok (List.replicate (descriptor.slotSize pointerSize) 0)) :
    heap.Holds bound handle 0 descriptor descriptor.blank := by
  cases descriptor with
  | primitive kind size =>
      obtain rfl : size = kind.size pointerSize := hscalar
      have hencode : kind.encode (kind.size pointerSize) kind.blank = .ok 0 := by
        cases kind <;> rfl
      have hzeros : bytesOf (kind.size pointerSize) 0 =
          List.replicate (kind.size pointerSize) 0 := by
        cases kind <;> decide
      exact .number hencode (hzeros ▸ hbytes)
  | string ownership =>
      have hzeros : bytesOf pointerSize Handle.null.toNat = List.replicate pointerSize 0 := by
        decide
      exact .address ownership rfl (hzeros ▸ hbytes)
  | _ => exact hscalar.elim

end Heap

end Interop
