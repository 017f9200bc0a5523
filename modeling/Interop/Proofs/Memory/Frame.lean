import Mathlib.Order.Interval.Set.Basic
import Interop.Proofs.Memory.Spaced
import Interop.Proofs.Memory.Writes

/-! # What a write leaves alone

A write touches the bytes of its slot, which lie in one block, and no others. The blocks stay where
they are, with their sizes, type names and references; the only new one is that of a text.
-/

namespace Interop

/-- The addresses of so many bytes from an offset on. -/
def Handle.slot (handle : Handle) (offset size : Nat) : Set Nat :=
  Set.Ico (handle.toNat + offset) (handle.toNat + offset + size)

/-- The addresses of the first slots in a row. -/
def Handle.slots (handle : Handle) (offset stride size count : Nat) : Set Nat :=
  {addr | ∃ index < count, addr ∈ handle.slot (offset + index * stride) size}

namespace Block

/-- The blocks lie in the same place and are alike, but for bytes at some addresses. -/
structure SameBut (touched : Set Nat) (block block' : Block) : Prop where
  base : block'.base = block.base
  size : block'.size = block.size
  typeName : block'.typeName = block.typeName
  refs : block'.refs = block.refs
  bytes : ∀ addr, block.Contains addr → addr ∉ touched →
    block'.bytes.get (addr - block.base) = block.bytes.get (addr - block.base)

namespace SameBut

variable {touched touched' : Set Nat} {block block' block'' : Block} {addr : Nat}

theorem refl (touched : Set Nat) (block : Block) : block.SameBut touched block :=
  ⟨rfl, rfl, rfl, rfl, fun _ _ _ => rfl⟩

theorem contains_iff (h : block.SameBut touched block') :
    block'.Contains addr ↔ block.Contains addr := by
  rw [Contains, Contains, h.base, h.size]

theorem trans (h : block.SameBut touched block') (h' : block'.SameBut touched block'') :
    block.SameBut touched block'' := by
  refine ⟨h'.base.trans h.base, h'.size.trans h.size, h'.typeName.trans h.typeName,
    h'.refs.trans h.refs, fun addr hcontains haddr => ?_⟩
  have hfirst := h.bytes addr hcontains haddr
  have hsecond := h'.bytes addr (h.contains_iff.2 hcontains) haddr
  rw [h.base] at hsecond
  exact hsecond.trans hfirst

/-- Only the addresses in the block matter. -/
theorem mono (h : block.SameBut touched block')
    (hsub : ∀ addr ∈ touched, block.Contains addr → addr ∈ touched') :
    block.SameBut touched' block' :=
  { h with bytes := fun addr hcontains haddr =>
      h.bytes addr hcontains fun htouched => haddr (hsub addr htouched hcontains) }

end SameBut

end Block

namespace Heap

variable {heap heap' heap'' : Heap} {handle : Handle} {descriptor : Descriptor} {value : Value}
  {offset size : Nat} {new : List UInt8} {touched touched' : Set Nat}

/-! ## Storing bytes -/

/-- Storing bytes leaves all blocks as they are, but for the slot of the bytes. -/
theorem sameBut_store (hsound : heap.Sound) (h : heap.store handle offset new = .ok heap') :
    List.Forall₂ (Block.SameBut (handle.slot offset new.length)) heap.blocks heap'.blocks := by
  obtain ⟨written, hlocate, _, rfl⟩ := of_store_eq_ok h
  have hwritten := (of_locate?_eq_some hlocate).2.1
  rw [hsound.blocks_modifyBlock, List.forall₂_map_right_iff, List.forall₂_same]
  intro block _
  rw [onlyAt]
  split
  next hbase =>
    refine ⟨rfl, rfl, rfl, rfl, fun addr hcontains haddr => ?_⟩
    have hbase := eq_of_beq hbase
    have hlow := hcontains.1
    rw [Handle.slot, Set.mem_Ico] at haddr
    rw [Block.write, Bytes.get_overwrite, if_neg (by omega)]
  next => exact .refl _ _

/-- Bytes are stored in the one block that their handle leads to. -/
theorem exists_block_store (hsound : heap.Sound) (h : heap.store handle offset new = .ok heap') :
    ∃ block ∈ heap'.blocks, block.Contains handle.toNat ∧
      (∀ other ∈ heap'.blocks, other.Contains handle.toNat → other = block) ∧
      ∀ addr ∈ handle.slot offset new.length, block.Contains addr := by
  obtain ⟨old, hlocate, hfits, hafter⟩ := locate?_store hsound h handle.toNat
  rw [hlocate, Option.map_some, onlyAt_self] at hafter
  obtain ⟨hmem, hcontains⟩ := (hsound.store h).locate?_eq_some_iff.1 hafter
  refine ⟨_, hmem, hcontains, fun other hother hthere => ?_, fun addr haddr => ?_⟩
  · have hfound := (hsound.store h).locate?_eq_some_iff.2 ⟨hother, hthere⟩
    exact Option.some.inj (hfound.symm.trans hafter)
  · obtain ⟨hbase, _⟩ := hcontains
    rw [Handle.slot, Set.mem_Ico] at haddr
    rw [Block.Contains]
    simp only [Block.write] at hbase ⊢
    omega

/-! ## Writing values -/

/-- The block that is made for a text. -/
def textBlock (heap : Heap) (text : String) : Block :=
  (heap.fresh ((Utf8.encode text).length + 1) none).write 0 (Utf8.encode text)

theorem blocks_allocText (hroom : heap.next < twoPow 64) (text : String) :
    (heap.allocText text).2.blocks = heap.textBlock text :: heap.blocks := by
  have hbase : (heap.fresh ((Utf8.encode text).length + 1) none).base == heap.next := by
    exact beq_self_eq_true _
  rw [allocText]
  simp only [modifyBlock, toNat_alloc hroom, blocks_alloc, modifyFirst, hbase, if_true]
  rfl

theorem Sound.withText (hsound : heap.Sound) (descriptor : Descriptor) (value : Value) :
    (heap.withText descriptor value).Sound := by
  rcases heap.withText_cases descriptor value with hsame | ⟨_, text, _, _, hmade⟩
  · rwa [hsame]
  · rw [hmade]
    exact hsound.allocText text

/-- A successful write touches the bytes of its slot, and all of them lie in the one block that its
handle leads to then, which is the block of the text if the handle led nowhere before. Every block
stays as it is otherwise, and there is no other in the end but the one of a text that is written. -/
theorem sameBut_slot_of_write_eq_ok (hsound : heap.Sound) (hroom : heap.next < twoPow 64)
    (hdescriptor : descriptor.isNull = false) {u : Unit}
    (h : write handle descriptor offset value heap = .ok u heap') :
    (∃ made : List Block,
      (made = [] ∨ ∃ ownership text, descriptor = .string ownership ∧ value = .string text ∧
        made = [heap.textBlock text]) ∧
      List.Forall₂ (Block.SameBut (handle.slot offset (descriptor.slotSize pointerSize)))
        (made ++ heap.blocks) heap'.blocks) ∧
    ∃ block ∈ heap'.blocks, block.Contains handle.toNat ∧
      (∀ other ∈ heap'.blocks, other.Contains handle.toNat → other = block) ∧
      ∀ addr ∈ handle.slot offset (descriptor.slotSize pointerSize), block.Contains addr := by
  obtain ⟨new, hnew, hstore⟩ := exists_store_of_write_eq_ok hdescriptor h
  have hready := hsound.withText descriptor value
  rw [← length_of_slotBytes_eq_ok hnew]
  refine ⟨?_, exists_block_store hready hstore⟩
  have hkept := sameBut_store hready hstore
  rcases heap.withText_cases descriptor value with hsame | ⟨ownership, text, hstring, htext, hmade⟩
  · rw [hsame] at hkept
    exact ⟨[], .inl rfl, hkept⟩
  · rw [hmade, blocks_allocText hroom] at hkept
    exact ⟨_, .inr ⟨ownership, text, hstring, htext, rfl⟩, hkept⟩

/-- A heap with two blocks, one behind the other. -/
def neighbours : Heap := ((({} : Heap).alloc 16 none).2.alloc 16 none).2

theorem sound_neighbours : neighbours.Sound := (sound_empty.alloc _ _).alloc _ _

/-- A text whose address is written up to the end of a block leaves the next one alone. -/
theorem interior_text_touches_slot :
    let written := Steps.ending
      (write (.ofNat 0x1004) (.string .none) 4 (.string "x") neighbours)
    ∃ made : List Block, made.length ≤ 1 ∧
      List.Forall₂ (Block.SameBut (Handle.slot (.ofNat 0x1004) 4 8))
        (made ++ neighbours.blocks) written.blocks := by
  have hwritten : (Steps.value? (write (.ofNat 0x1004) (.string .none) 4 (.string "x")
      neighbours)).isSome = true := by decide +kernel
  obtain ⟨⟨made, hmade, hkept⟩, _⟩ := sameBut_slot_of_write_eq_ok sound_neighbours (by decide) rfl
    (Steps.eq_ok_of_isSome ⟨⟩ hwritten)
  refine ⟨made, ?_, hkept⟩
  rcases hmade with rfl | ⟨_, _, _, _, rfl⟩
  · exact Nat.zero_le 1
  · exact Nat.le_refl 1

/-! ## Several changes -/

/-- The blocks of one heap are those of the other, alike but for bytes at some addresses, and any
further ones lie where the first had not come to yet. -/
structure Keeps (touched : Set Nat) (heap heap' : Heap) : Prop where
  kept : ∀ block ∈ heap.blocks, ∃ block' ∈ heap'.blocks, block.SameBut touched block'
  made : ∀ block' ∈ heap'.blocks,
    (∃ block ∈ heap.blocks, block.SameBut touched block') ∨ heap.next ≤ block'.base

theorem keeps_of_forall₂ (h : List.Forall₂ (Block.SameBut touched) heap.blocks heap'.blocks) :
    heap.Keeps touched heap' := by
  refine ⟨fun block hblock => ?_, fun block' hblock' => ?_⟩
  · obtain ⟨index, hindex⟩ := List.getElem?_of_mem hblock
    obtain ⟨block', hblock', hsame⟩ := Steps.exists_getElem?_of_forall₂ h hindex
    exact ⟨block', List.mem_of_getElem? hblock', hsame⟩
  · obtain ⟨index, hindex⟩ := List.getElem?_of_mem hblock'
    obtain ⟨block, hblock, hsame⟩ := Steps.exists_getElem?_of_forall₂ h.flip hindex
    exact .inl ⟨block, List.mem_of_getElem? hblock, hsame⟩

theorem keeps_of_cons {block : Block} (hblocks : heap'.blocks = block :: heap.blocks)
    (hbase : heap.next ≤ block.base) : heap.Keeps touched heap' := by
  refine ⟨fun old hold => ⟨old, ?_, .refl _ _⟩, fun other hother => ?_⟩
  · rw [hblocks]
    exact List.mem_cons_of_mem block hold
  · rw [hblocks] at hother
    rcases List.mem_cons.1 hother with rfl | hold
    · exact .inr hbase
    · exact .inl ⟨other, hold, .refl _ _⟩

theorem keeps_refl (touched : Set Nat) (heap : Heap) : heap.Keeps touched heap :=
  keeps_of_forall₂ (List.forall₂_same.2 fun _ _ => .refl _ _)

theorem Keeps.trans (h : heap.Keeps touched heap') (h' : heap'.Keeps touched heap'')
    (hnext : heap.next ≤ heap'.next) : heap.Keeps touched heap'' := by
  constructor
  case kept =>
    intro block hblock
    obtain ⟨block', hblock', hsame⟩ := h.kept block hblock
    obtain ⟨block'', hblock'', hsame'⟩ := h'.kept block' hblock'
    exact ⟨block'', hblock'', hsame.trans hsame'⟩
  case made =>
    intro block'' hblock''
    rcases h'.made block'' hblock'' with ⟨block', hblock', hsame'⟩ | hnew
    · rcases h.made block' hblock' with ⟨block, hblock, hsame⟩ | hnew
      · exact .inl ⟨block, hblock, hsame.trans hsame'⟩
      · exact .inr (hsame'.base ▸ hnew)
    · exact .inr (Nat.le_trans hnext hnew)

/-- Addresses that no block had come to do not count. -/
theorem Keeps.mono (h : heap.Keeps touched heap') (hsound : heap.Sound)
    (hsub : ∀ addr ∈ touched, addr < heap.next → addr ∈ touched') :
    heap.Keeps touched' heap' := by
  have hsame : ∀ block ∈ heap.blocks, ∀ block', block.SameBut touched block' →
      block.SameBut touched' block' := by
    intro block hblock block' hsame
    refine hsame.mono fun addr haddr ⟨_, hreach⟩ => hsub addr haddr ?_
    exact Nat.lt_of_lt_of_le hreach (hsound.below block hblock)
  refine ⟨fun block hblock => ?_, fun block' hblock' => ?_⟩
  · obtain ⟨block', hblock', hkept⟩ := h.kept block hblock
    exact ⟨block', hblock', hsame block hblock block' hkept⟩
  · refine (h.made block' hblock').imp_left fun ⟨block, hblock, hkept⟩ => ?_
    exact ⟨block, hblock, hsame block hblock block' hkept⟩

/-- An address in a block leads to the block that it has become. -/
theorem locate?_of_sameBut (hsound : heap'.Sound) {block block' : Block} {addr : Nat}
    (hlocate : heap.locate? addr = some block) (hmem : block' ∈ heap'.blocks)
    (hsame : block.SameBut touched block') : heap'.locate? addr = some block' :=
  hsound.locate?_eq_some_iff.2 ⟨hmem, hsame.contains_iff.2 (of_locate?_eq_some hlocate).2⟩

/-- Bytes that are not touched are read as before. -/
theorem bytes_eq_of_sameBut {block block' : Block}
    (hlocate : heap.locate? handle.toNat = some block)
    (hlocate' : heap'.locate? handle.toNat = some block') (hsame : block.SameBut touched block')
    (hbytes : heap.bytes handle offset size = .ok new)
    (havoid : ∀ addr ∈ handle.slot offset size, addr ∉ touched) :
    heap'.bytes handle offset size = .ok new := by
  obtain ⟨found, hfound, hfits, _⟩ := of_bytes_eq_ok hbytes
  obtain rfl : block = found := Option.some.inj (hlocate.symm.trans hfound)
  obtain ⟨_, hbase, hreach⟩ := of_locate?_eq_some hlocate
  rw [← hbytes]
  refine bytes_congr hlocate hlocate' hsame.base hsame.size (Bytes.slice_congr ?_)
  intro index hlow hhigh
  have hsameByte := hsame.bytes (block.base + index) ⟨by omega, by omega⟩
    (havoid _ (Set.mem_Ico.2 ⟨by omega, by omega⟩))
  rwa [Nat.add_sub_cancel_left] at hsameByte

theorem Keeps.bytes_eq (h : heap.Keeps touched heap') (hsound : heap'.Sound)
    (hbytes : heap.bytes handle offset size = .ok new)
    (havoid : ∀ addr ∈ handle.slot offset size, addr ∉ touched) :
    heap'.bytes handle offset size = .ok new := by
  obtain ⟨block, hlocate, _, _⟩ := of_bytes_eq_ok hbytes
  obtain ⟨block', hmem', hsame⟩ := h.kept block (of_locate?_eq_some hlocate).1
  exact bytes_eq_of_sameBut hlocate (locate?_of_sameBut hsound hlocate hmem' hsame) hsame hbytes
    havoid

/-- One heap comes after the other by changes that touch at most some of the bytes, as long as there
are addresses for new blocks. -/
structure Framed (touched : Set Nat) (heap heap' : Heap) : Prop where
  next_le : heap.next ≤ heap'.next
  sound : heap.Sound → heap'.Sound
  keeps : heap.Sound → heap'.next ≤ twoPow 64 → heap.Keeps touched heap'

theorem framed_refl (touched : Set Nat) (heap : Heap) : heap.Framed touched heap :=
  ⟨Nat.le_refl _, id, fun _ _ => keeps_refl touched heap⟩

theorem Framed.trans (h : heap.Framed touched heap') (h' : heap'.Framed touched heap'') :
    heap.Framed touched heap'' := by
  refine ⟨Nat.le_trans h.next_le h'.next_le, h'.sound ∘ h.sound, fun hsound hroom => ?_⟩
  have hfirst := h.keeps hsound (Nat.le_trans h'.next_le hroom)
  exact hfirst.trans (h'.keeps (h.sound hsound) hroom) h.next_le

theorem Framed.mono (h : heap.Framed touched heap')
    (hsub : ∀ addr ∈ touched, addr < heap.next → addr ∈ touched') :
    heap.Framed touched' heap' :=
  { h with keeps := fun hsound hroom => (h.keeps hsound hroom).mono hsound hsub }

theorem Framed.of_untouched (h : heap.Framed ∅ heap') : heap.Framed touched heap' :=
  h.mono fun _ haddr => absurd haddr (Set.notMem_empty _)

/-- What lies in a new block has not been there before. -/
theorem Framed.of_fresh (h : heap.Framed ∅ heap') (hlt : heap.next < heap'.next)
    (h' : heap'.Framed (Set.Ici (Handle.ofNat heap.next).toNat) heap'') :
    heap.Framed ∅ heap'' := by
  have hrun : heap.Framed (Set.Ici (Handle.ofNat heap.next).toNat) heap'' :=
    h.of_untouched.trans h'
  refine { hrun with keeps := fun hsound hroom => ?_ }
  refine (hrun.keeps hsound hroom).mono hsound fun addr haddr hbelow => ?_
  rw [Handle.toNat_ofNat_of_lt (Nat.lt_of_lt_of_le hlt (Nat.le_trans h'.next_le hroom))] at haddr
  exact absurd hbelow (Nat.not_lt_of_le haddr)

/-- Bytes are not touched by making a block. -/
theorem framed_alloc (heap : Heap) (size : Nat) (typeName : Option String) :
    heap.Framed ∅ (heap.alloc size typeName).2 := by
  have hstep : heap.Step (heap.alloc size typeName).2 := .alloc heap size typeName
  exact ⟨hstep.next_le, hstep.sound, fun _ _ => keeps_of_cons rfl (Nat.le_refl _)⟩

theorem framed_allocText (heap : Heap) (text : String) :
    heap.Framed ∅ (heap.allocText text).2 := by
  have hstep : heap.Step (heap.allocText text).2 := .allocText heap text
  refine ⟨hstep.next_le, hstep.sound, fun _ hroom => ?_⟩
  have hbelow : heap.next < twoPow 64 := Nat.lt_of_lt_of_le (next_allocText heap text) hroom
  exact keeps_of_cons (blocks_allocText hbelow text) (Nat.le_refl _)

theorem framed_withText (heap : Heap) (descriptor : Descriptor) (value : Value) :
    heap.Framed ∅ (heap.withText descriptor value) := by
  rcases heap.withText_cases descriptor value with hsame | ⟨_, text, _, _, hmade⟩
  · rw [hsame]
    exact framed_refl _ _
  · rw [hmade]
    exact framed_allocText heap text

theorem framed_store (h : heap.store handle offset new = .ok heap') :
    heap.Framed (handle.slot offset new.length) heap' :=
  ⟨Nat.le_of_eq (next_store h).symm, fun hsound => hsound.store h,
    fun hsound _ => keeps_of_forall₂ (sameBut_store hsound h)⟩

/-- A write that fails touches nothing. -/
theorem framed_of_write_eq_error {error : DispatchError}
    (h : write handle descriptor offset value heap = .error error heap') :
    heap.Framed ∅ heap' := by
  have hcase := write_cases heap handle descriptor offset value
  rw [h] at hcase
  cases hcase with
  | refused => exact framed_refl _ _
  | misplaced => exact framed_withText heap descriptor value

theorem framed_write (handle : Handle) (descriptor : Descriptor) (offset : Nat) (value : Value)
    (heap : Heap) :
    heap.Framed (handle.slot offset (descriptor.slotSize pointerSize))
      (Steps.ending (write handle descriptor offset value heap)) := by
  have hcase := write_cases heap handle descriptor offset value
  generalize write handle descriptor offset value heap = result at hcase
  cases hcase with
  | nothing => exact framed_refl _ _
  | refused => exact framed_refl _ _
  | misplaced => exact (framed_withText heap descriptor value).of_untouched
  | stored _ hnew hstore =>
      have hstored := framed_store hstore
      rw [length_of_slotBytes_eq_ok hnew] at hstored
      exact (framed_withText heap descriptor value).of_untouched.trans hstored

end Heap

end Interop
