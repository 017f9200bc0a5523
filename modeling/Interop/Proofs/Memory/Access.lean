import Interop.Proofs.Memory.Scalars
import Interop.Proofs.Memory.Sound
import Interop.Proofs.Steps
import Interop.Proofs.Text.Utf8

/-! # Numbers and texts in memory

A number or a text that was written is read again, and what lies beside the written bytes is read as
before. A text is not stored where its address is: what is read there stays the same as long as
nothing is written to the bytes of the text.
-/

namespace Interop

namespace Heap

variable {heap heap' : Heap} {handle target : Handle} {offset other size : Nat} {new : List UInt8}

/-! ## Bytes of a range -/

theorem bytes_of_fits {block : Block} (h : heap.locate? handle.toNat = some block)
    (hfits : handle.toNat - block.base + offset + size ≤ block.size) :
    heap.bytes handle offset size =
      .ok (block.bytes.slice (handle.toNat - block.base + offset) size) := by
  rw [bytes, span, h]
  dsimp only
  rw [if_pos hfits]
  rfl

/-- Blocks at the same place with the same bytes in a range are read alike there. -/
theorem bytes_congr {block block' : Block} (h : heap.locate? handle.toNat = some block)
    (h' : heap'.locate? handle.toNat = some block') (hbase : block'.base = block.base)
    (hsize : block'.size = block.size)
    (hslice : block'.bytes.slice (handle.toNat - block.base + offset) size =
      block.bytes.slice (handle.toNat - block.base + offset) size) :
    heap'.bytes handle offset size = heap.bytes handle offset size := by
  rw [bytes, bytes, span, span, h, h']
  dsimp only
  rw [hbase, hsize]
  split
  next => exact congrArg Except.ok hslice
  next => rfl

theorem of_bytes_eq_ok (h : heap.bytes handle offset size = .ok new) :
    ∃ block, heap.locate? handle.toNat = some block ∧
      handle.toNat - block.base + offset + size ≤ block.size ∧
      new = block.bytes.slice (handle.toNat - block.base + offset) size := by
  rw [Heap.bytes, span] at h
  cases hlocate : heap.locate? handle.toNat with
  | none =>
      rw [hlocate] at h
      cases h
  | some block =>
      rw [hlocate] at h
      dsimp only at h
      split at h
      next hfits =>
        cases h
        exact ⟨block, rfl, hfits, rfl⟩
      next => cases h

theorem length_of_bytes_eq_ok (h : heap.bytes handle offset size = .ok new) :
    new.length = size := by
  obtain ⟨block, _, _, rfl⟩ := of_bytes_eq_ok h
  exact Bytes.length_slice _ _ _

/-- Where bytes are stored, and how the heap changes. -/
theorem of_store_eq_ok (h : heap.store handle offset new = .ok heap') :
    ∃ block, heap.locate? handle.toNat = some block ∧
      handle.toNat - block.base + offset + new.length ≤ block.size ∧
      heap' = heap.modifyBlock block.base
        (·.write (handle.toNat - block.base + offset) new) := by
  rw [store, span] at h
  cases hlocate : heap.locate? handle.toNat with
  | none =>
      rw [hlocate] at h
      cases h
  | some block =>
      rw [hlocate] at h
      dsimp only at h
      split at h
      next hfits =>
        cases h
        exact ⟨block, rfl, hfits, rfl⟩
      next => cases h

/-- The block in which an address lies, after bytes have been stored. -/
theorem locate?_store (hsound : heap.Sound) (h : heap.store handle offset new = .ok heap')
    (addr : Nat) :
    ∃ block, heap.locate? handle.toNat = some block ∧
      handle.toNat - block.base + offset + new.length ≤ block.size ∧
      heap'.locate? addr = (heap.locate? addr).map
        (onlyAt block.base (·.write (handle.toNat - block.base + offset) new)) := by
  obtain ⟨block, hlocate, hfits, rfl⟩ := of_store_eq_ok h
  exact ⟨block, hlocate, hfits, hsound.locate?_modifyBlock (stays_write _ _) _ _⟩

theorem Sound.store (hsound : heap.Sound) (h : heap.store handle offset new = .ok heap') :
    heap'.Sound := by
  obtain ⟨block, _, _, rfl⟩ := of_store_eq_ok h
  exact hsound.modifyBlock (stays_write _ _) _

theorem next_store (h : heap.store handle offset new = .ok heap') : heap'.next = heap.next := by
  obtain ⟨block, _, _, rfl⟩ := of_store_eq_ok h
  rfl

/-- Bytes are read as they were stored. -/
theorem bytes_store_self (hsound : heap.Sound) (h : heap.store handle offset new = .ok heap') :
    heap'.bytes handle offset new.length = .ok new := by
  obtain ⟨block, hlocate, hfits, hafter⟩ := locate?_store hsound h handle.toNat
  rw [hlocate, Option.map_some, onlyAt_self] at hafter
  rw [bytes_of_fits hafter hfits]
  exact congrArg Except.ok Bytes.slice_overwrite_self

/-- Bytes beside those that were stored are read as before. -/
theorem bytes_store_of_disjoint (hsound : heap.Sound)
    (h : heap.store handle offset new = .ok heap')
    (hdisjoint : offset + new.length ≤ other ∨ other + size ≤ offset) :
    heap'.bytes handle other size = heap.bytes handle other size := by
  obtain ⟨block, hlocate, _, hafter⟩ := locate?_store hsound h handle.toNat
  rw [hlocate, Option.map_some, onlyAt_self] at hafter
  exact bytes_congr hlocate hafter rfl rfl (Bytes.slice_overwrite_of_disjoint (by omega))

/-! ## Texts -/

/-- The address is that of a byte of the text at the target, or of the zero behind it. -/
def InText (heap : Heap) (target : Handle) (addr : Nat) : Prop :=
  ∃ block, heap.locate? target.toNat = some block ∧ target.toNat ≤ addr ∧
    addr < block.base + block.size ∧
    ∀ before, target.toNat ≤ before → before < addr → block.bytes.get (before - block.base) ≠ 0

/-- Blocks at the same place with the same bytes in a text hold the same text. -/
theorem readText_congr {block block' : Block} (h : heap.locate? target.toNat = some block)
    (h' : heap'.locate? target.toNat = some block') (hbase : block'.base = block.base)
    (hsize : block'.size = block.size)
    (hbytes : ∀ addr, heap.InText target addr →
      block'.bytes.get (addr - block.base) = block.bytes.get (addr - block.base)) :
    heap'.readText target = heap.readText target := by
  have hstart := (of_locate?_eq_some h).2.1
  -- what lies behind the first zero is not read, so only the bytes up to it have to agree
  have hsame : ∀ index, target.toNat - block.base ≤ index →
      index < target.toNat - block.base + (block.size - (target.toNat - block.base)) →
      (∀ before, target.toNat - block.base ≤ before → before < index →
        block.bytes.get before ≠ 0) →
      block'.bytes.get index = block.bytes.get index := by
    intro index hle hlt hbefore
    have hindex : block.base + index - block.base = index := Nat.add_sub_cancel_left ..
    rw [← hindex]
    refine hbytes _ ⟨block, h, by omega, by omega, fun before hlow hhigh => ?_⟩
    exact hbefore _ (by omega) (by omega)
  rw [readText, readText, h, h']
  dsimp only
  rw [hbase, hsize, Bytes.firstZero?_congr hsame]
  split
  next stop hstop =>
    obtain ⟨hlow, hhigh, _, hbefore⟩ := Bytes.of_firstZero? hstop
    refine congrArg (fun bytes => Except.ok (Utf8.decode bytes)) (Bytes.slice_congr ?_)
    intro index hle hlt
    refine hsame index hle (by omega) fun before hstart hindex => ?_
    exact hbefore before hstart (by omega)
  next => rfl

/-- A text stays as it is if nothing is stored in its bytes. -/
theorem readText_store (hsound : heap.Sound) (h : heap.store handle offset new = .ok heap')
    (havoid : ∀ addr, heap.InText target addr →
      addr < handle.toNat + offset ∨ handle.toNat + offset + new.length ≤ addr) :
    heap'.readText target = heap.readText target := by
  obtain ⟨written, hlocate, hfits, hafter⟩ := locate?_store hsound h target.toNat
  cases htarget : heap.locate? target.toNat with
  | none =>
      rw [htarget] at hafter
      rw [readText, readText, htarget, hafter]
      rfl
  | some block =>
      rw [htarget] at hafter
      obtain ⟨hbase, hsize⟩ := (stays_write _ _).onlyAt written.base block
      refine readText_congr htarget hafter hbase hsize fun addr haddr => ?_
      have hwhere := havoid addr haddr
      obtain ⟨_, _, hlow, _⟩ := haddr
      have hwritten := (of_locate?_eq_some hlocate).2.1
      have hblock := (of_locate?_eq_some htarget).2.1
      -- only the block of the store changes, and in it the text is avoided
      rw [onlyAt]
      split
      next hsame =>
        have hsame := eq_of_beq hsame
        rw [Block.write, Bytes.get_overwrite, if_neg (by omega)]
      next => rfl

/-! ## Blocks for texts -/

variable {text : String}

theorem toNat_alloc (hfits : heap.next < twoPow 64) (size : Nat) (typeName : Option String) :
    (heap.alloc size typeName).1.toNat = heap.next :=
  Handle.toNat_ofNat_of_lt hfits

theorem toNat_allocText (hfits : heap.next < twoPow 64) (text : String) :
    (heap.allocText text).1.toNat = heap.next :=
  Handle.toNat_ofNat_of_lt hfits

theorem Sound.allocText (hsound : heap.Sound) (text : String) : (heap.allocText text).2.Sound :=
  (hsound.alloc _ _).modifyBlock (stays_write _ _) _

theorem next_allocText (heap : Heap) (text : String) :
    heap.next < (heap.allocText text).2.next := by
  have hlt := lt_next_alloc heap ((Utf8.encode text).length + 1) none
  exact Nat.lt_of_le_of_lt (Nat.le_add_right _ _) hlt

/-- A block for a text changes nothing about the addresses before it. -/
theorem locate?_allocText_of_lt (hsound : heap.Sound) (hfits : heap.next < twoPow 64) {addr : Nat}
    (hlt : addr < heap.next) : (heap.allocText text).2.locate? addr = heap.locate? addr := by
  rw [Heap.allocText]
  dsimp only
  rw [(hsound.alloc _ _).locate?_modifyBlock (stays_write _ _), toNat_alloc hfits,
    locate?_alloc_of_lt _ _ hlt]
  cases hlocate : heap.locate? addr with
  | none => rfl
  | some block =>
      have hbase := (of_locate?_eq_some hlocate).2.1
      rw [Option.map_some, onlyAt, if_neg (by rw [beq_iff_eq]; omega)]

/-- The block of a new text. -/
theorem locate?_allocText_self (hsound : heap.Sound) (hfits : heap.next < twoPow 64) :
    (heap.allocText text).2.locate? heap.next =
      some ((heap.fresh ((Utf8.encode text).length + 1) none).write 0 (Utf8.encode text)) := by
  rw [Heap.allocText]
  dsimp only
  rw [(hsound.alloc _ _).locate?_modifyBlock (stays_write _ _), toNat_alloc hfits,
    hsound.locate?_alloc, Option.map_some]
  exact congrArg some (onlyAt_self (heap.fresh _ none))

/-- A new text is read as it is, unless there are zeros in it. -/
theorem readText_allocText_self (hsound : heap.Sound) (hfits : heap.next < twoPow 64)
    (hzero : '\x00' ∉ text.toList) :
    (heap.allocText text).2.readText (heap.allocText text).1 = .ok text := by
  have hstop : Bytes.firstZero? (Bytes.overwrite ∅ 0 (Utf8.encode text)) 0
      ((Utf8.encode text).length + 1) = some (Utf8.encode text).length := by
    refine Bytes.firstZero?_eq_some (Nat.zero_le _) (by omega) ?_ fun index _ hindex => ?_
    · rw [Bytes.get_overwrite, if_neg (by omega), Bytes.get_empty]
    · rw [Bytes.get_overwrite, if_pos (by omega), Nat.sub_zero, List.getD_eq_getElem?_getD,
        List.getElem?_eq_getElem hindex, Option.getD_some]
      exact Utf8.ne_zero_of_mem_encode hzero _ (List.getElem_mem hindex)
  have hslice : Bytes.slice (Bytes.overwrite ∅ 0 (Utf8.encode text)) 0
      (Utf8.encode text).length = Utf8.encode text := Bytes.slice_overwrite_self
  rw [readText, toNat_allocText hfits, locate?_allocText_self hsound hfits]
  simp only [Block.write, fresh, Nat.sub_self, Nat.sub_zero, Nat.max_eq_left (Nat.le_add_left _ _)]
  rw [hstop]
  dsimp only
  rw [hslice, Utf8.decode_encode]

end Heap

end Interop
