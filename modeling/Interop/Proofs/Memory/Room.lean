import Interop.Proofs.Memory.Copies

/-! # Room for what is written

A write succeeds if there are bytes for the value and room for them in one block. Room stays where it
is while blocks are made and written to.
-/

namespace Interop

namespace Heap

variable {heap heap' : Heap} {handle : Handle} {descriptor : Descriptor} {value : Value}
  {offset size : Nat} {new : List UInt8} {touched : Set Nat}

/-- So many bytes lie in one block from an address on. -/
def Room (heap : Heap) (handle : Handle) (size : Nat) : Prop :=
  ∃ block, heap.locate? handle.toNat = some block ∧
    handle.toNat - block.base + size ≤ block.size

theorem Room.of_framed (h : heap.Room handle size) (hframed : heap.Framed touched heap')
    (hsound : heap.Sound) (hfits : heap'.next ≤ twoPow 64) : heap'.Room handle size := by
  obtain ⟨block, hlocate, hroom⟩ := h
  obtain ⟨block', hlocate', hsame⟩ := (hframed.keepsFrom hsound hfits 0).exists_locate?
    (hframed.sound hsound) hlocate (Nat.zero_le _)
  exact ⟨block', hlocate', by rw [hsame.base, hsame.size]; exact hroom⟩

theorem Room.isNull (h : heap.Room handle size) (hsound : heap.Sound) : handle.isNull = false := by
  obtain ⟨block, hlocate, _⟩ := h
  exact hsound.isNull_eq_false hlocate

/-- The room lies before all that the heap comes to. -/
theorem Room.end_le_next (h : heap.Room handle size) (hsound : heap.Sound) :
    handle.toNat + size ≤ heap.next := by
  obtain ⟨block, hlocate, hroom⟩ := h
  obtain ⟨hmem, hbase, _⟩ := of_locate?_eq_some hlocate
  have hbelow := hsound.below block hmem
  omega

theorem Room.mono {size' : Nat} (h : heap.Room handle size) (hle : size' ≤ size) :
    heap.Room handle size' := by
  obtain ⟨block, hlocate, hroom⟩ := h
  exact ⟨block, hlocate, Nat.le_trans (Nat.add_le_add_left hle _) hroom⟩

theorem Starts.room {typeName : String} (h : heap.Starts handle typeName size) :
    heap.Room handle size := by
  obtain ⟨block, hlocate, hbase, hsize, _⟩ := h
  refine ⟨block, hlocate, ?_⟩
  rw [hbase, hsize, Nat.sub_self, Nat.zero_add]
  exact Nat.le_max_left _ _

theorem room_alloc (hsound : heap.Sound) (hfits : heap.next < twoPow 64) (size : Nat)
    (typeName : Option String) : (heap.alloc size typeName).2.Room (.ofNat heap.next) size := by
  have hhandle := Handle.toNat_ofNat_of_lt hfits
  have hlocate := hsound.locate?_alloc size typeName
  rw [← hhandle] at hlocate
  refine ⟨_, hlocate, ?_⟩
  simp only [hhandle, fresh]
  omega

theorem Room.exists_store (h : heap.Room handle (offset + new.length)) :
    ∃ heap', heap.store handle offset new = .ok heap' := by
  obtain ⟨block, hlocate, hroom⟩ := h
  rw [← Nat.add_assoc] at hroom
  refine ⟨heap.modifyBlock block.base (·.write (handle.toNat - block.base + offset) new), ?_⟩
  rw [store, span, hlocate]
  dsimp only
  rw [if_pos hroom]
  rfl

theorem next_put (handle : Handle) (offset : Nat) (new : List UInt8) (heap : Heap) :
    (Steps.ending (put handle offset new heap)).next = heap.next := by
  rw [put_eq]
  cases hstore : heap.store handle offset new with
  | error error => rfl
  | ok heap' => exact next_store hstore

/-- What there are bytes for is written where there is room. -/
theorem Room.exists_write (h : heap.Room handle (offset + descriptor.slotSize pointerSize))
    (hsound : heap.Sound) (hdescriptor : descriptor.isNull = false)
    (hnew : heap.slotBytes descriptor value = .ok new)
    (hfits : (Steps.ending (write handle descriptor offset value heap)).next ≤ twoPow 64) :
    ∃ heap', write handle descriptor offset value heap = .ok ⟨⟩ heap' := by
  rw [write_eq (h.isNull hsound) hdescriptor, hnew] at hfits ⊢
  dsimp only at hfits ⊢
  rw [next_put] at hfits
  have hready := h.of_framed (framed_withText heap descriptor value) hsound hfits
  rw [← length_of_slotBytes_eq_ok hnew] at hready
  obtain ⟨heap', hstore⟩ := hready.exists_store
  exact ⟨heap', by rw [put_eq, hstore]⟩

end Heap

end Interop
