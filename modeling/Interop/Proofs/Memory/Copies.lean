import Interop.Proofs.Memory.Arrays
import Interop.Proofs.Memory.Rows

/-! # Copies of records

A record is copied into a block that is made for it. The copy lies behind everything that was there
before, nothing of which is touched, and it is there as long as its block is.
-/

namespace Interop

namespace Heap

variable {heap heap' : Heap} {handle source : Handle} {typeName innerType library : String}
  {size start : Nat} {own : Ownership} {touched : Set Nat} {bytes : List UInt8}

/-- A live block that was made for a record of a type starts at the handle. It has one reference. -/
def Starts (heap : Heap) (handle : Handle) (typeName : String) (size : Nat) : Prop :=
  ∃ block, heap.locate? handle.toNat = some block ∧ block.base = handle.toNat ∧
    block.size = max size 1 ∧ block.typeName = some typeName ∧ block.refs = 1

theorem Starts.of_keepsFrom (h : heap.Starts handle typeName size)
    (hkeeps : heap.KeepsFrom start touched heap') (hsound' : heap'.Sound)
    (hstart : start ≤ handle.toNat) : heap'.Starts handle typeName size := by
  obtain ⟨block, hlocate, hbase, hsize, htype, hrefs⟩ := h
  obtain ⟨block', hlocate', hsame⟩ := hkeeps.exists_locate? hsound' hlocate (hbase ▸ hstart)
  exact ⟨block', hlocate', hsame.base.trans hbase, hsame.size.trans hsize,
    hsame.typeName.trans htype, hsame.refs.trans hrefs⟩

/-- Bytes that lie in a block of their own stay there as long as it is kept. -/
theorem Starts.bytes_eq (h : heap.Starts handle typeName size)
    (hkeeps : heap.KeepsFrom start ∅ heap') (hsound' : heap'.Sound)
    (hstart : start ≤ handle.toNat) (hbytes : heap.bytes handle 0 size = .ok bytes) :
    heap'.bytes handle 0 size = .ok bytes := by
  obtain ⟨block, hlocate, hbase, _⟩ := h
  exact hkeeps.bytes_eq hsound' hlocate (hbase ▸ hstart) hbytes fun _ _ => Set.notMem_empty _

/-- A block starts where it is made. -/
theorem starts_alloc (hsound : heap.Sound) (hfits : heap.next < twoPow 64) (typeName : String)
    (size : Nat) : (heap.alloc size (some typeName)).2.Starts (.ofNat heap.next) typeName size := by
  have hhandle := Handle.toNat_ofNat_of_lt hfits
  have hlocate := hsound.locate?_alloc size (some typeName)
  rw [← hhandle] at hlocate
  exact ⟨_, hlocate, hhandle.symm, rfl, rfl, rfl⟩

theorem Starts.lt_next (h : heap.Starts handle typeName size) (hsound : heap.Sound) :
    handle.toNat < heap.next := by
  obtain ⟨block, hlocate, _⟩ := h
  exact hsound.lt_next hlocate

/-- What is written to a new block is written to where nothing was. -/
theorem framed_write_alloc (heap : Heap) (size : Nat) (typeName : Option String)
    (descriptor : Descriptor) (value : Value) :
    heap.Framed ∅ (Steps.ending (write (.ofNat heap.next) descriptor 0 value
      (heap.alloc size typeName).2)) := by
  refine (framed_alloc heap size typeName).of_fresh
    (Nat.lt_of_le_of_lt (Nat.le_add_right _ _) (lt_next_alloc _ _ _))
    ((framed_write _ _ _ _ _).mono fun addr haddr _ => ?_)
  exact Nat.le_trans (Nat.le_add_right _ _) (Set.mem_Ico.1 haddr).1

section Copy

variable {u : Unit}
  (h : write (.ofNat heap.next) (.struct innerType library size true own) 0 (.pointer source)
    (heap.alloc size (some typeName)).2 = .ok u heap')
include h

theorem next_lt_of_copy : heap.next < heap'.next :=
  Nat.lt_of_lt_of_le
    (Nat.lt_of_le_of_lt (Nat.le_add_right _ _) (lt_next_alloc heap size (some typeName)))
    (framed_of_write_eq_ok h).next_le

/-- A record is copied to where nothing was. -/
theorem framed_of_copy : heap.Framed ∅ heap' := by
  have hframed := framed_write_alloc heap size (some typeName)
    (.struct innerType library size true own) (.pointer source)
  rwa [h] at hframed

/-- The copy lies in a block of its own. -/
theorem starts_of_copy (hsound : heap.Sound) (hfits : heap'.next ≤ twoPow 64) :
    heap'.Starts (.ofNat heap.next) typeName size := by
  have hmade := hsound.alloc size (some typeName)
  have hwritten := framed_of_write_eq_ok h
  have hstarts := starts_alloc hsound (Nat.lt_of_lt_of_le (next_lt_of_copy h) hfits) typeName size
  exact hstarts.of_keepsFrom (hwritten.keepsFrom hmade hfits 0) (hwritten.sound hmade)
    (Nat.zero_le _)

/-- The copy holds what the record holds. -/
theorem bytes_of_copy (hsound : heap.Sound) (hbytes : heap.recordBytes source size = .ok bytes) :
    heap'.bytes (.ofNat heap.next) 0 size = .ok bytes := by
  obtain ⟨found, stored, hfound, hstored, hstore⟩ := of_write_inPlace_eq_ok h
  obtain rfl : source = found := Option.some.inj hfound
  -- the new block is not where the record is read from
  have hkept := (recordBytes_alloc hsound size (some typeName) hbytes).1
  obtain rfl : stored = bytes := Except.ok.inj (hstored.symm.trans hkept)
  have hself := bytes_store_self (hsound.alloc _ _) hstore
  rwa [length_of_recordBytes_eq_ok hstored] at hself

end Copy

end Heap

end Interop
