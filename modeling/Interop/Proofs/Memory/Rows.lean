import Interop.Proofs.Memory.RoundTrip

/-! # Records in a row

An array that records are stored in holds a copy of each, one behind the other. A copy stays as it
is while those behind it are stored, and so does whatever lies beside the array.
-/

namespace Interop

namespace Heap

variable {heap middle heap' : Heap} {handle other source : Handle} {offset start size index : Nat}
  {new bytes : List UInt8} {items : List Value} {item : Value}

/-- Bytes at other addresses are read as before, in whichever block they are. -/
theorem bytes_store_of_apart (hsound : heap.Sound) (h : heap.store handle offset new = .ok heap')
    (hapart : handle.toNat + offset + new.length ≤ other.toNat + start ∨
      other.toNat + start + size ≤ handle.toNat + offset) :
    heap'.bytes other start size = heap.bytes other start size := by
  obtain ⟨written, hlocate, _, hafter⟩ := locate?_store hsound h other.toNat
  cases hother : heap.locate? other.toNat with
  | none =>
      rw [hother] at hafter
      rw [Heap.bytes, Heap.bytes, span, span, hother, hafter]
      rfl
  | some block =>
      rw [hother] at hafter
      obtain ⟨hbase, hsize⟩ := (stays_write _ _).onlyAt written.base block
      refine bytes_congr hother hafter hbase hsize ?_
      have hwritten := (of_locate?_eq_some hlocate).2.1
      have hblock := (of_locate?_eq_some hother).2.1
      -- only the block of the store changes, and in it the range is avoided
      rw [onlyAt]
      split
      next hsame =>
        have hsame := eq_of_beq hsame
        exact Bytes.slice_overwrite_of_disjoint (by omega)
      next => rfl

/-! ## Records in place -/

/-- A record that was there is found in a heap with a further block as well. -/
theorem recordBytes_alloc (hsound : heap.Sound) (allocated : Nat) (typeName : Option String)
    (h : heap.recordBytes source size = .ok bytes) :
    (heap.alloc allocated typeName).2.recordBytes source size = .ok bytes ∧
      (source.isNull = true ∨ source.toNat + size ≤ heap.next) := by
  unfold recordBytes at h ⊢
  split at h
  next hnull =>
    rw [if_pos hnull]
    exact ⟨h, .inl hnull⟩
  next hnull =>
    rw [if_neg hnull]
    obtain ⟨block, hlocate, hfits, rfl⟩ := of_bytes_eq_ok h
    obtain ⟨hmem, hbase, _⟩ := of_locate?_eq_some hlocate
    have hbelow := hsound.below block hmem
    refine ⟨?_, .inr (by omega)⟩
    rw [← locate?_alloc_of_lt allocated typeName (hsound.lt_next hlocate)] at hlocate
    exact bytes_of_fits hlocate hfits

theorem recordBytes_store (hsound : heap.Sound) (h : heap.store handle offset new = .ok heap')
    (hapart : source.isNull = true ∨ handle.toNat + offset + new.length ≤ source.toNat ∨
      source.toNat + size ≤ handle.toNat + offset) :
    heap'.recordBytes source size = heap.recordBytes source size := by
  unfold recordBytes
  split
  next => rfl
  next hnull => exact bytes_store_of_apart hsound h (hapart.resolve_left hnull)

/-- A record is written by storing a copy of it. -/
theorem of_write_inPlace_eq_ok {innerType library : String} {ownership : Ownership} {value : Value}
    {u : Unit}
    (h : write handle (.struct innerType library size true ownership) offset value heap =
      .ok u heap') :
    ∃ source bytes, value.asHandle? = some source ∧ heap.recordBytes source size = .ok bytes ∧
      heap.store handle offset bytes = .ok heap' := by
  obtain ⟨bytes, hbytes, hstore⟩ := exists_store_of_write_eq_ok rfl h
  simp only [slotBytes, Value.target] at hbytes
  cases hsource : value.asHandle? with
  | none =>
      rw [hsource] at hbytes
      cases hbytes
  | some source =>
      rw [hsource] at hbytes
      exact ⟨source, bytes, rfl, hbytes, hstore⟩

/-! ## One behind the other -/

/-- The items are stored from an offset on, each as it is when its turn comes. -/
inductive Row (handle : Handle) (size : Nat) : Nat → List Value → Heap → Heap → Prop
  | nil (offset : Nat) (heap : Heap) : Row handle size offset [] heap heap
  | cons {offset : Nat} {item : Value} {source : Handle} {rest : List Value}
      {bytes : List UInt8} {heap middle heap' : Heap} (hsource : item.asHandle? = some source)
      (hbytes : heap.recordBytes source size = .ok bytes)
      (hstore : heap.store handle offset bytes = .ok middle)
      (hrest : Row handle size (offset + size) rest middle heap') :
      Row handle size offset (item :: rest) heap heap'

namespace Row

theorem bytes_eq (h : Row handle size offset items heap heap') (hsound : heap.Sound) {count : Nat}
    (hapart : handle.toNat + offset + items.length * size ≤ other.toNat + start ∨
      other.toNat + start + count ≤ handle.toNat + offset) :
    heap'.bytes other start count = heap.bytes other start count := by
  induction h with
  | nil => rfl
  | @cons offset item source rest bytes heap middle heap' _ hbytes hstore _ ih =>
      have hlength := length_of_recordBytes_eq_ok hbytes
      rw [List.length_cons, Nat.succ_mul] at hapart
      rw [ih (hsound.store hstore) (by omega)]
      exact bytes_store_of_apart hsound hstore (by omega)

/-- In the end each item is found at its place, unless it lies where the array does. -/
theorem stored (h : Row handle size offset items heap heap') (hsound : heap.Sound)
    (hitem : items[index]? = some item) (hsource : item.asHandle? = some source)
    (hapart : source.isNull = true ∨ source.toNat + size ≤ handle.toNat + offset ∨
      handle.toNat + offset + items.length * size ≤ source.toNat) :
    heap'.bytes handle (offset + index * size) size = heap.recordBytes source size := by
  induction h generalizing index with
  | nil => cases hitem
  | @cons offset first firstSource rest bytes heap middle heap' hfirst hbytes hstore hrest ih =>
      have hlength := length_of_recordBytes_eq_ok hbytes
      have hmiddle := hsound.store hstore
      rw [List.length_cons, Nat.succ_mul] at hapart
      cases index with
      | zero =>
          cases hitem
          obtain rfl : firstSource = source := Option.some.inj (hfirst.symm.trans hsource)
          have hself := bytes_store_self hsound hstore
          rw [hlength] at hself
          rw [Nat.zero_mul, Nat.add_zero, hbytes, ← hself]
          exact hrest.bytes_eq hmiddle (.inr (by omega))
      | succ index =>
          have hplace : offset + (index + 1) * size = offset + size + index * size := by
            rw [Nat.succ_mul]
            omega
          rw [hplace, ih hmiddle hitem (hapart.imp_right fun hbeside => by omega)]
          exact recordBytes_store hsound hstore (hapart.imp_right fun hbeside => by omega)

end Row

end Heap

end Interop
