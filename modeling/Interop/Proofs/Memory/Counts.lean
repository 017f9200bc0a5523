import Interop.Proofs.Memory.Spaced

/-! # Counts of references

A block is made with one reference and goes with its last one. As long as fewer references are added
to it than a count can tell apart, its count is one at least, and at most one more than were added.
-/

namespace Interop

open Relation

namespace Heap

variable {heap heap' : Heap} {handle : Handle} {added added' : Nat → Nat} {f : Block → Block}

/-- The block has a reference, and no more than its first one and those that were added, unless so
many were added to it that its count wraps around. -/
def Tally (added : Nat → Nat) (block : Block) : Prop :=
  added block.base + 1 < UInt32.size →
    1 ≤ block.refs.toNat ∧ block.refs.toNat ≤ added block.base + 1

/-- All blocks have their references. -/
def Counted (heap : Heap) (added : Nat → Nat) : Prop := ∀ block ∈ heap.blocks, Tally added block

theorem tally_fresh (heap : Heap) (size : Nat) (typeName : Option String) :
    Tally added (heap.fresh size typeName) :=
  fun _ => ⟨Nat.le_refl 1, Nat.le_add_left ..⟩

theorem Counted.mono (h : heap.Counted added) (hle : ∀ base, added base ≤ added' base) :
    heap.Counted added' := by
  intro block hblock hadded
  have hmore := hle block.base
  have hbounds := h block hblock (by omega)
  omega

theorem Counted.alloc (h : heap.Counted added) (size : Nat) (typeName : Option String) :
    (heap.alloc size typeName).2.Counted added :=
  List.forall_mem_cons.2 ⟨tally_fresh heap size typeName, h⟩

theorem Counted.modifyBlock (h : heap.Counted added) (hsound : heap.Sound) {base : Nat}
    (hchanged : ∀ block ∈ heap.blocks, block.base = base → Tally added block →
      Tally added' (f block))
    (hkept : ∀ other, other ≠ base → added' other = added other) :
    (heap.modifyBlock base f).Counted added' := by
  intro block hblock
  rw [hsound.blocks_modifyBlock] at hblock
  obtain ⟨old, hold, rfl⟩ := List.mem_map.1 hblock
  rw [onlyAt]
  split
  next hbase => exact hchanged old hold (eq_of_beq hbase) (h old hold)
  next hother =>
    rw [Tally, hkept old.base fun hsame => hother (beq_iff_eq.2 hsame)]
    exact h old hold

theorem Counted.write (h : heap.Counted added) (hsound : heap.Sound) (base start : Nat)
    (new : List UInt8) : (heap.modifyBlock base (·.write start new)).Counted added :=
  h.modifyBlock hsound (fun _ _ _ htally => htally) fun _ _ => rfl

/-- Whoever takes no further references leaves the counts in order. -/
theorem Own.counted (h : heap.Own heap') (hsound : heap.Sound) (hcounted : heap.Counted added) :
    heap'.Counted added := by
  cases h with
  | alloc size typeName => exact hcounted.alloc size typeName
  | allocText text => exact (hcounted.alloc _ _).write (hsound.alloc _ _) _ _ _
  | store h =>
      obtain ⟨_, _, _, rfl⟩ := of_store_eq_ok h
      exact hcounted.write hsound _ _ _
  | unref h =>
      obtain ⟨block, hblock, ⟨_, rfl⟩ | ⟨hshared, rfl⟩⟩ := of_unref_eq_ok h
      · exact fun other hother => hcounted other (List.mem_filter.1 hother).1
      · refine hcounted.modifyBlock hsound (fun other hother hbase htally hadded => ?_)
          fun _ _ => rfl
        -- it is the block that was found, and that one has another reference
        obtain rfl := hsound.eq_of_base_eq hother (of_block?_eq_some hblock).1 hbase
        have hshared := UInt32.lt_iff_toNat_lt.1 hshared
        have hless := UInt32.toNat_sub_of_le _ _ (UInt32.le_iff_toNat_le.2 (Nat.le_of_lt hshared))
        have hbound := (htally hadded).2
        simp only [UInt32.toNat_one] at hshared hless
        dsimp only
        omega

/-- One more reference is one more that was added. -/
theorem Counted.addRef {count : UInt32} (hcounted : heap.Counted added) (hsound : heap.Sound)
    (h : heap.addRef handle = .ok (count, heap'))
    (hmore : added' handle.toNat = added handle.toNat + 1)
    (hkept : ∀ other, other ≠ handle.toNat → added' other = added other) :
    heap'.Counted added' := by
  obtain ⟨block, hblock, rfl⟩ := of_addRef_eq_ok h
  rw [(of_block?_eq_some hblock).2]
  refine hcounted.modifyBlock hsound (fun other _ hsame htally hadded => ?_) hkept
  dsimp only at hadded ⊢
  rw [hsame, hmore] at hadded ⊢
  have hbounds := htally (by rw [hsame]; omega)
  rw [hsame] at hbounds
  have hsize : UInt32.size = 2 ^ 32 := rfl
  rw [UInt32.toNat_add, UInt32.toNat_one, Nat.mod_eq_of_lt (by omega)]
  omega

end Heap

end Interop
