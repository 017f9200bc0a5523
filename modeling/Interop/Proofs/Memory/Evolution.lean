import Interop.Proofs.Memory.Writes

/-! # How heaps change

Blocks are made, written, counted and given back, and nothing else happens to a heap. Whatever is
done to a heap in which no blocks overlap, none do afterwards, and the next block is not made at an
address that was in use.
-/

namespace Interop

open Relation

namespace Heap

/-- What can be done to a heap at once. -/
inductive Step : Heap → Heap → Prop
  | alloc (heap : Heap) (size : Nat) (typeName : Option String) :
      Step heap (heap.alloc size typeName).2
  | allocText (heap : Heap) (text : String) : Step heap (heap.allocText text).2
  | store {heap heap' : Heap} {handle : Handle} {offset : Nat} {new : List UInt8}
      (h : heap.store handle offset new = .ok heap') : Step heap heap'
  | addRef {heap heap' : Heap} {handle : Handle} {count : UInt32}
      (h : heap.addRef handle = .ok (count, heap')) : Step heap heap'
  | unref {heap heap' : Heap} {handle : Handle} (h : heap.unref handle = .ok heap') :
      Step heap heap'

/-- What is done to a heap by one who takes no further references to blocks. -/
inductive Own : Heap → Heap → Prop
  | alloc (heap : Heap) (size : Nat) (typeName : Option String) :
      Own heap (heap.alloc size typeName).2
  | allocText (heap : Heap) (text : String) : Own heap (heap.allocText text).2
  | store {heap heap' : Heap} {handle : Handle} {offset : Nat} {new : List UInt8}
      (h : heap.store handle offset new = .ok heap') : Own heap heap'
  | unref {heap heap' : Heap} {handle : Handle} (h : heap.unref handle = .ok heap') :
      Own heap heap'

variable {heap heap' : Heap} {handle : Handle}

theorem Own.step (h : heap.Own heap') : heap.Step heap' := by
  cases h with
  | alloc size typeName => exact .alloc heap size typeName
  | allocText text => exact .allocText heap text
  | store h => exact .store h
  | unref h => exact .unref h

/-- A block is counted up. -/
theorem of_addRef_eq_ok {count : UInt32} (h : heap.addRef handle = .ok (count, heap')) :
    ∃ block, heap.block? handle = some block ∧
      heap' = heap.modifyBlock block.base fun block => { block with refs := block.refs + 1 } := by
  unfold addRef at h
  split at h
  next => cases h
  next block hblock =>
    cases h
    exact ⟨block, hblock, rfl⟩

/-- A block without any other reference goes, and any other block is counted down. -/
theorem of_unref_eq_ok (h : heap.unref handle = .ok heap') :
    ∃ block, heap.block? handle = some block ∧
      ((block.refs ≤ 1 ∧ heap' =
          { heap with blocks := heap.blocks.filter fun other => other.base != block.base }) ∨
        (1 < block.refs ∧ heap' = heap.modifyBlock block.base fun block =>
          { block with refs := block.refs - 1 })) := by
  unfold unref at h
  split at h
  next => cases h
  next block hblock =>
    split at h
    next hlast =>
      cases h
      exact ⟨block, hblock, .inl ⟨hlast, rfl⟩⟩
    next hshared =>
      cases h
      exact ⟨block, hblock, .inr ⟨UInt32.not_le.1 hshared, rfl⟩⟩

theorem stays_recount (count : UInt32 → UInt32) :
    Stays fun block => { block with refs := count block.refs } :=
  fun _ => ⟨rfl, rfl⟩

theorem Step.sound (h : heap.Step heap') (hsound : heap.Sound) : heap'.Sound := by
  cases h with
  | alloc size typeName => exact hsound.alloc size typeName
  | allocText text => exact hsound.allocText text
  | store h => exact hsound.store h
  | addRef h =>
      obtain ⟨block, _, rfl⟩ := of_addRef_eq_ok h
      exact hsound.modifyBlock (stays_recount (· + 1)) block.base
  | unref h =>
      obtain ⟨block, _, ⟨_, rfl⟩ | ⟨_, rfl⟩⟩ := of_unref_eq_ok h
      · exact hsound.filter _
      · exact hsound.modifyBlock (stays_recount (· - 1)) block.base

theorem Step.next_le (h : heap.Step heap') : heap.next ≤ heap'.next := by
  cases h with
  | alloc size typeName =>
      have hlt := lt_next_alloc heap size typeName
      omega
  | allocText text => exact Nat.le_of_lt (next_allocText heap text)
  | store h => exact Nat.le_of_eq (next_store h).symm
  | addRef h =>
      obtain ⟨block, _, rfl⟩ := of_addRef_eq_ok h
      exact Nat.le_refl _
  | unref h =>
      obtain ⟨block, _, ⟨_, rfl⟩ | ⟨_, rfl⟩⟩ := of_unref_eq_ok h <;> exact Nat.le_refl _

/-! ## Writing values -/

theorem own_withText (heap : Heap) (descriptor : Descriptor) (value : Value) :
    ReflTransGen Own heap (heap.withText descriptor value) := by
  rcases heap.withText_cases descriptor value with hsame | ⟨_, text, _, _, hmade⟩
  · rw [hsame]
  · rw [hmade]
    exact .single (.allocText heap text)

theorem own_write (handle : Handle) (descriptor : Descriptor) (offset : Nat) (value : Value) :
    Steps.Within Own (write handle descriptor offset value) := by
  intro heap
  have hcase := write_cases heap handle descriptor offset value
  generalize write handle descriptor offset value heap = result at hcase
  cases hcase with
  | nothing => exact .refl
  | refused => exact .refl
  | misplaced => exact own_withText heap descriptor value
  | stored _ _ hstore => exact (own_withText heap descriptor value).tail (.store hstore)

theorem within_write (handle : Handle) (descriptor : Descriptor) (offset : Nat) (value : Value) :
    Steps.Within Step (write handle descriptor offset value) :=
  (own_write handle descriptor offset value).mono fun _ _ => Own.step

end Heap

end Interop
