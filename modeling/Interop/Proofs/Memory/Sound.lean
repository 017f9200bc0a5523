import Mathlib.Data.List.Pairwise
import Interop.Proofs.Layout.Placement
import Interop.Memory.Heap

/-! # Heaps whose blocks do not overlap

The blocks of a heap that grew from the empty one lie one behind the other, the newest one at the
highest address, and all of them below the place of the next one. So an address lies in at most one
block, a new block is in nobody's way, and what happens to one block leaves the others alone.
-/

namespace Interop

namespace Heap

/-- The blocks are not empty, and each ends before those that are newer begin. -/
structure Sound (heap : Heap) : Prop where
  ordered : heap.blocks.Pairwise fun newer older => older.base + older.size ≤ newer.base
  below : ∀ block ∈ heap.blocks, block.base + block.size ≤ heap.next
  filled : ∀ block ∈ heap.blocks, 0 < block.base ∧ 0 < block.size
  next_pos : 0 < heap.next

theorem sound_empty : ({} : Heap).Sound := by
  refine ⟨List.Pairwise.nil, ?_, ?_, by decide⟩
  · intro block hblock
    cases hblock
  · intro block hblock
    cases hblock

/-! ## Finding blocks -/

variable {heap : Heap} {addr base : Nat} {block : Block}

theorem of_locate?_eq_some (h : heap.locate? addr = some block) :
    block ∈ heap.blocks ∧ block.base ≤ addr ∧ addr < block.base + block.size := by
  rw [locate?, Option.filter_eq_some_iff] at h
  obtain ⟨hfind, hreach⟩ := h
  have hbase := List.find?_some hfind
  exact ⟨List.mem_of_find?_eq_some hfind, of_decide_eq_true hbase, of_decide_eq_true hreach⟩

/-- The block of an address is found by it. -/
theorem Sound.locate?_of_mem (h : heap.Sound) (hmem : block ∈ heap.blocks)
    (hbase : block.base ≤ addr) (hreach : addr < block.base + block.size) :
    heap.locate? addr = some block := by
  rw [locate?, Option.filter_eq_some_iff]
  refine ⟨?_, decide_eq_true hreach⟩
  obtain ⟨newer, older, hsplit⟩ := List.append_of_mem hmem
  refine List.find?_eq_some_iff_append.2 ⟨decide_eq_true hbase, newer, older, hsplit, ?_⟩
  intro other hother
  have hordered := h.ordered
  rw [hsplit] at hordered
  -- newer blocks begin behind the address, so the search passes them
  have hafter := (List.pairwise_append.1 hordered).2.2 other hother block List.mem_cons_self
  simp only [Bool.not_eq_true', decide_eq_false_iff_not]
  omega

/-- Neither block reaches into the other. -/
def Apart (block other : Block) : Prop :=
  block.base + block.size ≤ other.base ∨ other.base + other.size ≤ block.base

instance : Std.Symm Apart := ⟨fun _ _ => Or.symm⟩

/-- Blocks at different places do not overlap. -/
theorem Sound.apart (h : heap.Sound) {other : Block} (hmem : block ∈ heap.blocks)
    (hother : other ∈ heap.blocks) (hne : block.base ≠ other.base) : Apart block other := by
  have hpairs : heap.blocks.Pairwise Apart := h.ordered.imp Or.inr
  refine hpairs.forall hmem hother ?_
  rintro rfl
  exact hne rfl

theorem Sound.lt_next (h : heap.Sound) (hlocate : heap.locate? addr = some block) :
    addr < heap.next := by
  obtain ⟨hmem, _, hreach⟩ := of_locate?_eq_some hlocate
  exact Nat.lt_of_lt_of_le hreach (h.below block hmem)

/-- No block is found by the null address. -/
theorem Sound.locate?_zero (h : heap.Sound) : heap.locate? 0 = none := by
  refine Option.eq_none_iff_forall_ne_some.2 fun block hlocate => ?_
  obtain ⟨hmem, hbase, _⟩ := of_locate?_eq_some hlocate
  have hpos := (h.filled block hmem).1
  omega

/-! ## Changing a block -/

/-- The function changes nothing about where a block lies. -/
def Stays (f : Block → Block) : Prop :=
  ∀ block, (f block).base = block.base ∧ (f block).size = block.size

/-- The function on the block of an address, and nothing on the others. -/
def onlyAt (base : Nat) (f : Block → Block) (block : Block) : Block :=
  if block.base == base then f block else block

variable {f : Block → Block}

@[simp] theorem onlyAt_self (block : Block) : onlyAt block.base f block = f block := by
  rw [onlyAt, if_pos (beq_self_eq_true _)]

theorem stays_write (start : Nat) (new : List UInt8) : Stays (·.write start new) :=
  fun _ => ⟨rfl, rfl⟩

theorem Stays.onlyAt (h : Stays f) (base : Nat) : Stays (onlyAt base f) := by
  intro block
  unfold Heap.onlyAt
  split
  next => exact h block
  next => exact ⟨rfl, rfl⟩

theorem modifyFirst_eq_map {blocks : List Block}
    (h : blocks.Pairwise fun newer older => newer.base ≠ older.base) :
    modifyFirst base f blocks = blocks.map (onlyAt base f) := by
  induction blocks with
  | nil => rfl
  | cons first rest ih =>
      obtain ⟨hfirst, hrest⟩ := List.pairwise_cons.1 h
      rw [modifyFirst, List.map_cons, onlyAt]
      split
      next hbase =>
        have hothers : rest.map (onlyAt base f) = rest.map id := by
          refine List.map_congr_left fun other hother => ?_
          have hne := hfirst other hother
          rw [eq_of_beq hbase] at hne
          rw [onlyAt, if_neg (by simpa using hne.symm), id]
        rw [hothers, List.map_id]
      next => rw [ih hrest]

theorem Sound.bases_ne (h : heap.Sound) :
    heap.blocks.Pairwise fun newer older => newer.base ≠ older.base := by
  refine h.ordered.imp_of_mem fun _ holder hle => ?_
  have hsize := (h.filled _ holder).2
  omega

theorem Sound.blocks_modifyBlock (h : heap.Sound) (base : Nat) (f : Block → Block) :
    (heap.modifyBlock base f).blocks = heap.blocks.map (onlyAt base f) :=
  modifyFirst_eq_map h.bases_ne

theorem Sound.modifyBlock (h : heap.Sound) (hstays : Stays f) (base : Nat) :
    (heap.modifyBlock base f).Sound := by
  have hplace := hstays.onlyAt base
  refine ⟨?_, ?_, ?_, h.next_pos⟩
  · rw [h.blocks_modifyBlock, List.pairwise_map]
    refine h.ordered.imp fun hle => ?_
    rw [(hplace _).1, (hplace _).2, (hplace _).1]
    exact hle
  · intro block hblock
    rw [h.blocks_modifyBlock] at hblock
    obtain ⟨old, hold, rfl⟩ := List.mem_map.1 hblock
    rw [(hplace old).1, (hplace old).2]
    exact h.below old hold
  · intro block hblock
    rw [h.blocks_modifyBlock] at hblock
    obtain ⟨old, hold, rfl⟩ := List.mem_map.1 hblock
    rw [(hplace old).1, (hplace old).2]
    exact h.filled old hold

/-- The same blocks are found as before, and the changed one in its new form. -/
theorem Sound.locate?_modifyBlock (h : heap.Sound) (hstays : Stays f) (base addr : Nat) :
    (heap.modifyBlock base f).locate? addr = (heap.locate? addr).map (onlyAt base f) := by
  have hplace := hstays.onlyAt base
  have hbase : (fun block : Block => decide (block.base ≤ addr)) ∘ onlyAt base f =
      fun block => decide (block.base ≤ addr) := by
    funext block
    simp only [Function.comp_apply, (hplace block).1]
  have hreach : (fun block : Block => decide (addr < block.base + block.size)) ∘ onlyAt base f =
      fun block => decide (addr < block.base + block.size) := by
    funext block
    simp only [Function.comp_apply, (hplace block).1, (hplace block).2]
  rw [locate?, h.blocks_modifyBlock, List.find?_map, hbase, Option.filter_map, hreach, ← locate?]

/-! ## New blocks and blocks that go -/

/-- The block that is made for a size. -/
def fresh (heap : Heap) (size : Nat) (typeName : Option String) : Block :=
  { base := heap.next, size := max size 1, typeName, refs := 1 }

theorem blocks_alloc (heap : Heap) (size : Nat) (typeName : Option String) :
    (heap.alloc size typeName).2.blocks = heap.fresh size typeName :: heap.blocks := rfl

theorem lt_next_alloc (heap : Heap) (size : Nat) (typeName : Option String) :
    heap.next + max size 1 < (heap.alloc size typeName).2.next := by
  have hle := le_alignUp (heap.next + max size 1 + alignment) alignment
  have halignment : 0 < alignment := by decide
  exact Nat.lt_of_lt_of_le (Nat.lt_add_of_pos_right halignment) hle

theorem Sound.alloc (h : heap.Sound) (size : Nat) (typeName : Option String) :
    (heap.alloc size typeName).2.Sound := by
  have hnext := lt_next_alloc heap size typeName
  refine ⟨?_, ?_, ?_, by omega⟩
  · exact List.pairwise_cons.2 ⟨h.below, h.ordered⟩
  · refine List.forall_mem_cons.2 ⟨Nat.le_of_lt hnext, fun block hblock => ?_⟩
    have hbelow := h.below block hblock
    omega
  · refine List.forall_mem_cons.2 ⟨⟨h.next_pos, ?_⟩, h.filled⟩
    change 0 < max size 1
    omega

/-- A new block changes nothing about the addresses before it. -/
theorem locate?_alloc_of_lt (size : Nat) (typeName : Option String) (hlt : addr < heap.next) :
    (heap.alloc size typeName).2.locate? addr = heap.locate? addr := by
  have hnew : decide ((heap.fresh size typeName).base ≤ addr) = false :=
    decide_eq_false (Nat.not_le.2 hlt)
  rw [locate?, blocks_alloc, List.find?_cons, hnew]
  rfl

theorem Sound.locate?_alloc (h : heap.Sound) (size : Nat) (typeName : Option String) :
    (heap.alloc size typeName).2.locate? heap.next = some (heap.fresh size typeName) := by
  refine (h.alloc size typeName).locate?_of_mem List.mem_cons_self (Nat.le_refl _) ?_
  simp only [fresh]
  omega

theorem Sound.filter (h : heap.Sound) (p : Block → Bool) :
    ({ heap with blocks := heap.blocks.filter p } : Heap).Sound := by
  refine ⟨h.ordered.filter p, ?_, ?_, h.next_pos⟩
  · intro block hblock
    exact h.below block (List.mem_filter.1 hblock).1
  · intro block hblock
    exact h.filled block (List.mem_filter.1 hblock).1

end Heap

end Interop
