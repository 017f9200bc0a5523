import Interop.Proofs.Memory.Evolution

/-! # Gaps between blocks

Blocks start at aligned addresses, none of them at a low one, and between any two of them and behind
the newest one there is a gap. What was an address in a block that is gone is never again one in a
block, so it leads nowhere for good.
-/

namespace Interop

open Relation

/-- The address is that of a byte of the block. -/
def Block.Contains (block : Block) (addr : Nat) : Prop :=
  block.base ≤ addr ∧ addr < block.base + block.size

namespace Heap

/-- The lowest address of a block. -/
def lowest : Nat := 0x1000

/-- Every block is in its place and has bytes, and there is a gap behind it. -/
structure Spaced (heap : Heap) : Prop where
  spread : heap.blocks.Pairwise fun newer older =>
    older.base + older.size + alignment ≤ newer.base
  below : ∀ block ∈ heap.blocks, block.base + block.size + alignment ≤ heap.next
  placed : ∀ block ∈ heap.blocks, alignment ∣ block.base ∧ lowest ≤ block.base
  filled : ∀ block ∈ heap.blocks, 0 < block.size
  next_placed : alignment ∣ heap.next ∧ lowest ≤ heap.next

theorem spaced_empty : ({} : Heap).Spaced := by
  refine ⟨List.Pairwise.nil, ?_, ?_, ?_, by decide⟩ <;> exact fun _ h => absurd h List.not_mem_nil

variable {heap heap' heap'' : Heap} {addr : Nat} {block other : Block} {f : Block → Block}

theorem Spaced.sound (h : heap.Spaced) : heap.Sound := by
  have hlowest : 0 < lowest := by decide
  refine ⟨h.spread.imp Nat.le_of_add_right_le, ?_, fun block hblock => ?_, ?_⟩
  · exact fun block hblock => Nat.le_of_add_right_le (h.below block hblock)
  · exact ⟨Nat.lt_of_lt_of_le hlowest (h.placed block hblock).2, h.filled block hblock⟩
  · exact Nat.lt_of_lt_of_le hlowest h.next_placed.2

/-- An address leads to the block it lies in. -/
theorem Sound.locate?_eq_some_iff (h : heap.Sound) :
    heap.locate? addr = some block ↔ block ∈ heap.blocks ∧ block.Contains addr :=
  ⟨of_locate?_eq_some, fun ⟨hmem, hbase, hreach⟩ => h.locate?_of_mem hmem hbase hreach⟩

theorem Sound.eq_of_base_eq (h : heap.Sound) (hblock : block ∈ heap.blocks)
    (hother : other ∈ heap.blocks) (hbase : block.base = other.base) : block = other := by
  have hfound : ∀ found ∈ heap.blocks, heap.locate? found.base = some found := fun found hmem =>
    h.locate?_of_mem hmem (Nat.le_refl _) (Nat.lt_add_of_pos_right (h.filled found hmem).2)
  have hsame := hfound other hother
  rw [← hbase, hfound block hblock] at hsame
  exact Option.some.inj hsame

theorem of_block?_eq_some {handle : Handle} (h : heap.block? handle = some block) :
    block ∈ heap.blocks ∧ block.base = handle.toNat := by
  have hbase := List.find?_some h
  exact ⟨List.mem_of_find?_eq_some h, eq_of_beq hbase⟩

/-! ## What keeps the gaps -/

theorem Spaced.modifyBlock (h : heap.Spaced) (hstays : Stays f) (base : Nat) :
    (heap.modifyBlock base f).Spaced := by
  have hplace := hstays.onlyAt base
  have hmem : ∀ {block}, block ∈ (heap.modifyBlock base f).blocks →
      ∃ old ∈ heap.blocks, onlyAt base f old = block := fun hblock => by
    rwa [h.sound.blocks_modifyBlock, List.mem_map] at hblock
  refine ⟨?_, ?_, ?_, ?_, h.next_placed⟩
  · rw [h.sound.blocks_modifyBlock, List.pairwise_map]
    refine h.spread.imp fun hle => ?_
    rw [(hplace _).1, (hplace _).2, (hplace _).1]
    exact hle
  · intro block hblock
    obtain ⟨old, hold, rfl⟩ := hmem hblock
    rw [(hplace old).1, (hplace old).2]
    exact h.below old hold
  · intro block hblock
    obtain ⟨old, hold, rfl⟩ := hmem hblock
    rw [(hplace old).1]
    exact h.placed old hold
  · intro block hblock
    obtain ⟨old, hold, rfl⟩ := hmem hblock
    rw [(hplace old).2]
    exact h.filled old hold

theorem Spaced.write (h : heap.Spaced) (base start : Nat) (new : List UInt8) :
    (heap.modifyBlock base (·.write start new)).Spaced :=
  h.modifyBlock (stays_write start new) base

theorem next_alloc_eq (heap : Heap) (size : Nat) (typeName : Option String) :
    (heap.alloc size typeName).2.next =
      alignUp (heap.next + max size 1 + alignment) alignment := rfl

theorem Spaced.alloc (h : heap.Spaced) (size : Nat) (typeName : Option String) :
    (heap.alloc size typeName).2.Spaced := by
  have hle := le_alignUp (heap.next + max size 1 + alignment) alignment
  rw [← next_alloc_eq heap size typeName] at hle
  have hlowest := h.next_placed.2
  refine ⟨List.pairwise_cons.2 ⟨h.below, h.spread⟩, ?_, ?_, ?_, ?_⟩
  · refine List.forall_mem_cons.2 ⟨hle, fun block hblock => ?_⟩
    have hbelow := h.below block hblock
    omega
  · exact List.forall_mem_cons.2 ⟨h.next_placed, h.placed⟩
  · refine List.forall_mem_cons.2 ⟨?_, h.filled⟩
    exact Nat.lt_of_lt_of_le Nat.zero_lt_one (Nat.le_max_right size 1)
  · refine ⟨?_, by omega⟩
    rw [next_alloc_eq]
    exact dvd_alignUp (by decide)

theorem Spaced.filter (h : heap.Spaced) (p : Block → Bool) :
    ({ heap with blocks := heap.blocks.filter p } : Heap).Spaced := by
  have hmem : ∀ {block}, block ∈ heap.blocks.filter p → block ∈ heap.blocks := fun hblock =>
    (List.mem_filter.1 hblock).1
  exact ⟨h.spread.filter p, fun block hblock => h.below block (hmem hblock),
    fun block hblock => h.placed block (hmem hblock),
    fun block hblock => h.filled block (hmem hblock), h.next_placed⟩

/-- Whatever is done to a heap, the gaps stay. -/
theorem Step.spaced (h : heap.Step heap') (hspaced : heap.Spaced) : heap'.Spaced := by
  cases h with
  | alloc size typeName => exact hspaced.alloc size typeName
  | allocText text => exact (hspaced.alloc _ _).write _ _ _
  | store h =>
      obtain ⟨block, _, _, rfl⟩ := of_store_eq_ok h
      exact hspaced.write _ _ _
  | addRef h =>
      obtain ⟨block, _, rfl⟩ := of_addRef_eq_ok h
      exact hspaced.modifyBlock (stays_recount (· + 1)) _
  | unref h =>
      obtain ⟨block, _, ⟨_, rfl⟩ | ⟨_, rfl⟩⟩ := of_unref_eq_ok h
      · exact hspaced.filter _
      · exact hspaced.modifyBlock (stays_recount (· - 1)) _

theorem spaced_of_reflTransGen (h : ReflTransGen Step heap heap') (hspaced : heap.Spaced) :
    heap'.Spaced := by
  induction h with
  | refl => exact hspaced
  | tail _ hstep ih => exact hstep.spaced ih

theorem next_le_of_reflTransGen (h : ReflTransGen Step heap heap') : heap.next ≤ heap'.next := by
  induction h with
  | refl => exact Nat.le_refl _
  | tail _ hstep ih => exact Nat.le_trans ih hstep.next_le

/-! ## Where blocks come from -/

/-- The block lies where one of the heap does, or where the heap has not come to yet. -/
def Origin (heap : Heap) (block : Block) : Prop :=
  (∃ old ∈ heap.blocks, block.base = old.base ∧ block.size = old.size) ∨ heap.next ≤ block.base

theorem origin_of_mem (h : block ∈ heap.blocks) : heap.Origin block := .inl ⟨block, h, rfl, rfl⟩

theorem Origin.trans (h : heap'.Origin block) (hnext : heap.next ≤ heap'.next)
    (hbefore : ∀ old ∈ heap'.blocks, heap.Origin old) : heap.Origin block := by
  rcases h with ⟨old, hold, hbase, hsize⟩ | hnew
  · rcases hbefore old hold with ⟨first, hfirst, hsame⟩ | hnew
    · exact .inl ⟨first, hfirst, hbase.trans hsame.1, hsize.trans hsame.2⟩
    · exact .inr (hbase ▸ hnew)
  · exact .inr (Nat.le_trans hnext hnew)

theorem Sound.origin_modifyBlock (h : heap.Sound) (hstays : Stays f) {base : Nat}
    (hblock : block ∈ (heap.modifyBlock base f).blocks) : heap.Origin block := by
  rw [h.blocks_modifyBlock] at hblock
  obtain ⟨old, hold, rfl⟩ := List.mem_map.1 hblock
  exact .inl ⟨old, hold, hstays.onlyAt base old⟩

theorem origin_alloc {size : Nat} {typeName : Option String}
    (hblock : block ∈ (heap.alloc size typeName).2.blocks) : heap.Origin block := by
  rcases List.mem_cons.1 hblock with rfl | hold
  · exact .inr (Nat.le_refl _)
  · exact origin_of_mem hold

theorem Step.origin (h : heap.Step heap') (hsound : heap.Sound) (hblock : block ∈ heap'.blocks) :
    heap.Origin block := by
  cases h with
  | alloc size typeName => exact origin_alloc hblock
  | allocText text =>
      have hwritten := (hsound.alloc _ _).origin_modifyBlock (stays_write _ _) hblock
      exact hwritten.trans (Step.next_le (.alloc ..)) fun _ hold => origin_alloc hold
  | store h =>
      obtain ⟨_, _, _, rfl⟩ := of_store_eq_ok h
      exact hsound.origin_modifyBlock (stays_write _ _) hblock
  | addRef h =>
      obtain ⟨_, _, rfl⟩ := of_addRef_eq_ok h
      exact hsound.origin_modifyBlock (stays_recount (· + 1)) hblock
  | unref h =>
      obtain ⟨_, _, ⟨_, rfl⟩ | ⟨_, rfl⟩⟩ := of_unref_eq_ok h
      · exact origin_of_mem (List.mem_filter.1 hblock).1
      · exact hsound.origin_modifyBlock (stays_recount (· - 1)) hblock

theorem Spaced.origin (hspaced : heap.Spaced) (h : ReflTransGen Step heap heap') :
    ∀ block ∈ heap'.blocks, heap.Origin block := by
  induction h with
  | refl => exact fun _ hblock => origin_of_mem hblock
  | tail hrun hstep ih =>
      intro block hblock
      have hmiddle := (spaced_of_reflTransGen hrun hspaced).sound
      exact (hstep.origin hmiddle hblock).trans (next_le_of_reflTransGen hrun) ih

/-- What is found behind all that was there before lies in a block that is new. -/
theorem Spaced.le_base_of_locate? (hspaced : heap.Spaced) (h : ReflTransGen Step heap heap')
    (hlocate : heap'.locate? addr = some block) (hnew : heap.next ≤ addr) :
    heap.next ≤ block.base := by
  obtain ⟨hmem, _, hreach⟩ := of_locate?_eq_some hlocate
  rcases hspaced.origin h block hmem with ⟨old, hold, hbase, hsize⟩ | hbehind
  · have hbelow := hspaced.below old hold
    omega
  · exact hbehind

end Heap

end Interop
