import Interop.Proofs.Memory.Spaced

/-! # Which blocks there are

Blocks are told by where they start and how large they are. Writing a value makes a block for a text
and none otherwise. As long as nobody takes further references, giving a block back once frees it,
and it stays free.
-/

namespace Interop

open Relation

/-- The size of the block that is made when a value is written. -/
def Descriptor.stored : Descriptor → Value → List Nat
  | .string _, .string text => [(Utf8.encode text).length + 1]
  | _, _ => []

namespace Heap

/-- Where the blocks start and how large they are, the newest first. -/
def entries (heap : Heap) : List (Nat × Nat) :=
  heap.blocks.map fun block => (block.base, block.size)

/-- No block starts at the address. -/
def Free (heap : Heap) (addr : Nat) : Prop := ∀ block ∈ heap.blocks, block.base ≠ addr

/-- No block that starts behind the address has more than one reference. -/
def Single (heap : Heap) (start : Nat) : Prop :=
  ∀ block ∈ heap.blocks, start ≤ block.base → block.refs ≤ 1

/-- No block that starts at the address has more than one reference. -/
def Lone (heap : Heap) (addr : Nat) : Prop :=
  ∀ block ∈ heap.blocks, block.base = addr → block.refs ≤ 1

variable {heap heap' : Heap} {handle : Handle} {f : Block → Block} {start addr : Nat}

/-! ## Entries -/

theorem entries_alloc (heap : Heap) (size : Nat) (typeName : Option String) :
    (heap.alloc size typeName).2.entries = (heap.next, max size 1) :: heap.entries := rfl

theorem entries_modifyBlock (heap : Heap) (base : Nat) (hstays : Stays f) :
    (heap.modifyBlock base f).entries = heap.entries := by
  rw [entries, entries, modifyBlock]
  induction heap.blocks with
  | nil => rfl
  | cons block rest ih =>
      obtain ⟨hbase, hsize⟩ := hstays block
      rw [modifyFirst]
      split
      next => rw [List.map_cons, List.map_cons, hbase, hsize]
      next => rw [List.map_cons, List.map_cons, ih]

theorem entries_allocText (heap : Heap) (text : String) :
    (heap.allocText text).2.entries =
      (heap.next, (Utf8.encode text).length + 1) :: heap.entries := by
  rw [allocText, entries_modifyBlock _ _ (stays_write _ _), entries_alloc,
    Nat.max_eq_left (Nat.succ_pos _)]

theorem entries_store {offset : Nat} {new : List UInt8}
    (h : heap.store handle offset new = .ok heap') : heap'.entries = heap.entries := by
  obtain ⟨block, _, _, rfl⟩ := of_store_eq_ok h
  exact entries_modifyBlock _ _ (stays_write _ _)

theorem entries_unref_sublist (h : heap.unref handle = .ok heap') :
    heap'.entries.Sublist heap.entries := by
  obtain ⟨block, _, ⟨_, rfl⟩ | ⟨_, rfl⟩⟩ := of_unref_eq_ok h
  · exact (List.filter_sublist).map _
  · rw [entries_modifyBlock _ _ (stays_recount (· - 1))]

/-- Of the blocks that start before an address that is still to come, none are added. -/
theorem Step.below_sublist (h : heap.Step heap') (hstop : addr ≤ heap.next) :
    (heap'.entries.filter (·.1 < addr)).Sublist (heap.entries.filter (·.1 < addr)) := by
  cases h with
  | alloc size typeName =>
      rw [entries_alloc, List.filter_cons_of_neg (by simpa using hstop)]
  | allocText text =>
      rw [entries_allocText, List.filter_cons_of_neg (by simpa using hstop)]
  | store h => rw [entries_store h]
  | addRef h =>
      obtain ⟨block, _, rfl⟩ := of_addRef_eq_ok h
      rw [entries_modifyBlock _ _ (stays_recount (· + 1))]
  | unref h => exact (entries_unref_sublist h).filter _

theorem below_sublist_of_run (h : ReflTransGen Step heap heap') (hstop : addr ≤ heap.next) :
    (heap'.entries.filter (·.1 < addr)).Sublist (heap.entries.filter (·.1 < addr)) := by
  induction h with
  | refl => exact List.Sublist.refl _
  | tail hrun hstep ih =>
      exact (hstep.below_sublist (Nat.le_trans hstop (next_le_of_reflTransGen hrun))).trans ih

/-! ## Free addresses -/

theorem free_iff_notMem_entries : heap.Free addr ↔ addr ∉ heap.entries.map (·.1) := by
  simp [Free, entries]

/-- An address at which no block starts stays free once there are blocks behind it. -/
theorem Free.of_run (hfree : heap.Free addr) (hspaced : heap.Spaced)
    (h : ReflTransGen Step heap heap') (haddr : addr < heap.next) : heap'.Free addr := by
  intro block hblock hbase
  rcases hspaced.origin h block hblock with ⟨old, hold, hsame, _⟩ | hnew
  · exact hfree old hold (hsame.symm.trans hbase)
  · omega

theorem Free.of_unref_eq_ok (hfree : heap.Free addr) (h : heap.unref handle = .ok heap') :
    heap'.Free addr := by
  rw [free_iff_notMem_entries] at hfree ⊢
  exact fun hmem => hfree (((entries_unref_sublist h).map _).subset hmem)

/-! ## Single references -/

theorem mem_modifyFirst {blocks : List Block} {block : Block} {base : Nat}
    (h : block ∈ modifyFirst base f blocks) :
    block ∈ blocks ∨ ∃ old ∈ blocks, old.base = base ∧ block = f old := by
  induction blocks with
  | nil => exact absurd h List.not_mem_nil
  | cons first rest ih =>
      rw [modifyFirst] at h
      split at h
      next hbase =>
        rcases List.mem_cons.1 h with rfl | hrest
        · exact .inr ⟨first, List.mem_cons_self, eq_of_beq hbase, rfl⟩
        · exact .inl (List.mem_cons_of_mem _ hrest)
      next =>
        rcases List.mem_cons.1 h with rfl | hrest
        · exact .inl List.mem_cons_self
        · rcases ih hrest with hold | ⟨old, hold, hf⟩
          · exact .inl (List.mem_cons_of_mem _ hold)
          · exact .inr ⟨old, List.mem_cons_of_mem _ hold, hf⟩

theorem Single.write (h : heap.Single start) (base place : Nat) (new : List UInt8) :
    (heap.modifyBlock base (·.write place new)).Single start := by
  intro block hblock hstart
  rcases mem_modifyFirst hblock with hold | ⟨old, hold, _, rfl⟩
  · exact h block hold hstart
  · exact h old hold hstart

theorem Single.alloc (h : heap.Single start) (size : Nat) (typeName : Option String) :
    (heap.alloc size typeName).2.Single start := by
  intro block hblock hstart
  rcases List.mem_cons.1 hblock with rfl | hold
  · exact UInt32.le_refl 1
  · exact h block hold hstart

theorem Own.single (h : heap.Own heap') (hsingle : heap.Single start) : heap'.Single start := by
  cases h with
  | alloc size typeName => exact hsingle.alloc size typeName
  | allocText text => exact (hsingle.alloc _ _).write _ _ _
  | store h =>
      obtain ⟨block, _, _, rfl⟩ := of_store_eq_ok h
      exact hsingle.write _ _ _
  | unref h =>
      obtain ⟨block, hblock, ⟨_, rfl⟩ | ⟨hshared, rfl⟩⟩ := of_unref_eq_ok h
      · exact fun other hother hstart => hsingle other (List.mem_filter.1 hother).1 hstart
      · intro other hother hstart
        rcases mem_modifyFirst hother with hold | ⟨old, _, hbase, rfl⟩
        · exact hsingle other hold hstart
        · -- a block that is counted down has another reference, so it starts before that address
          have hsame := hsingle block (of_block?_eq_some hblock).1 (hbase ▸ hstart)
          exact absurd hsame (UInt32.not_le.2 hshared)

theorem single_of_spaced (hspaced : heap.Spaced) : heap.Single heap.next := by
  intro block hblock hstart
  have hbelow := hspaced.below block hblock
  have hsize := hspaced.filled block hblock
  omega

theorem Single.lone (h : heap.Single start) (hstart : start ≤ addr) : heap.Lone addr :=
  fun block hblock hbase => h block hblock (hbase ▸ hstart)

theorem Lone.of_unref_eq_ok (hlone : heap.Lone addr) (h : heap.unref handle = .ok heap') :
    heap'.Lone addr := by
  obtain ⟨found, hfound, ⟨_, rfl⟩ | ⟨hshared, rfl⟩⟩ := Heap.of_unref_eq_ok h
  · exact fun block hblock => hlone block (List.mem_filter.1 hblock).1
  · intro block hblock hbase
    rcases mem_modifyFirst hblock with hold | ⟨old, _, hsame, rfl⟩
    · exact hlone block hold hbase
    · exact absurd (hlone found (of_block?_eq_some hfound).1 (hsame.symm.trans hbase))
        (UInt32.not_le.2 hshared)

/-- Giving back the only reference to a block frees it. -/
theorem free_unref (hlone : heap.Lone handle.toNat) (h : heap.unref handle = .ok heap') :
    heap'.Free handle.toNat := by
  obtain ⟨block, hblock, hcase⟩ := of_unref_eq_ok h
  have hbase : block.base = handle.toNat := by
    simpa using List.find?_some hblock
  rcases hcase with ⟨_, rfl⟩ | ⟨hshared, _⟩
  · intro other hother
    rw [← hbase]
    simpa using (List.mem_filter.1 hother).2
  · exact absurd (hlone block (of_block?_eq_some hblock).1 hbase) (UInt32.not_le.2 hshared)

/-- What cannot be given back is not there. -/
theorem free_of_unref_eq_error {error : DispatchError} (h : heap.unref handle = .error error) :
    heap.Free handle.toNat := by
  intro block hblock hbase
  cases hfound : heap.block? handle with
  | none =>
      rw [block?, List.find?_eq_none] at hfound
      exact hfound block hblock (by simpa using hbase)
  | some found =>
      rw [unref, hfound] at h
      dsimp only at h
      split at h <;> cases h

/-! ## Blocks with one reference each -/

/-- The blocks lie apart, and those behind an address have one reference each. -/
structure Fresh (heap : Heap) (start : Nat) : Prop where
  spaced : heap.Spaced
  single : heap.Single start

theorem fresh_of_spaced (h : heap.Spaced) : heap.Fresh heap.next := ⟨h, single_of_spaced h⟩

theorem steps_of_own (h : ReflTransGen Own heap heap') : ReflTransGen Step heap heap' :=
  ReflTransGen.mono (fun _ _ => Own.step) _ _ h

theorem Fresh.of_run (h : heap.Fresh start) (hrun : ReflTransGen Own heap heap') :
    heap'.Fresh start := by
  induction hrun with
  | refl => exact h
  | tail _ hstep ih => exact ⟨hstep.step.spaced ih.spaced, hstep.single ih.single⟩

/-! ## What is left of blocks -/

/-- The blocks that start between two addresses, the oldest first. -/
def between (heap : Heap) (start stop : Nat) : List (Nat × Nat) :=
  (heap.entries.filter fun entry => start ≤ entry.1 ∧ entry.1 < stop).reverse

theorem mem_between_iff {stop : Nat} {entry : Nat × Nat} :
    entry ∈ heap.between start stop ↔ entry ∈ heap.entries ∧ start ≤ entry.1 ∧ entry.1 < stop := by
  simp [between]

theorem Free.notMem_between {stop : Nat} {entry : Nat × Nat} (h : heap.Free entry.1) :
    entry ∉ heap.between start stop := by
  intro hmem
  rw [free_iff_notMem_entries] at h
  exact h (List.mem_map_of_mem (mem_between_iff.1 hmem).1)

theorem Spaced.lt_next_of_mem_entries (h : heap.Spaced) {entry : Nat × Nat}
    (hmem : entry ∈ heap.entries) : entry.1 < heap.next := by
  obtain ⟨block, hblock, rfl⟩ := List.mem_map.1 hmem
  have hbelow := h.below block hblock
  have hsize := h.filled block hblock
  dsimp only
  omega

/-- Where a heap begins there are no blocks yet. -/
theorem Spaced.between_next (h : heap.Spaced) (stop : Nat) : heap.between heap.next stop = [] := by
  apply List.eq_nil_iff_forall_not_mem.2
  intro entry hmem
  obtain ⟨hentry, hstart, _⟩ := mem_between_iff.1 hmem
  exact absurd (h.lt_next_of_mem_entries hentry) (Nat.not_lt_of_le hstart)

/-- What is left later of blocks that have been made is some of them. -/
theorem between_sublist {heap'' : Heap} {made : List (Nat × Nat)} (hspaced : heap.Spaced)
    (hmade : heap'.entries = made.reverse ++ heap.entries)
    (hrun : ReflTransGen Step heap' heap'') :
    (heap''.between heap.next heap'.next).Sublist made := by
  have hbelow := (below_sublist_of_run hrun (Nat.le_refl heap'.next)).filter
    fun entry => heap.next ≤ entry.1
  have hold : heap.entries.filter (fun entry => heap.next ≤ entry.1) = [] := by
    rw [List.filter_eq_nil_iff]
    intro entry hentry
    simpa using hspaced.lt_next_of_mem_entries hentry
  have hleft : (heap''.entries.filter fun entry => heap.next ≤ entry.1 ∧ entry.1 < heap'.next) =
      (heap''.entries.filter (·.1 < heap'.next)).filter fun entry => heap.next ≤ entry.1 := by
    simp [List.filter_filter]
  have hfirst : (heap'.entries.filter fun entry => heap.next ≤ entry.1).Sublist made.reverse := by
    rw [hmade, List.filter_append, hold, List.append_nil]
    exact List.filter_sublist
  have hsome := hbelow.trans ((List.filter_sublist.filter _).trans hfirst)
  rw [between, hleft, ← List.reverse_reverse made]
  exact hsome.reverse

/-! ## Writing -/

/-- A text that is to be stored is in a block of its own, and nothing else is. -/
theorem entries_withText (heap : Heap) (descriptor : Descriptor) (value : Value) :
    ∃ new : List (Nat × Nat),
      (heap.withText descriptor value).entries = new.reverse ++ heap.entries ∧
        new.map (·.2) = descriptor.stored value := by
  cases descriptor with
  | string ownership =>
      cases value with
      | string text =>
          exact ⟨[(heap.next, (Utf8.encode text).length + 1)], entries_allocText heap text, rfl⟩
      | _ => exact ⟨[], rfl, rfl⟩
  | _ => exact ⟨[], rfl, rfl⟩

/-- Writing a value leaves the blocks that there are, and makes at most the one for its text. -/
theorem exists_entries_write (handle : Handle) (descriptor : Descriptor) (offset : Nat)
    (value : Value) (heap : Heap) :
    ∃ new : List (Nat × Nat), (Steps.ending (write handle descriptor offset value heap)).entries =
        new.reverse ++ heap.entries ∧
      (new.map (·.2)).Sublist (descriptor.stored value) := by
  have hcase := write_cases heap handle descriptor offset value
  obtain ⟨new, hentries, hstored⟩ := heap.entries_withText descriptor value
  have hsizes : (new.map (·.2)).Sublist (descriptor.stored value) := by rw [hstored]
  generalize write handle descriptor offset value heap = result at hcase
  cases hcase with
  | nothing => exact ⟨[], rfl, List.nil_sublist _⟩
  | refused => exact ⟨[], rfl, List.nil_sublist _⟩
  | misplaced => exact ⟨new, hentries, hsizes⟩
  | stored _ _ hstore => exact ⟨new, (entries_store hstore).trans hentries, hsizes⟩

end Heap

end Interop
