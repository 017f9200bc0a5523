import Interop.Proofs.Bridge.Rows

/-! # Writes of fields that fail

A value is made ready before it is stored, so a field that cannot be written is left as it is. The
items of an array that lies in its field are made ready and stored one after the other, though: when
one of them is refused, those before it have been written.
-/

namespace Interop

open Schema Relation Steps

variable {H : Host}

namespace Bridge

variable {env : Env H} {bridge middle after : Bridge H} {touched touched' : Set Nat}
  {handle base : Handle} {descriptor element : Descriptor} {owner value : Value}
  {type name : String} {binding : FieldBinding} {items : List Value} {stride count offset : Nat}

/-! ## What is touched -/

theorem touches_of_write_eq_error {error : BindError}
    (h : inCall (write handle descriptor offset value) bridge = .error error after) :
    bridge.Touches ∅ after := by
  rw [inCall_write_eq] at h
  split at h
  next => cases h
  next hwrite =>
    cases h
    exact Heap.framed_of_write_eq_error hwrite

/-- A value is made ready without touching anything that was there, and items are stored from a
handle on without touching anything before it. By induction over the value. -/
theorem within_touches_lowerStored_storeItems :
    (∀ (descriptor : Descriptor) (value : Value),
      Within (Touches ∅) (lowerStored descriptor value : Run H Value)) ∧
    ∀ (handle : Handle) (element : Descriptor) (stride index : Nat) (items : List Value),
      Within (Touches (Set.Ici handle.toNat))
        (storeItems handle element stride index items : Run H Unit) := by
  refine lowerStored.mutual_induct _ _ ?_ ?_ ?_ ?_ ?_
  · intro element ownership length kind stride items ih bridge
    rw [lowerStored]
    have halloc : inCall (alloc (arrayBytes items.length stride length) none none) bridge =
      .ok (.ofNat bridge.heap.next) { bridge with
        heap := (bridge.heap.alloc (arrayBytes items.length stride length) none).2 } := rfl
    rw [bind_eq_of_eq_ok halloc]
    -- the items are stored where the heap had not come to before
    have hitems := touches_of_run (((ih (.ofNat bridge.heap.next)).bind fun _ =>
      within_pure (Value.pointer (.ofNat bridge.heap.next))) { bridge with
        heap := (bridge.heap.alloc (arrayBytes items.length stride length) none).2 })
    have hlt := Heap.lt_next_alloc bridge.heap (arrayBytes items.length stride length) none
    exact .single (Heap.Framed.of_fresh (Heap.framed_alloc _ _ _)
      (Nat.lt_of_le_of_lt (Nat.le_add_right _ _) hlt) hitems)
  · intro descriptor id handle
    rw [lowerStored]
    exact within_pure _
  · intro value descriptor hobject harray
    rw [lowerStored]
    · exact within_pure _
    · exact hobject
    · exact harray
  · intro handle element stride index
    exact within_pure _
  · intro handle element stride index item rest ihitem ihrest
    rw [storeItems]
    refine (ihitem.mono fun _ _ => .mono (Set.empty_subset _)).bind fun lowered => ?_
    refine Within.bind ?_ fun _ => ihrest
    exact (within_touches_write _ _ _ _).mono fun _ _ => .mono (slot_subset_Ici _ _ _)

/-! ## Storing a value in its place -/

theorem within_touches_storeAt (base : Handle) (descriptor : Descriptor) (offset : Nat)
    (value : Value) :
    Within (Touches (base.slot offset (descriptor.slotSize Heap.pointerSize)))
      (storeAt base descriptor offset value : Run H Unit) := by
  refine Within.bind ?_ fun _ => within_touches_write _ _ _ _
  refine (within_touches_lowerStored_storeItems.1 _ _).mono fun _ _ => ?_
  exact .mono (Set.empty_subset _)

theorem touches_of_storeAt_eq_error {error : BindError}
    (h : storeAt base descriptor offset value bridge = .error error after) :
    bridge.Touches ∅ after := by
  have hready := within_touches_lowerStored_storeItems.1 descriptor value bridge
  rcases of_bind_eq_error h with hlower | ⟨lowered, middle, hlower, hwrite⟩
  · rw [hlower] at hready
    exact touches_of_run hready
  · rw [hlower] at hready
    exact (touches_of_run hready).trans (touches_of_write_eq_error hwrite)

/-- The items before one that is refused have been stored. -/
theorem of_storeEach_eq_error {error : BindError}
    (h : storeEach base element offset stride items bridge = .error error after) :
    ∃ front item rest stored, items = front ++ item :: rest ∧
      storeEach base element offset stride front bridge = .ok ⟨⟩ stored ∧
      bridge.Touches (base.slots offset stride (element.slotSize Heap.pointerSize) front.length)
        stored ∧
      stored.Touches ∅ after := by
  obtain ⟨done, ⟨item, index⟩, rest, stored, hitems, hdone, hitem⟩ := exists_of_forM_eq_error h
  obtain ⟨front, back, rfl, rfl, hback⟩ := List.zipIdx_eq_append_iff.1 hitems
  obtain ⟨_, others, rfl, hfirst, _⟩ := List.zipIdx_eq_cons_iff.1 hback.symm
  obtain ⟨rfl, rfl⟩ := Prod.mk.inj hfirst
  refine ⟨front, item, _, stored, rfl, hdone, ?_, touches_of_storeAt_eq_error hitem⟩
  refine touches_of_run (Within.of_eq_ok (Within.forM_of_mem fun entry hentry => ?_) hdone)
  refine (within_touches_storeAt _ _ _ _).mono fun _ _ => .mono fun addr haddr => ?_
  exact ⟨entry.2, List.snd_lt_of_mem_zipIdx hentry, haddr⟩

/-! ## Writing a field -/

theorem writeTo_eq_storeEach (hwritable : binding.writable = true)
    (hbase : owner.nonNull? = some base)
    (harray : inlineArray? binding = some (element, stride, count))
    (hfits : items.length ≤ count) :
    (writeTo owner type name (.array items) binding : Run H Unit) =
      storeEach base element binding.layout.offset stride items := by
  simp only [writeTo, hwritable, hbase, harray, Value.asArray?, Nat.not_lt_of_le hfits]
  rfl

/-- A write of a field that fails leaves every byte of the memory as it was, unless the field holds
an array and the first items could be stored. These have been written then, as if they were the only
ones, and nothing else is touched. -/
theorem keeps_or_begun_of_writeField_eq_error (hsound : bridge.heap.Sound) {error : BindError}
    (h : writeField env owner type name value bridge = .error error after)
    (hroom : after.heap.next ≤ twoPow 64) :
    bridge.heap.Keeps ∅ after.heap ∨
      ∃ binding middle base element stride count front item rest stored,
        fieldOf env type name bridge = .ok binding middle ∧ owner.nonNull? = some base ∧
        inlineArray? binding = some (element, stride, count) ∧
        value = .array (front ++ item :: rest) ∧ (front ++ item :: rest).length ≤ count ∧
        front ≠ [] ∧ writeField env owner type name (.array front) bridge = .ok ⟨⟩ stored ∧
        bridge.heap.Keeps (base.slots binding.layout.offset stride
          (element.slotSize Heap.pointerSize) front.length) stored.heap ∧
        stored.heap.Keeps ∅ after.heap := by
  have hlook : (ending (fieldOf env type name bridge)).heap = bridge.heap :=
    heap_ending_of_registering (fun _ hregisters => hregisters.enrols.within_fieldOf type name) bridge
  rw [writeField_eq] at h
  rcases of_bind_eq_error h with hfield | ⟨binding, middle, hfield, hwrite⟩
  · rw [hfield] at hlook
    have hsame : after.heap = bridge.heap := hlook
    rw [hsame]
    exact .inl (Heap.keeps_refl _ _)
  · rw [hfield] at hlook
    have hkept : middle.heap = bridge.heap := hlook
    rw [← hkept] at hsound ⊢
    have hcase := writeTo_cases owner type name value binding middle
    rw [hwrite] at hcase
    cases hcase with
    | refused => exact .inl (Heap.keeps_refl _ _)
    | single _ _ hstore =>
        exact .inl ((touches_of_storeAt_eq_error hstore).keeps hsound hroom)
    | @each base element stride count items _ hwritable hbase harray hvalue hfits hstore =>
        subst hvalue
        obtain ⟨front, item, rest, stored, rfl, hfront, hbegun, hlast⟩ :=
          of_storeEach_eq_error hstore
        -- the item that is refused touches nothing, so all that has happened is the items before it
        have hlastKept := hlast.keeps (hbegun.sound hsound) hroom
        cases front with
        | nil =>
            cases hfront
            exact .inl hlastKept
        | cons first others =>
            have hshort : (first :: others).length ≤ count := by
              rw [List.length_append] at hfits
              exact Nat.le_trans (Nat.le_add_right _ _) hfits
            refine .inr ⟨binding, middle, base, element, stride, count, first :: others, item,
              rest, stored, hfield, hbase, harray, rfl, hfits, List.cons_ne_nil _ _, ?_, ?_,
              hlastKept⟩
            · rw [writeField_eq, bind_eq_of_eq_ok hfield,
                writeTo_eq_storeEach hwritable hbase harray hshort]
              exact hfront
            · exact hbegun.keeps hsound (Nat.le_trans hlast.next_le hroom)

/-- A record that holds four numbers in place. -/
def paths : Repository :=
  .ofSpaces [{
    name := "N"
    libraries := [coreLibrary]
    records := [
      { name := "Path"
        cType := some "NPath"
        fields := [.shown "weights" ((TypeRef.named "gint").arrayOf (.fixed 4))] }] }]

/-- A path, which is the first block there is. -/
def madePath : Bridge silent := ending (allocRecord (silentEnv paths) "N.Path" (start ()))

/-- Two weights of the path are written, and the second of them is no number. -/
def mixedWeights : EStateM.Result BindError (Bridge silent) Unit :=
  writeField (silentEnv paths) (.pointer (.ofNat 0x1000)) "N.Path" "weights"
    (.array [.int 1, .string "x"]) madePath

/-- The second weight is refused, and the path has been left with the first one. -/
theorem path_begun :
    ∃ stored, writeField (silentEnv paths) (.pointer (.ofNat 0x1000)) "N.Path" "weights"
        (.array [.int 1]) madePath = .ok ⟨⟩ stored ∧
      stored.heap.Keeps ∅ (ending mixedWeights).heap := by
  have hmade : Evolves (silentEnv paths) (start ()) madePath :=
    within_allocRecord (lawful_silentEnv paths) "N.Path" (start ())
  have hsound := (hmade.valid (valid_start (silentEnv paths) ())).sound
  have hfails : (failure? mixedWeights).isSome = true := by decide +kernel
  obtain ⟨error, herror⟩ := Option.isSome_iff_exists.1 hfails
  have hattempt := eq_error_of_failure? herror
  have hafter : (ending mixedWeights).heap.Sound := by
    have hwritten : Evolves (silentEnv paths) madePath (ending mixedWeights) :=
      within_writeField _ _ _ _ madePath
    exact (Evolves.valid (hmade.trans hwritten) (valid_start (silentEnv paths) ())).sound
  rcases keeps_or_begun_of_writeField_eq_error hsound hattempt (by decide +kernel) with
    hkept | ⟨_, _, _, _, _, _, front, item, rest, stored, _, _, _, hitems, _, hne, hfront, _, hrest⟩
  · -- the first byte is another one
    have hzero : madePath.heap.bytes (.ofNat 0x1000) 0 1 = .ok [0] := by decide +kernel
    have hone : (ending mixedWeights).heap.bytes (.ofNat 0x1000) 0 1 = .ok [1] := by
      decide +kernel
    have hread := hkept.bytes_eq hafter hzero fun _ _ => Set.notMem_empty _
    rw [hone] at hread
    cases hread
  · have hfirst : front = [.int 1] := by
      cases front with
      | nil => exact absurd rfl hne
      | cons first others =>
          cases others with
          | nil =>
              cases hitems
              rfl
          | cons => simp at hitems
    rw [hfirst] at hfront
    exact ⟨stored, hfront, hrest⟩

/-- Before the second weight was refused, the first byte of the path was zero, and it is not zero
afterwards. -/
theorem refused_weight_leaves_first :
    (failure? mixedWeights).isSome = true ∧
      (madePath.heap.bytes (.ofNat 0x1000) 0 16).toOption = some (List.replicate 16 0) ∧
      ((ending mixedWeights).heap.bytes (.ofNat 0x1000) 0 16).toOption =
        some (1 :: List.replicate 15 0) := by
  decide +kernel

end Bridge

end Interop
