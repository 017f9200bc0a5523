import Interop.Layout.Basic

/-! # Where members come to lie

Members of a struct follow each other without overlap, members of a union start together, and every
member is aligned and ends within the whole. This takes layouts whose alignments are powers of two
and whose sizes are multiples of their alignments; the whole is again of that kind.
-/

namespace Interop

open Schema

theorem twoPow_dvd_twoPow {a b : Nat} (h : twoPow a ≤ twoPow b) : twoPow a ∣ twoPow b :=
  Nat.pow_dvd_pow 2 ((Nat.pow_le_pow_iff_right (by decide)).1 h)

theorem le_alignUp (offset alignment : Nat) : offset ≤ alignUp offset alignment := by
  unfold alignUp
  split
  next => exact Nat.le_refl offset
  next hlarge =>
    have hdiv := Nat.div_add_mod (offset + alignment - 1) alignment
    have hmod := Nat.mod_lt (offset + alignment - 1) (show 0 < alignment by omega)
    rw [Nat.mul_comm] at hdiv
    omega

theorem dvd_alignUp {offset alignment : Nat} (hpos : 0 < alignment) :
    alignment ∣ alignUp offset alignment := by
  unfold alignUp
  split
  next hsmall =>
    obtain rfl : alignment = 1 := by omega
    exact Nat.one_dvd offset
  next => exact Nat.dvd_mul_left alignment _

theorem alignUp_of_dvd {offset alignment : Nat} (h : alignment ∣ offset) :
    alignUp offset alignment = offset := by
  unfold alignUp
  split
  next => rfl
  next hlarge =>
    obtain ⟨count, rfl⟩ := h
    have hsum : alignment * count + alignment - 1 = alignment - 1 + alignment * count := by omega
    rw [hsum, Nat.add_mul_div_left _ _ (by omega), Nat.div_eq_of_lt (by omega), Nat.zero_add,
      Nat.mul_comm]

@[simp] theorem alignUp_zero (alignment : Nat) : alignUp 0 alignment = 0 :=
  alignUp_of_dvd (Nat.dvd_zero alignment)

/-- The maximum that a fold finds is an upper bound, and is the start or one of the values of the
items. -/
theorem foldl_max_spec {α : Type} (value : α → Nat) (items : List α) (start : Nat) :
    start ≤ items.foldl (fun most item => max most (value item)) start ∧
      (∀ item ∈ items, value item ≤ items.foldl (fun most item => max most (value item)) start) ∧
      (items.foldl (fun most item => max most (value item)) start = start ∨
        ∃ item ∈ items,
          items.foldl (fun most item => max most (value item)) start = value item) := by
  induction items generalizing start with
  | nil => simp
  | cons item rest ih =>
      obtain ⟨hstart, hrest, hcase⟩ := ih (max start (value item))
      rw [List.foldl_cons]
      refine ⟨by omega, List.forall_mem_cons.2 ⟨by omega, hrest⟩, ?_⟩
      rcases hcase with hcase | ⟨found, hfound, hcase⟩
      · rcases Nat.le_total (value item) start with hle | hle
        · exact .inl (hcase.trans (Nat.max_eq_left hle))
        · exact .inr ⟨item, List.mem_cons_self, hcase.trans (Nat.max_eq_right hle)⟩
      · exact .inr ⟨found, List.mem_cons_of_mem item hfound, hcase⟩

namespace TypeLayout

/-- The alignment is a power of two, and the size is a multiple of it. -/
structure Regular (layout : TypeLayout) : Prop where
  power : ∃ exponent, layout.alignment = twoPow exponent
  dvd : layout.alignment ∣ layout.size

namespace Regular

variable {layout : TypeLayout}

theorem pos (h : layout.Regular) : 0 < layout.alignment := by
  obtain ⟨exponent, hpower⟩ := h.power
  exact hpower ▸ twoPow_pos exponent

/-- Elements of an array follow each other without gaps. -/
theorem stride_eq (h : layout.Regular) : layout.stride = layout.size := alignUp_of_dvd h.dvd

theorem times (h : layout.Regular) (count : Nat) : (layout.times count).Regular :=
  ⟨h.power, Nat.dvd_mul_right_of_dvd (dvd_alignUp h.pos) count⟩

theorem pointer {pointerSize exponent : Nat} (h : pointerSize = twoPow exponent) :
    (TypeLayout.pointer pointerSize).Regular :=
  ⟨⟨exponent, h⟩, Nat.dvd_refl _⟩

end Regular

end TypeLayout

namespace FieldLayout

/-- The name and the layout that the field was placed for. -/
def slot (field : FieldLayout) : String × TypeLayout := (field.field, ⟨field.size, field.alignment⟩)

@[simp] theorem slot_placed (name : String) (offset : Nat) (layout : TypeLayout) :
    (placed name offset layout).slot = (name, layout) := rfl

end FieldLayout

namespace Placement

variable {slots : List (String × TypeLayout)}

theorem map_slot_following (offset : Nat) (slots : List (String × TypeLayout)) :
    (following offset slots).map FieldLayout.slot = slots := by
  induction slots generalizing offset with
  | nil => rfl
  | cons slot rest ih =>
      obtain ⟨name, layout⟩ := slot
      rw [following, List.map_cons, ih, FieldLayout.slot_placed]

/-- Each field is placed for the slot of the same index. -/
theorem map_slot_ofKind (kind : RecordKind) (slots : List (String × TypeLayout)) :
    (ofKind kind slots).1.map FieldLayout.slot = slots := by
  cases kind with
  | struct => exact map_slot_following 0 slots
  | union =>
      simp only [ofKind, overlapping, List.map_map]
      exact List.map_id slots

theorem le_offset_of_mem_following {offset : Nat} {field : FieldLayout}
    (h : field ∈ following offset slots) : offset ≤ field.offset := by
  induction slots generalizing offset with
  | nil => simp [following] at h
  | cons slot rest ih =>
      obtain ⟨name, layout⟩ := slot
      have hstart := le_alignUp offset layout.alignment
      rcases List.mem_cons.1 h with rfl | h
      · exact hstart
      · have hrest := ih h
        omega

/-- Fields that follow each other do not overlap. -/
theorem pairwise_following (offset : Nat) (slots : List (String × TypeLayout)) :
    (following offset slots).Pairwise fun a b => a.endOffset ≤ b.offset := by
  induction slots generalizing offset with
  | nil => exact List.Pairwise.nil
  | cons slot rest ih =>
      obtain ⟨name, layout⟩ := slot
      exact List.pairwise_cons.2 ⟨fun field hfield => le_offset_of_mem_following hfield, ih _⟩

theorem dvd_offset_of_mem_following {offset : Nat} {field : FieldLayout}
    (hpos : ∀ slot ∈ slots, 0 < slot.2.alignment) (h : field ∈ following offset slots) :
    field.alignment ∣ field.offset := by
  induction slots generalizing offset with
  | nil => simp [following] at h
  | cons slot rest ih =>
      obtain ⟨name, layout⟩ := slot
      obtain ⟨hfirst, hrest⟩ := List.forall_mem_cons.1 hpos
      rcases List.mem_cons.1 h with rfl | h
      · exact dvd_alignUp hfirst
      · exact ih hrest h

/-- No field reaches behind the last one. -/
theorem endOffset_le_endOf_following {offset : Nat} {field : FieldLayout}
    (h : field ∈ following offset slots) :
    field.endOffset ≤ endOf offset (following offset slots) := by
  have hlast := List.getLast?_eq_some_getLast (List.ne_nil_of_mem h)
  generalize (following offset slots).getLast (List.ne_nil_of_mem h) = last at hlast
  rw [endOf, hlast]
  obtain ⟨before, hsplit⟩ := List.getLast?_eq_some_iff.1 hlast
  have hpairs := pairwise_following offset slots
  rw [hsplit] at h hpairs
  rcases List.mem_append.1 h with hbefore | hlast
  · have hle := (List.pairwise_append.1 hpairs).2.2 field hbefore last (by simp)
    simp only [Option.map_some, Option.getD_some, FieldLayout.endOffset] at hle ⊢
    omega
  · obtain rfl := List.mem_singleton.1 hlast
    simp

/-- Fields without a size all lie at the start. -/
theorem endOffset_following_of_size_eq_zero (h : ∀ slot ∈ slots, slot.2.size = 0)
    {field : FieldLayout} (hfield : field ∈ following 0 slots) : field.endOffset = 0 := by
  induction slots with
  | nil => cases hfield
  | cons slot rest ih =>
      obtain ⟨name, layout⟩ := slot
      obtain ⟨hfirst, hrest⟩ := List.forall_mem_cons.1 h
      have hfirst : layout.size = 0 := hfirst
      rw [following, alignUp_zero, hfirst] at hfield
      rcases List.mem_cons.1 hfield with rfl | hfield
      · simp [FieldLayout.endOffset, FieldLayout.placed, hfirst]
      · exact ih hrest hfield

/-- What is made of nothing takes no room. -/
theorem size_ofKind_eq_zero (kind : RecordKind) (h : ∀ slot ∈ slots, slot.2.size = 0) :
    (ofKind kind slots).2.size = 0 := by
  cases kind with
  | struct =>
      have hend : endOf 0 (following 0 slots) = 0 := by
        unfold endOf
        cases hlast : (following 0 slots).getLast? with
        | none => rfl
        | some last => exact endOffset_following_of_size_eq_zero h (List.mem_of_getLast? hlast)
      simp only [ofKind, sequential, hend, alignUp_zero]
  | union =>
      obtain ⟨_, _, hstart | ⟨slot, hslot, hvalue⟩⟩ :=
        foldl_max_spec (fun slot : String × TypeLayout => slot.2.size) slots 0
      · simp only [ofKind, overlapping, hstart, alignUp_zero]
      · rw [h slot hslot] at hvalue
        simp only [ofKind, overlapping, hvalue, alignUp_zero]

theorem exists_field_of_size_pos {kind : RecordKind} (h : 0 < (ofKind kind slots).2.size) :
    ∃ field ∈ (ofKind kind slots).1, 0 < field.size := by
  by_cases hsome : ∃ field ∈ (ofKind kind slots).1, 0 < field.size
  · exact hsome
  · refine absurd (size_ofKind_eq_zero kind fun slot hslot => ?_) (Nat.ne_of_gt h)
    rw [← map_slot_ofKind kind slots] at hslot
    obtain ⟨field, hfield, rfl⟩ := List.mem_map.1 hslot
    exact Nat.eq_zero_of_not_pos fun hpos => hsome ⟨field, hfield, hpos⟩

/-- The whole is padded to its alignment. -/
theorem dvd_size_ofKind (kind : RecordKind) (slots : List (String × TypeLayout)) :
    (ofKind kind slots).2.alignment ∣ (ofKind kind slots).2.size := by
  have hpos : 0 < alignment slots :=
    (foldl_max_spec (fun slot : String × TypeLayout => slot.2.alignment) slots 1).1
  cases kind <;> exact dvd_alignUp hpos

section Regular

variable (h : ∀ slot ∈ slots, slot.2.Regular)
include h

theorem alignment_power : ∃ exponent, alignment slots = twoPow exponent := by
  obtain ⟨_, _, hstart | ⟨slot, hslot, hvalue⟩⟩ :=
    foldl_max_spec (fun slot : String × TypeLayout => slot.2.alignment) slots 1
  · exact ⟨0, hstart⟩
  · obtain ⟨exponent, hpower⟩ := (h slot hslot).power
    exact ⟨exponent, hvalue.trans hpower⟩

/-- The largest of some powers of two is a multiple of each. -/
theorem alignment_dvd {slot : String × TypeLayout} (hslot : slot ∈ slots) :
    slot.2.alignment ∣ alignment slots := by
  have hle := (foldl_max_spec (fun slot : String × TypeLayout => slot.2.alignment) slots 1).2.1
    slot hslot
  obtain ⟨exponent, hpower⟩ := (h slot hslot).power
  obtain ⟨total, htotal⟩ := alignment_power h
  rw [hpower, htotal]
  rw [hpower] at hle
  exact twoPow_dvd_twoPow (Nat.le_trans hle (Nat.le_of_eq htotal))

theorem ofKind_regular (kind : RecordKind) : (ofKind kind slots).2.Regular := by
  refine ⟨?_, dvd_size_ofKind kind slots⟩
  cases kind <;> exact alignment_power h

/-- A placed field is aligned, the whole is aligned at least as strictly, and the field ends within
the whole. -/
theorem mem_ofKind {kind : RecordKind} {field : FieldLayout}
    (hfield : field ∈ (ofKind kind slots).1) :
    field.alignment ∣ field.offset ∧ field.alignment ∣ (ofKind kind slots).2.alignment ∧
      field.endOffset ≤ (ofKind kind slots).2.size := by
  have hslot : field.slot ∈ slots := by
    rw [← map_slot_ofKind kind slots]
    exact List.mem_map_of_mem hfield
  have hdvd : field.alignment ∣ alignment slots := alignment_dvd h hslot
  cases kind with
  | struct =>
      refine ⟨dvd_offset_of_mem_following (fun slot hslot => (h slot hslot).pos) hfield, hdvd, ?_⟩
      exact Nat.le_trans (endOffset_le_endOf_following hfield) (le_alignUp _ _)
  | union =>
      obtain ⟨slot, hmem, rfl⟩ := List.mem_map.1 hfield
      refine ⟨Nat.dvd_zero _, hdvd, Nat.le_trans ?_ (le_alignUp _ _)⟩
      have hle := (foldl_max_spec (fun slot : String × TypeLayout => slot.2.size) slots 0).2.1
        slot hmem
      simpa only [FieldLayout.endOffset, FieldLayout.placed, Nat.zero_add] using hle

end Regular

end Placement

end Interop
