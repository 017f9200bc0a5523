import Mathlib.Order.Bounds.Basic
import Interop.Proofs.Layout.Shape

/-! # Tight placements

A struct wastes no byte that alignment does not ask for: each field starts at the least aligned
offset behind the one before it, and the whole is padded to the least multiple of its largest
alignment. Members of a union start at zero, and the whole is padded in the same way around the
largest of them. Pointers may have any size but zero.
-/

namespace Interop

open Schema

theorem alignUp_le {offset alignment bound : Nat} (hpos : 0 < alignment) (hdvd : alignment ∣ bound)
    (hle : offset ≤ bound) : alignUp offset alignment ≤ bound := by
  obtain ⟨count, rfl⟩ := hdvd
  unfold alignUp
  split
  next => exact hle
  next =>
    rw [Nat.mul_comm alignment count] at hle ⊢
    have hbehind : (count + 1) * alignment = count * alignment + alignment := Nat.succ_mul ..
    have hless : (offset + alignment - 1) / alignment < count + 1 :=
      (Nat.div_lt_iff_lt_mul hpos).2 (by omega)
    exact Nat.mul_le_mul_right alignment (Nat.le_of_lt_succ hless)

/-- Rounding up gives the least multiple that is not below the offset. -/
theorem isLeast_alignUp {offset alignment : Nat} (hpos : 0 < alignment) :
    IsLeast {n | alignment ∣ n ∧ offset ≤ n} (alignUp offset alignment) :=
  ⟨⟨dvd_alignUp hpos, le_alignUp offset alignment⟩, fun _ hn => alignUp_le hpos hn.1 hn.2⟩

namespace Placement

variable {slots : List (String × TypeLayout)}

/-- Each field starts at the least multiple of its alignment that is not below the end of the field
before it, or not below the given start. The other number is where the last one ends. -/
inductive Packed : Nat → List FieldLayout → Nat → Prop
  | nil (start : Nat) : Packed start [] start
  | cons {start last : Nat} {field : FieldLayout} {rest : List FieldLayout}
      (hoffset : IsLeast {n | field.alignment ∣ n ∧ start ≤ n} field.offset)
      (hrest : Packed field.endOffset rest last) : Packed start (field :: rest) last

/-- The largest alignment of some fields. -/
def Strictest (fields : List FieldLayout) (largest : Nat) : Prop :=
  IsGreatest {n | ∃ field ∈ fields, field.alignment = n} largest

/-- The size is the least multiple of the largest alignment that covers what is to be covered, and
zero if there are no fields. -/
def Padded (fields : List FieldLayout) (Covers : Nat → Prop) (size : Nat) : Prop :=
  fields = [] ∧ size = 0 ∨
    ∃ largest, Strictest fields largest ∧ IsLeast {n | largest ∣ n ∧ Covers n} size

/-- No byte is wasted that alignment does not ask for. -/
def Tight : RecordKind → List FieldLayout → Nat → Prop
  | .struct, fields, size => ∃ last, Packed 0 fields last ∧ Padded fields (last ≤ ·) size
  | .union, fields, size =>
    (∀ field ∈ fields, field.offset = 0) ∧
      Padded fields (fun n => ∀ field ∈ fields, field.size ≤ n) size

theorem endOf_cons (start offset : Nat) (field : FieldLayout) (rest : List FieldLayout)
    (h : field.endOffset = offset) : endOf start (field :: rest) = endOf offset rest := by
  cases rest with
  | nil => exact h
  | cons next rest => rfl

theorem packed_following (start : Nat) (hpos : ∀ slot ∈ slots, 0 < slot.2.alignment) :
    Packed start (following start slots) (endOf start (following start slots)) := by
  induction slots generalizing start with
  | nil => exact .nil start
  | cons slot rest ih =>
      obtain ⟨name, layout⟩ := slot
      obtain ⟨hfirst, hrest⟩ := List.forall_mem_cons.1 hpos
      rw [following, endOf_cons start _ _ _ rfl]
      exact .cons (isLeast_alignUp hfirst) (ih _ hrest)

/-- Of slots with positive alignments the largest is that of the whole. -/
theorem strictest_ofKind (kind : RecordKind) (hpos : ∀ slot ∈ slots, 0 < slot.2.alignment)
    (hsome : slots ≠ []) : Strictest (ofKind kind slots).1 (ofKind kind slots).2.alignment := by
  obtain ⟨_, hbound, hcase⟩ :=
    foldl_max_spec (fun slot : String × TypeLayout => slot.2.alignment) slots 1
  have hslots := map_slot_ofKind kind slots
  have htotal : (ofKind kind slots).2.alignment = alignment slots := by cases kind <;> rfl
  have hfound : ∃ slot ∈ slots, slot.2.alignment = alignment slots := by
    rcases hcase with hstart | ⟨slot, hslot, hvalue⟩
    · -- no alignment is larger than one, so any of them is the largest
      obtain ⟨slot, hslot⟩ := List.exists_mem_of_ne_nil slots hsome
      refine ⟨slot, hslot, Nat.le_antisymm (hbound slot hslot) ?_⟩
      exact Nat.le_trans (Nat.le_of_eq hstart) (hpos slot hslot)
    · exact ⟨slot, hslot, hvalue.symm⟩
  rw [htotal]
  constructor
  · obtain ⟨slot, hslot, hvalue⟩ := hfound
    rw [← hslots] at hslot
    obtain ⟨field, hfield, rfl⟩ := List.mem_map.1 hslot
    exact ⟨field, hfield, hvalue⟩
  · rintro n ⟨field, hfield, rfl⟩
    have hslot := List.mem_map_of_mem (f := FieldLayout.slot) hfield
    rw [hslots] at hslot
    exact hbound _ hslot

/-- What is padded to its alignment as tightly as can be is so to the largest one of its fields. -/
theorem padded_ofKind (kind : RecordKind) (hpos : ∀ slot ∈ slots, 0 < slot.2.alignment)
    {Covers : Nat → Prop} (hempty : slots = [] → (ofKind kind slots).2.size = 0)
    (hleast : IsLeast {n | (ofKind kind slots).2.alignment ∣ n ∧ Covers n}
      (ofKind kind slots).2.size) :
    Padded (ofKind kind slots).1 Covers (ofKind kind slots).2.size := by
  by_cases hslots : slots = []
  · refine .inl ⟨?_, hempty hslots⟩
    rw [← List.map_eq_nil_iff (f := FieldLayout.slot), map_slot_ofKind, hslots]
  · exact .inr ⟨_, strictest_ofKind kind hpos hslots, hleast⟩

theorem isLeast_size_overlapping (slots : List (String × TypeLayout)) :
    IsLeast {n | (overlapping slots).2.alignment ∣ n ∧
        ∀ field ∈ (overlapping slots).1, field.size ≤ n} (overlapping slots).2.size := by
  have hpos : 0 < alignment slots :=
    (foldl_max_spec (fun slot : String × TypeLayout => slot.2.alignment) slots 1).1
  obtain ⟨_, hbound, hcase⟩ :=
    foldl_max_spec (fun slot : String × TypeLayout => slot.2.size) slots 0
  refine ⟨⟨dvd_alignUp hpos, fun field hfield => ?_⟩, fun n hn => alignUp_le hpos hn.1 ?_⟩
  · obtain ⟨slot, hslot, rfl⟩ := List.mem_map.1 hfield
    exact Nat.le_trans (hbound slot hslot) (le_alignUp _ _)
  · rcases hcase with hstart | ⟨slot, hslot, hvalue⟩
    · exact Nat.le_trans (Nat.le_of_eq hstart) (Nat.zero_le n)
    · exact Nat.le_trans (Nat.le_of_eq hvalue) (hn.2 _ (List.mem_map_of_mem hslot))

theorem tight_ofKind (kind : RecordKind) (hpos : ∀ slot ∈ slots, 0 < slot.2.alignment) :
    Tight kind (ofKind kind slots).1 (ofKind kind slots).2.size := by
  have halignment : 0 < alignment slots :=
    (foldl_max_spec (fun slot : String × TypeLayout => slot.2.alignment) slots 1).1
  cases kind with
  | struct =>
      refine ⟨_, packed_following 0 hpos,
        padded_ofKind .struct hpos ?_ (isLeast_alignUp halignment)⟩
      rintro rfl
      rfl
  | union =>
      refine ⟨?_, padded_ofKind .union hpos ?_ (isLeast_size_overlapping slots)⟩
      · intro field hfield
        obtain ⟨slot, _, rfl⟩ := List.mem_map.1 hfield
        rfl
      · rintro rfl
        rfl

end Placement

/-! ## Positive alignments -/

namespace Slot

/-- The scalars in the slot have a positive alignment. -/
def Aligned : Slot → Prop
  | scalar layout => 0 < layout.alignment
  | nested _ => True
  | repeated _ element => element.Aligned

theorem Aligned.layout {slot : Slot} {compound : String → TypeLayout} (h : slot.Aligned)
    (hcompound : ∀ inner, 0 < (compound inner).alignment) :
    0 < (slot.layout compound).alignment := by
  induction slot with
  | scalar layout => exact h
  | nested qualified => exact hcompound qualified
  | repeated count element ih => exact ih h

theorem ofType_aligned {repo : Repository} {pointerSize : Nat} (hpointer : 0 < pointerSize)
    (space : String) (inArray : Bool) (type : TypeRef) :
    (ofType repo pointerSize space inArray type).Aligned := by
  have hprimitives (kind : PrimitiveKind) : 0 < kind.alignment pointerSize := by
    cases kind <;> simp [PrimitiveKind.alignment, PrimitiveKind.size, hpointer]
  exact ofType_induction hpointer hprimitives (Nat.succ_pos 3) (fun _ => trivial) (fun _ _ h => h)
    space inArray type

end Slot

namespace Platform

variable {platform : Platform}

theorem alignment_expand?_pos (hpointer : 0 < platform.pointerSize) {path : List String}
    {qualified : String} {layout : TypeLayout}
    (h : platform.expand? path qualified = some layout) : 0 < layout.alignment := by
  by_cases hmem : qualified ∈ path
  · rw [expand?_of_mem hmem] at h
    cases h
    exact hpointer
  cases hfind : Compound.find? platform.repo qualified with
  | none =>
      rw [expand?_of_find?_eq_none hmem hfind] at h
      cases h
  | some compound =>
      rw [expand?_of_find?_eq_some hmem hfind] at h
      cases h
      -- the alignment of a record starts from one
      have hpos (slots : List (String × TypeLayout)) : 0 < Placement.alignment slots :=
        (foldl_max_spec (fun slot : String × TypeLayout => slot.2.alignment) slots 1).1
      unfold place
      cases compound.kind <;> exact hpos _

theorem alignment_slotLayout_pos (hpointer : 0 < platform.pointerSize) (path : List String)
    (space : String) (inArray : Bool) (type : TypeRef) :
    0 < (platform.slotLayout path space inArray type).alignment := by
  refine (Slot.ofType_aligned hpointer space inArray type).layout fun inner => ?_
  cases hinner : platform.expand? path inner with
  | none => exact hpointer
  | some layout => exact alignment_expand?_pos hpointer hinner

end Platform

namespace Calculator

/-- The field layouts are for the declared fields in their order, and each has the layout that the
calculator gives the type of the field by itself. -/
def Places (calculator : Calculator) (space : String) (fields : List Field)
    (placed : List FieldLayout) : Prop :=
  List.Forall₂ (fun field layout =>
    layout.slot = (field.name, (calculator.fieldTypeLayout space field.type).1)) fields placed

theorem Sound.places {calculator : Calculator} (hsound : calculator.Sound) (space : String)
    (kind : RecordKind) (fields : List Field) :
    calculator.Places space fields (calculator.platform.place [] space kind fields).1 := by
  have hslots := Platform.map_slot_place calculator.platform [] space kind fields
  have hsame : List.Forall₂ Eq _ _ := List.forall₂_eq_eq_eq ▸ hslots
  rw [List.forall₂_map_left_iff, List.forall₂_map_right_iff] at hsame
  refine hsame.flip.imp fun field layout hslot => ?_
  rw [hslot, (fieldTypeLayout_replies hsound space field.type).1]
  rfl

/-- Whatever a calculator was asked before, it places fields tightly, hidden ones among them, and
gives the size that goes with it. -/
theorem layout_recordSize_tight (platform : Platform) (hpointer : 1 ≤ platform.pointerSize)
    (queries : List LayoutQuery) (space : String) (kind : RecordKind) (fields : List Field) :
    let calculator := (platform.calculator.answers queries).2
    let placed := (calculator.layout space kind fields true).1
    calculator.Places space fields placed ∧
      Placement.Tight kind placed (calculator.recordSize space kind fields).1 := by
  intro calculator placed
  obtain ⟨_, hplatform, hsound⟩ := answers_replies (calculator_sound platform) queries
  have hplaced : placed = (calculator.platform.place [] space kind fields).1 :=
    (layout_replies hsound space kind fields true).1
  have hsize : (calculator.recordSize space kind fields).1 =
      (calculator.platform.place [] space kind fields).2.size :=
    (recordSize_replies hsound space kind fields).1
  have hpos : 0 < calculator.platform.pointerSize := hplatform ▸ hpointer
  rw [hplaced, hsize]
  refine ⟨hsound.places space kind fields, Placement.tight_ofKind kind fun slot hslot => ?_⟩
  obtain ⟨field, _, rfl⟩ := List.mem_map.1 hslot
  exact Platform.alignment_slotLayout_pos hpos [] space false field.type

/-- A platform whose pointers take three bytes. -/
def threeByte : Platform := ⟨.ofSpaces [], 3⟩

def link : List Field :=
  [.shown "tag" (.named "gint8"), .concealed "next" (.named "gpointer"),
    .shown "count" (.named "gint16")]

theorem link_tight :
    let calculator := (threeByte.calculator.answers [.recordSize "N" .union link]).2
    let placed := (calculator.layout "N" .struct link true).1
    1 ≤ threeByte.pointerSize ∧ calculator.Places "N" link placed ∧
      Placement.Tight .struct placed (calculator.recordSize "N" .struct link).1 := by
  have hpointer : 1 ≤ threeByte.pointerSize := by decide
  exact ⟨hpointer, layout_recordSize_tight threeByte hpointer [.recordSize "N" .union link] "N"
    .struct link⟩

example : (threeByte.calculator.layout "N" .struct link true).1 =
    [⟨"tag", 0, 1, 1⟩, ⟨"next", 3, 3, 3⟩, ⟨"count", 6, 2, 2⟩] := by decide +kernel

/-- Eight bytes are used, and the next multiple of three is nine. -/
example : (threeByte.calculator.recordSize "N" .struct link).1 = 9 := by decide +kernel

end Calculator

end Interop
