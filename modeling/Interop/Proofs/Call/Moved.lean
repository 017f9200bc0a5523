import Interop.Call.Build
import Interop.Proofs.Mapping.Indices

/-! # Moved descriptors

The arguments of a method stand behind its instance, so a plan moves the indices in a descriptor.
Only the outermost layer, and what is in its slot, names arguments of the call; all else about a
descriptor stays as it is.
-/

namespace Interop

namespace Descriptor

variable {offset pointerSize : Nat} {descriptor part : Descriptor} {path : List Edge}

/-- Moving indices leaves what a descriptor is made of, but what is in a slot is moved with it. -/
theorem shift_cases (offset : Nat) (descriptor : Descriptor) :
    (∃ inner, descriptor = .reference inner ∧
        descriptor.shift offset = .reference (inner.shift offset)) ∨
      ∀ edge, (descriptor.shift offset).child? edge = descriptor.child? edge := by
  cases descriptor with
  | reference inner => exact .inl ⟨inner, rfl, rfl⟩
  | array _ _ length =>
      right
      cases length <;> exact fun edge => by cases edge <;> rfl
  | _ => exact .inr fun edge => by cases edge <;> rfl

@[simp]
theorem isReference_shift : (descriptor.shift offset).isReference = descriptor.isReference := by
  cases descriptor with
  | array _ _ length => cases length <;> rfl
  | _ => rfl

@[simp]
theorem isCallback_shift : (descriptor.shift offset).isCallback = descriptor.isCallback := by
  cases descriptor with
  | array _ _ length => cases length <;> rfl
  | _ => rfl

@[simp]
theorem inPlace?_shift : (descriptor.shift offset).inPlace? = descriptor.inPlace? := by
  cases descriptor with
  | array _ _ length => cases length <;> rfl
  | _ => rfl

@[simp]
theorem ownership?_shift : (descriptor.shift offset).ownership? = descriptor.ownership? := by
  fun_induction shift offset descriptor with
  | case1 inner ih => exact ih
  | _ => rfl

@[simp]
theorem layered_shift : (descriptor.shift offset).Layered pointerSize ↔
    descriptor.Layered pointerSize := by
  cases descriptor with
  | reference inner => simp [shift, Layered]
  | array _ _ length => cases length <;> rfl
  | _ => rfl

/-- A part of a moved descriptor is a part of it, moved or not. -/
theorem of_part?_shift (h : (descriptor.shift offset).part? path = some part) :
    ∃ original, descriptor.part? path = some original ∧
      (part = original ∨ part = original.shift offset) := by
  induction path generalizing descriptor with
  | nil =>
      cases h
      exact ⟨descriptor, rfl, .inr rfl⟩
  | cons edge rest ih =>
      rcases shift_cases offset descriptor with ⟨inner, rfl, hshift⟩ | hsame
      · rw [hshift] at h
        cases edge with
        | inner => exact ih h
        | _ => cases h
      · rw [part?, hsame] at h
        exact ⟨part, h, .inl rfl⟩

theorem WellFormed.shift (h : descriptor.WellFormed pointerSize) (offset : Nat) :
    (descriptor.shift offset).WellFormed pointerSize := by
  constructor
  case layered =>
    intro path part hpart
    obtain ⟨original, horiginal, rfl | rfl⟩ := of_part?_shift hpart
    · exact h.layered path part horiginal
    · exact layered_shift.2 (h.layered path original horiginal)
  case inPlace =>
    intro path part hpart hinPlace
    obtain ⟨original, horiginal, rfl | rfl⟩ := of_part?_shift hpart
    · exact h.inPlace path part horiginal hinPlace
    · rw [inPlace?_shift] at hinPlace
      exact h.inPlace path original horiginal hinPlace

/-- Moving a descriptor moves what it names. -/
theorem slot?_shift (offset : Nat) (kind : SlotKind) (descriptor : Descriptor) :
    (descriptor.shift offset).slot? kind = (descriptor.slot? kind).map (· + offset) := by
  fun_induction shift offset descriptor with
  | case1 inner ih => exact ih
  | case2 => cases kind <;> rfl
  | case3 => cases kind <;> rfl
  | case4 other hreference harray hcallback =>
      cases other with
      | reference inner => exact (hreference _ rfl).elim
      | callback => exact (hcallback _ _ _ _ _ _ rfl).elim
      | array _ _ length =>
          cases length with
          | param index => exact (harray _ _ _ _ _ rfl).elim
          | _ => cases kind <;> rfl
      | _ => rfl

end Descriptor

end Interop
