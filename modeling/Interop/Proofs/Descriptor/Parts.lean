import Interop.Descriptor

/-! # Parts of a descriptor

A descriptor is a tree: arrays have an element, slots an inner value, and callbacks parameters and
a result. A part is found by the list of steps that lead to it from the root. `WellFormed` is the
grammar of this tree, which everything that reads a descriptor relies on without checking it.
-/

namespace Interop

namespace Descriptor

/-- A step from a descriptor to one that it is directly made of. -/
inductive Edge where
  | element
  | inner
  | param (index : Nat)
  | result
  deriving DecidableEq, Repr

def child? : Edge → Descriptor → Option Descriptor
  | .element, array element _ _ _ _ => some element
  | .inner, reference inner => some inner
  | .param index, callback _ params _ _ _ _ => params[index]?
  | .result, callback _ _ result _ _ _ => some result
  | _, _ => none

/-- The part that some steps lead to. -/
def part? : List Edge → Descriptor → Option Descriptor
  | [], descriptor => some descriptor
  | edge :: rest, descriptor => (descriptor.child? edge).bind (part? rest)

/-- What is not made of anything else is its only part. -/
theorem eq_of_part?_of_leaf {descriptor part : Descriptor}
    (hleaf : ∀ edge, descriptor.child? edge = none) {path : List Edge}
    (h : descriptor.part? path = some part) : part = descriptor := by
  cases path with
  | nil =>
      cases h
      rfl
  | cons edge rest =>
      obtain ⟨_, hchild, _⟩ := Option.bind_eq_some_iff.1 h
      cases (hleaf edge).symm.trans hchild

def isReference : Descriptor → Bool
  | reference _ => true
  | _ => false

def isArray : Descriptor → Bool
  | array .. => true
  | _ => false

def isCallback : Descriptor → Bool
  | callback .. => true
  | _ => false

/-- The type of the record that is stored in the place of a value. -/
def inPlace? : Descriptor → Option String
  | .struct innerType _ _ true _ => some innerType
  | _ => none

theorem of_inPlace?_eq_some {descriptor : Descriptor} {innerType : String}
    (h : descriptor.inPlace? = some innerType) :
    ∃ library size ownership, descriptor = .struct innerType library size true ownership := by
  unfold inPlace? at h
  split at h
  next innerType library size ownership =>
    cases h
    exact ⟨library, size, ownership, rfl⟩
  next => cases h

/-- What a descriptor must not be directly made of. A primitive has its size from the table. -/
def Layered (pointerSize : Nat) : Descriptor → Prop
  | primitive kind size => kind ≠ .void ∧ size = kind.size pointerSize
  | reference inner => inner.isReference = false ∧ inner.isCallback = false
  | array element _ _ _ _ => element.isArray = false ∧ element.isReference = false ∧
      element.isCallback = false ∧ element.isNull = false
  | callback _ _ result _ _ _ => result.isCallback = false ∧ result.isReference = false
  | string _ | boxed .. | struct .. | object .. | null => True

/-- Every part keeps to the layers, and records are in place in arrays only. -/
structure WellFormed (pointerSize : Nat) (top : Descriptor) : Prop where
  layered : ∀ path part, top.part? path = some part → part.Layered pointerSize
  inPlace : ∀ path part, top.part? path = some part → part.inPlace?.isSome = true →
    path.getLast? = some .element

/-- A descriptor is well formed if it keeps to the layers and is made of well formed ones. -/
theorem WellFormed.of_children {pointerSize : Nat} {top : Descriptor}
    (hlayered : top.Layered pointerSize) (hplace : top.inPlace? = none)
    (hchildren : ∀ edge part, top.child? edge = some part → part.WellFormed pointerSize) :
    top.WellFormed pointerSize := by
  constructor
  case layered =>
    intro path part hpart
    cases path with
    | nil =>
        cases hpart
        exact hlayered
    | cons edge rest =>
        obtain ⟨middle, hmiddle, hrest⟩ := Option.bind_eq_some_iff.1 hpart
        exact (hchildren edge middle hmiddle).layered rest part hrest
  case inPlace =>
    intro path part hpart hinPlace
    cases path with
    | nil =>
        cases hpart
        rw [hplace] at hinPlace
        cases hinPlace
    | cons edge rest =>
        obtain ⟨middle, hmiddle, hrest⟩ := Option.bind_eq_some_iff.1 hpart
        have hlast := (hchildren edge middle hmiddle).inPlace rest part hrest hinPlace
        rw [List.getLast?_cons, hlast]
        rfl

theorem WellFormed.of_leaf {pointerSize : Nat} {descriptor : Descriptor}
    (hleaf : ∀ edge, descriptor.child? edge = none) (hlayered : descriptor.Layered pointerSize)
    (hplace : descriptor.inPlace? = none) : descriptor.WellFormed pointerSize := by
  refine .of_children hlayered hplace fun edge part hpart => ?_
  cases (hleaf edge).symm.trans hpart

end Descriptor

end Interop
