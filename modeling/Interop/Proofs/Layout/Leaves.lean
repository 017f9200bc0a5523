import Interop.Proofs.Layout.Shape

/-! # The leaves of a type

Taking a type apart down to its numbers and pointers, each with the way that leads to it. For
pointers whose size is a power of two every leaf of a type without by-value cycles is aligned and
lies within the type, and leaves of different fields of a struct or of different elements of an
array do not overlap.
-/

namespace Interop

open Schema Relation

/-- A part of a value: a field of a record of the given kind, or an element of an array. -/
inductive Part where
  | field (kind : RecordKind) (index : Nat)
  | element (index : Nat)
  deriving DecidableEq, Repr, Inhabited

namespace Part

/-- The parts have no bytes in common: two fields of a struct, or two elements of an array. -/
def Separate : Part → Part → Prop
  | field .struct i, field .struct j => i ≠ j
  | element i, element j => i ≠ j
  | _, _ => False

/-- The ways part at a value whose two parts are separate. -/
inductive Apart : List Part → List Part → Prop
  | here {left right : Part} {belowLeft belowRight : List Part} (h : left.Separate right) :
      Apart (left :: belowLeft) (right :: belowRight)
  | deeper {part : Part} {left right : List Part} (h : Apart left right) :
      Apart (part :: left) (part :: right)

end Part

/-- A number or a pointer somewhere in a value, and the way from the value to it. -/
structure Leaf where
  path : List Part
  offset : Nat
  layout : TypeLayout
  deriving DecidableEq, Repr, Inhabited

namespace Leaf

/-- The first offset behind the leaf. -/
def endOffset (leaf : Leaf) : Nat := leaf.offset + leaf.layout.size

/-- A leaf of a part as a leaf of the whole. -/
def within (leaf : Leaf) (part : Part) (start : Nat) : Leaf :=
  ⟨part :: leaf.path, start + leaf.offset, leaf.layout⟩

def Disjoint (left right : Leaf) : Prop :=
  left.endOffset ≤ right.offset ∨ right.endOffset ≤ left.offset

@[simp] theorem endOffset_within (leaf : Leaf) (part : Part) (start : Nat) :
    (leaf.within part start).endOffset = start + leaf.endOffset := by
  simp only [endOffset, within, Nat.add_assoc]

theorem Disjoint.within {left right : Leaf} (h : left.Disjoint right) (part : Part) (start : Nat) :
    (left.within part start).Disjoint (right.within part start) := by
  rcases h with h | h
  · exact .inl (endOffset_within left part start ▸ Nat.add_le_add_left h start)
  · exact .inr (endOffset_within right part start ▸ Nat.add_le_add_left h start)

end Leaf

namespace Platform

variable (platform : Platform)

/-- A slot has a leaf: itself, or one in a field of the type stored in it, at the offset that a
calculator gives the field among all fields, or one in an element of an array. -/
inductive LeafOf : Slot → Leaf → Prop
  | scalar (layout : TypeLayout) : LeafOf (.scalar layout) ⟨[], 0, layout⟩
  | field {qualified : String} {compound : Compound} {index : Nat} {field : Field}
      {placed : FieldLayout} {leaf : Leaf}
      (hfind : Compound.find? platform.repo qualified = some compound)
      (hfield : compound.fields[index]? = some field)
      (hplaced : (platform.calculator.layout compound.space compound.kind compound.fields
        true).1[index]? = some placed)
      (hleaf : LeafOf (Slot.ofType platform.repo platform.pointerSize compound.space false
        field.type) leaf) :
      LeafOf (.nested qualified) (leaf.within (.field compound.kind index) placed.offset)
  | element {count index : Nat} {element : Slot} {leaf : Leaf} (hindex : index < count)
      (hleaf : LeafOf element leaf) :
      LeafOf (.repeated count element)
        (leaf.within (.element index) (index * (platform.layoutOf element).stride))

end Platform

/-! ## Regular layouts -/

section Regular

variable {pointerSize exponent : Nat} (hpointer : pointerSize = twoPow exponent)
include hpointer

theorem PrimitiveKind.regular (kind : PrimitiveKind) :
    TypeLayout.Regular ⟨kind.size pointerSize, kind.alignment pointerSize⟩ := by
  cases kind with
  | gtype | pointer => exact .pointer hpointer
  | void => exact ⟨⟨0, rfl⟩, Nat.dvd_zero _⟩
  | int8 | uint8 => exact ⟨⟨0, rfl⟩, Nat.dvd_refl _⟩
  | int16 | uint16 => exact ⟨⟨1, rfl⟩, Nat.dvd_refl _⟩
  | bool | int32 | uint32 | float | unichar => exact ⟨⟨2, rfl⟩, Nat.dvd_refl _⟩
  | int64 | uint64 | double => exact ⟨⟨3, rfl⟩, Nat.dvd_refl _⟩

end Regular

namespace Slot

/-- The scalars in the slot are regular. -/
def Regular : Slot → Prop
  | scalar layout => layout.Regular
  | nested _ => True
  | repeated _ element => element.Regular

theorem Regular.layout {slot : Slot} {compound : String → TypeLayout} (h : slot.Regular)
    (hcompound : ∀ inner, (compound inner).Regular) : (slot.layout compound).Regular := by
  induction slot with
  | scalar layout => exact h
  | nested qualified => exact hcompound qualified
  | repeated count element ih => exact (ih h).times count

theorem ofType_regular {repo : Repository} {pointerSize exponent : Nat}
    (hpointer : pointerSize = twoPow exponent) (space : String) (inArray : Bool) (type : TypeRef) :
    (ofType repo pointerSize space inArray type).Regular :=
  ofType_induction (.pointer hpointer) (·.regular hpointer) ⟨⟨2, rfl⟩, Nat.dvd_refl 4⟩
    (fun _ => trivial) (fun _ _ h => h) space inArray type

theorem eq_of_compound?_ite {condition : Bool} {qualified inner : String} {layout : TypeLayout}
    (h : (if condition then nested qualified else scalar layout).compound? = some inner) :
    qualified = inner := by
  cases condition with
  | true => exact Option.some.inj h
  | false => cases h

/-- Only compound types are stored in place. -/
theorem exists_find?_of_ofSpelling {repo : Repository} {pointerSize : Nat} {space inner : String}
    {inArray : Bool} {type : TypeRef}
    (h : (ofSpelling repo pointerSize space inArray type).compound? = some inner) :
    ∃ compound, Compound.find? repo inner = some compound := by
  unfold ofSpelling at h
  dsimp only at h
  split at h
  next => cases h
  split at h
  next => cases h
  split at h
  iterate 2 cases h
  iterate 3
    next hdecl =>
      obtain rfl := eq_of_compound?_ite h
      obtain ⟨found, hfound, hdecl⟩ := Option.map_eq_some_iff.1 hdecl
      rw [Repository.resolve?] at hfound
      rw [Compound.find?, hfound, Option.bind_some, Compound.ofResolved?, hdecl]
      exact ⟨_, rfl⟩
  cases h

theorem exists_find?_of_ofType {repo : Repository} {pointerSize : Nat} {space inner : String}
    {inArray : Bool} {type : TypeRef}
    (h : (ofType repo pointerSize space inArray type).compound? = some inner) :
    ∃ compound, Compound.find? repo inner = some compound := by
  induction type generalizing inArray with
  | plain spelling => exact exists_find?_of_ofSpelling h
  | array spelling form element ih =>
      unfold ofType at h
      split at h
      next =>
        split at h
        next => cases h
        next => exact ih h
      next => cases h

end Slot

namespace Platform

variable {platform : Platform} {exponent : Nat}

section Regular

variable (hpointer : platform.pointerSize = twoPow exponent)
include hpointer

theorem expand?_regular {path : List String} {qualified : String} {layout : TypeLayout}
    (h : platform.expand? path qualified = some layout) : layout.Regular := by
  induction hmeasure : platform.repo.remaining path using Nat.strongRecOn
    generalizing path qualified layout with
  | ind bound ih =>
      by_cases hmem : qualified ∈ path
      -- a type that is open has the size of a pointer, so a cycle does no harm here
      · rw [expand?_of_mem hmem, Option.some.injEq] at h
        exact h ▸ .pointer hpointer
      cases hfind : Compound.find? platform.repo qualified with
      | none => simp [expand?_of_find?_eq_none hmem hfind] at h
      | some compound =>
          obtain ⟨type, htype⟩ := resolveQualified?_of_find? hfind
          have hnot : path.contains qualified = false := by simpa using hmem
          have hless := Repository.remaining_cons_lt htype hnot
          rw [expand?_of_find?_eq_some hmem hfind, Option.some.injEq] at h
          subst h
          refine Placement.ofKind_regular (fun slot hslot => ?_) compound.kind
          obtain ⟨field, _, rfl⟩ := List.mem_map.1 hslot
          refine (Slot.ofType_regular hpointer _ _ _).layout fun inner => ?_
          cases hinner : platform.expand? (qualified :: path) inner with
          | none => exact .pointer hpointer
          | some layout => exact ih _ (hmeasure ▸ hless) hinner rfl

theorem layoutOf_regular {slot : Slot} (h : slot.Regular) : (platform.layoutOf slot).Regular := by
  refine h.layout fun inner => ?_
  cases hinner : platform.typeLayout? inner with
  | none => exact .pointer hpointer
  | some layout => exact expand?_regular hpointer hinner

end Regular

/-! ## Types whose stored types are settled -/

/-- Whatever is stored in the slot is settled. -/
def SlotSettled (platform : Platform) (slot : Slot) : Prop :=
  ∀ inner, slot.compound? = some inner → platform.Settled inner

theorem Settled.field {qualified : String} {compound : Compound} {field : Field}
    (h : platform.Settled qualified)
    (hfind : Compound.find? platform.repo qualified = some compound)
    (hfield : field ∈ compound.fields) :
    platform.SlotSettled
      (Slot.ofType platform.repo platform.pointerSize compound.space false field.type) :=
  fun _ hinner => h.stored ⟨compound, hfind, field, hfield, hinner⟩

/-- The field that a calculator places at an index is among the placed fields, and has the layout of
the slot of the field declared at that index. -/
theorem placed_of_getElem? {compound : Compound} {index : Nat} {field : Field}
    {placed : FieldLayout} (hfield : compound.fields[index]? = some field)
    (hplaced : (platform.calculator.layout compound.space compound.kind compound.fields
      true).1[index]? = some placed) :
    placed ∈ (platform.place [] compound.space compound.kind compound.fields).1 ∧
      placed.slot.2 = platform.layoutOf
        (Slot.ofType platform.repo platform.pointerSize compound.space false field.type) := by
  rw [Calculator.layout_calculator] at hplaced
  refine ⟨List.mem_of_getElem? hplaced, ?_⟩
  have hslots := congrArg (·[index]?)
    (map_slot_place platform [] compound.space compound.kind compound.fields)
  simp only [List.getElem?_map, hfield, hplaced, Option.map_some, Option.some.injEq] at hslots
  rw [hslots]
  rfl

/-- A field placed among regular ones is aligned and ends within its type. -/
theorem placed_fits (hpointer : platform.pointerSize = twoPow exponent) {qualified : String}
    {compound : Compound} {placed : FieldLayout} (hsettled : platform.Settled qualified)
    (hfind : Compound.find? platform.repo qualified = some compound)
    (hplaced : placed ∈ (platform.place [] compound.space compound.kind compound.fields).1) :
    placed.alignment ∣ placed.offset ∧
      placed.alignment ∣ (platform.layoutOf (.nested qualified)).alignment ∧
      placed.endOffset ≤ (platform.layoutOf (.nested qualified)).size := by
  have htotal : platform.layoutOf (.nested qualified) =
      (platform.place [] compound.space compound.kind compound.fields).2 := by
    rw [layoutOf, Slot.layout, typeLayout?_of_find? hsettled hfind, Option.getD_some]
  rw [htotal]
  refine Placement.mem_ofKind (fun slot hslot => ?_) hplaced
  obtain ⟨field, _, rfl⟩ := List.mem_map.1 hslot
  exact layoutOf_regular hpointer (Slot.ofType_regular hpointer _ _ _)

/-- A leaf is aligned, its alignment divides that of the whole, and it ends within the whole. -/
theorem LeafOf.fits (hpointer : platform.pointerSize = twoPow exponent) {slot : Slot} {leaf : Leaf}
    (h : platform.LeafOf slot leaf) (hregular : slot.Regular)
    (hsettled : platform.SlotSettled slot) :
    leaf.layout.alignment ∣ leaf.offset ∧
      leaf.layout.alignment ∣ (platform.layoutOf slot).alignment ∧
      leaf.endOffset ≤ (platform.layoutOf slot).size := by
  induction h with
  | scalar layout => exact ⟨Nat.dvd_zero _, Nat.dvd_refl _, Nat.le_of_eq (Nat.zero_add _)⟩
  | @field qualified compound index field placed leaf hfind hfield hplaced hleaf ih =>
      have hwhole := hsettled qualified rfl
      obtain ⟨hmem, hslot⟩ := placed_of_getElem? hfield hplaced
      obtain ⟨hstart, hdivides, hend⟩ := placed_fits hpointer hwhole hfind hmem
      obtain ⟨hoffset, halignment, hinner⟩ := ih (Slot.ofType_regular hpointer _ _ _)
        (hwhole.field hfind (List.mem_of_getElem? hfield))
      rw [← hslot] at halignment hinner
      -- the leaf is aligned within the field, and the field is aligned at least as strictly
      refine ⟨Nat.dvd_add (Nat.dvd_trans halignment hstart) hoffset,
        Nat.dvd_trans halignment hdivides, ?_⟩
      rw [Leaf.endOffset_within]
      exact Nat.le_trans (Nat.add_le_add_left hinner placed.offset) hend
  | @element count index element leaf hindex hleaf ih =>
      have hlayout : (platform.layoutOf element).Regular := layoutOf_regular hpointer hregular
      obtain ⟨hoffset, halignment, hinner⟩ := ih hregular hsettled
      -- a regular size is a multiple of the alignment, so elements follow each other without gaps
      have hstride : leaf.layout.alignment ∣ (platform.layoutOf element).stride :=
        Nat.dvd_trans halignment (hlayout.stride_eq ▸ hlayout.dvd)
      refine ⟨Nat.dvd_add (Nat.dvd_mul_left_of_dvd hstride index) hoffset, halignment, ?_⟩
      rw [Leaf.endOffset_within]
      calc index * (platform.layoutOf element).stride + leaf.endOffset
          ≤ index * (platform.layoutOf element).stride + (platform.layoutOf element).stride :=
            Nat.add_le_add_left (hlayout.stride_eq ▸ hinner) _
        _ = (index + 1) * (platform.layoutOf element).stride := (Nat.succ_mul _ _).symm
        _ ≤ count * (platform.layoutOf element).stride := Nat.mul_le_mul_right _ hindex
        _ = (platform.layoutOf element).stride * count := Nat.mul_comm _ _

/-- Of two fields of a struct the earlier one ends before the later one starts. -/
theorem endOffset_le_of_lt {compound : Compound} {i j : Nat} {left right : FieldLayout}
    (hkind : compound.kind = .struct)
    (hleft : (platform.calculator.layout compound.space compound.kind compound.fields
      true).1[i]? = some left)
    (hright : (platform.calculator.layout compound.space compound.kind compound.fields
      true).1[j]? = some right) (hlt : i < j) : left.endOffset ≤ right.offset := by
  rw [Calculator.layout_calculator, hkind] at hleft hright
  obtain ⟨hi, rfl⟩ := List.getElem?_eq_some_iff.1 hleft
  obtain ⟨hj, rfl⟩ := List.getElem?_eq_some_iff.1 hright
  exact List.pairwise_iff_getElem.1 (Placement.pairwise_following 0 _) i j hi hj hlt

section Bounds

variable (hpointer : platform.pointerSize = twoPow exponent)
include hpointer

/-- A leaf of a field ends within the field. -/
theorem LeafOf.endOffset_field {compound : Compound} {index : Nat} {field : Field}
    {placed : FieldLayout} {leaf : Leaf}
    (hleaf : platform.LeafOf
      (Slot.ofType platform.repo platform.pointerSize compound.space false field.type) leaf)
    (hfield : compound.fields[index]? = some field)
    (hplaced : (platform.calculator.layout compound.space compound.kind compound.fields
      true).1[index]? = some placed)
    (hsettled : platform.SlotSettled
      (Slot.ofType platform.repo platform.pointerSize compound.space false field.type)) :
    (leaf.within (.field compound.kind index) placed.offset).endOffset ≤ placed.endOffset := by
  have hinner := (hleaf.fits hpointer (Slot.ofType_regular hpointer _ _ _) hsettled).2.2
  rw [← (placed_of_getElem? hfield hplaced).2] at hinner
  rw [Leaf.endOffset_within]
  exact Nat.add_le_add_left hinner placed.offset

/-- A leaf of an element ends before the next element starts. -/
theorem LeafOf.endOffset_element {element : Slot} {leaf : Leaf}
    (hleaf : platform.LeafOf element leaf) (hregular : element.Regular)
    (hsettled : platform.SlotSettled element) (index : Nat) :
    (leaf.within (.element index) (index * (platform.layoutOf element).stride)).endOffset ≤
      (index + 1) * (platform.layoutOf element).stride := by
  have hinner := (hleaf.fits hpointer hregular hsettled).2.2
  have hlayout : (platform.layoutOf element).Regular := layoutOf_regular hpointer hregular
  rw [Leaf.endOffset_within, Nat.succ_mul]
  exact Nat.add_le_add_left (hlayout.stride_eq ▸ hinner) _

end Bounds

/-- Leaves whose ways part at separate parts have no byte in common. -/
theorem LeafOf.disjoint (hpointer : platform.pointerSize = twoPow exponent) {slot : Slot}
    {left right : Leaf} (hleft : platform.LeafOf slot left) (hright : platform.LeafOf slot right)
    (hregular : slot.Regular) (hsettled : platform.SlotSettled slot)
    (hapart : Part.Apart left.path right.path) : left.Disjoint right := by
  induction hleft generalizing right with
  | scalar layout => cases hapart
  | @field qualified compound i field placed left hfind hfield hplaced hleft ih =>
      cases hright with
      | @field _ other j field' placed' right hfind' hfield' hplaced' hright =>
          obtain rfl : compound = other := Option.some.inj (hfind.symm.trans hfind')
          have hwhole := hsettled qualified rfl
          have hinner := hwhole.field hfind (List.mem_of_getElem? hfield)
          cases hapart with
          -- both leaves are in one field, which is declared and placed once
          | deeper h =>
              obtain rfl := Option.some.inj (hfield.symm.trans hfield')
              obtain rfl := Option.some.inj (hplaced.symm.trans hplaced')
              exact (ih hright (Slot.ofType_regular hpointer _ _ _) hinner h).within _ _
          | here h =>
              have hinner' := hwhole.field hfind (List.mem_of_getElem? hfield')
              have hend := hleft.endOffset_field hpointer hfield hplaced hinner
              have hend' := hright.endOffset_field hpointer hfield' hplaced' hinner'
              -- each leaf ends within its own field, and the fields of a union are not separate
              cases hkind : compound.kind with
              | union => rw [hkind] at h; exact h.elim
              | struct =>
                  rw [hkind] at h
                  rcases Nat.lt_or_gt_of_ne h with hlt | hgt
                  · have hle := endOffset_le_of_lt hkind hplaced hplaced' hlt
                    exact .inl (Nat.le_trans (Nat.le_trans hend hle) (Nat.le_add_right _ _))
                  · have hle := endOffset_le_of_lt hkind hplaced' hplaced hgt
                    exact .inr (Nat.le_trans (Nat.le_trans hend' hle) (Nat.le_add_right _ _))
  | @element count i element left hi hleft ih =>
      cases hright with
      | @element _ j _ right hj hright =>
          cases hapart with
          | deeper h => exact (ih hright hregular hsettled h).within _ _
          | here h =>
              have hend := hleft.endOffset_element hpointer hregular hsettled i
              have hend' := hright.endOffset_element hpointer hregular hsettled j
              rcases Nat.lt_or_gt_of_ne h with hlt | hgt
              · have hle := Nat.mul_le_mul_right (platform.layoutOf element).stride hlt
                exact .inl (Nat.le_trans (Nat.le_trans hend hle) (Nat.le_add_right _ _))
              · have hle := Nat.mul_le_mul_right (platform.layoutOf element).stride hgt
                exact .inr (Nat.le_trans (Nat.le_trans hend' hle) (Nat.le_add_right _ _))

/-! ## Every field has its leaves -/

/-- A calculator gives every declared field a place. -/
theorem exists_placed {compound : Compound} {index : Nat} {field : Field}
    (hfield : compound.fields[index]? = some field) :
    ∃ placed, (platform.calculator.layout compound.space compound.kind compound.fields
      true).1[index]? = some placed := by
  have hslots := congrArg (·[index]?)
    (map_slot_place platform [] compound.space compound.kind compound.fields)
  simp only [List.getElem?_map, hfield, Option.map_some] at hslots
  obtain ⟨placed, hplaced, _⟩ := Option.map_eq_some_iff.1 hslots
  rw [Calculator.layout_calculator]
  exact ⟨placed, hplaced⟩

/-- What takes room has a leaf if this is so of the type that is stored in it. -/
theorem exists_leafOf_of_stored {slot : Slot} (hregular : slot.Regular)
    (hpointer : platform.pointerSize = twoPow exponent)
    (hstored : ∀ inner, slot.compound? = some inner →
      0 < (platform.layoutOf (.nested inner)).size →
        ∃ leaf, platform.LeafOf (.nested inner) leaf)
    (hsize : 0 < (platform.layoutOf slot).size) : ∃ leaf, platform.LeafOf slot leaf := by
  induction slot with
  | scalar layout => exact ⟨_, .scalar layout⟩
  | nested qualified => exact hstored qualified rfl hsize
  | repeated count element ih =>
      have hlayout : (platform.layoutOf element).Regular := layoutOf_regular hpointer hregular
      have htimes : 0 < (platform.layoutOf element).stride * count := hsize
      rw [hlayout.stride_eq] at htimes
      have helement := Nat.pos_of_mul_pos_right htimes
      have hcount := Nat.pos_of_mul_pos_left htimes
      obtain ⟨leaf, hleaf⟩ := ih hregular hstored helement
      exact ⟨_, .element hcount hleaf⟩

/-- A type that takes room has a leaf. By induction on what is stored in it. -/
theorem exists_leafOf_nested (hpointer : platform.pointerSize = twoPow exponent)
    {qualified : String} {compound : Compound} (hsettled : platform.Settled qualified)
    (hfind : Compound.find? platform.repo qualified = some compound)
    (hsize : 0 < (platform.layoutOf (.nested qualified)).size) :
    ∃ leaf, platform.LeafOf (.nested qualified) leaf := by
  induction hsettled generalizing compound with
  | intro qualified hinner ih =>
      have hwhole : platform.Settled qualified := ⟨_, hinner⟩
      rw [layoutOf, Slot.layout, typeLayout?_of_find? hwhole hfind, Option.getD_some] at hsize
      obtain ⟨placed, hmem, hroom⟩ := Placement.exists_field_of_size_pos hsize
      obtain ⟨index, hplaced⟩ := List.mem_iff_getElem?.1 hmem
      have hslots := congrArg (·[index]?)
        (map_slot_place platform [] compound.space compound.kind compound.fields)
      simp only [List.getElem?_map, Platform.place, hplaced, Option.map_some] at hslots
      obtain ⟨field, hfield, _⟩ := Option.map_eq_some_iff.1 hslots.symm
      have hcalculated : (platform.calculator.layout compound.space compound.kind compound.fields
          true).1[index]? = some placed := by
        rw [Calculator.layout_calculator]
        exact hplaced
      obtain ⟨_, hslot⟩ := placed_of_getElem? hfield hcalculated
      have hsize : 0 < (platform.layoutOf (Slot.ofType platform.repo platform.pointerSize
          compound.space false field.type)).size := hslot ▸ hroom
      obtain ⟨leaf, hleaf⟩ := exists_leafOf_of_stored (Slot.ofType_regular hpointer _ _ _) hpointer
        (fun inner hstored => by
          obtain ⟨_, hfound⟩ := Slot.exists_find?_of_ofType hstored
          exact ih inner ⟨compound, hfind, field, List.mem_of_getElem? hfield, hstored⟩ hfound)
        hsize
      exact ⟨_, .field hfind hfield hcalculated hleaf⟩

/-- Every declared field has a place, and if the field takes room it has a leaf within its place. -/
theorem exists_leafOf_field (hpointer : platform.pointerSize = twoPow exponent)
    {qualified : String} {compound : Compound} {index : Nat} {field : Field}
    (hacyclic : platform.Acyclic qualified)
    (hfind : Compound.find? platform.repo qualified = some compound)
    (hfield : compound.fields[index]? = some field) :
    ∃ placed, (platform.calculator.layout compound.space compound.kind compound.fields
        true).1[index]? = some placed ∧
      (0 < placed.size → ∃ leaf path, platform.LeafOf (.nested qualified) leaf ∧
        leaf.path = .field compound.kind index :: path ∧
        placed.offset ≤ leaf.offset ∧ leaf.endOffset ≤ placed.endOffset) := by
  obtain ⟨placed, hplaced⟩ := platform.exists_placed hfield
  refine ⟨placed, hplaced, fun hroom => ?_⟩
  have hsettled := hacyclic.settled.field hfind (List.mem_of_getElem? hfield)
  have hsize : 0 < (platform.layoutOf (Slot.ofType platform.repo platform.pointerSize
      compound.space false field.type)).size := (placed_of_getElem? hfield hplaced).2 ▸ hroom
  obtain ⟨leaf, hleaf⟩ := exists_leafOf_of_stored (Slot.ofType_regular hpointer _ _ _) hpointer
    (fun inner hstored => by
      obtain ⟨_, hfound⟩ := Slot.exists_find?_of_ofType hstored
      exact exists_leafOf_nested hpointer (hsettled inner hstored) hfound) hsize
  exact ⟨_, _, .field hfind hfield hplaced hleaf, rfl, Nat.le_add_right _ _,
    hleaf.endOffset_field hpointer hfield hplaced hsettled⟩

/-- The leaves of a record, a union or a class from which no by-value cycle can be reached are
aligned, lie within the size that a calculator gives the type, and have no byte in common if they
come from different fields of a struct or from different elements of an array. -/
theorem leaves_aligned_within_disjoint (hpointer : platform.pointerSize = twoPow exponent)
    {qualified : String} {compound : Compound}
    (hfind : Compound.find? platform.repo qualified = some compound)
    (hacyclic : platform.Acyclic qualified) :
    ∃ total, (platform.calculator.typeLayout? qualified).1 = some total ∧
      (∀ leaf, platform.LeafOf (.nested qualified) leaf →
        leaf.layout.alignment ∣ leaf.offset ∧ leaf.endOffset ≤ total.size) ∧
      ∀ left right, platform.LeafOf (.nested qualified) left →
        platform.LeafOf (.nested qualified) right → Part.Apart left.path right.path →
          left.Disjoint right := by
  have hsettled : platform.SlotSettled (.nested qualified) := by
    intro inner hinner
    rw [Slot.compound?, Option.some.injEq] at hinner
    exact hinner ▸ hacyclic.settled
  have htotal := typeLayout?_of_find? hacyclic.settled hfind
  refine ⟨_, (Calculator.typeLayout?_calculator platform qualified).trans htotal, ?_, ?_⟩
  · intro leaf hleaf
    obtain ⟨hoffset, _, hend⟩ := hleaf.fits hpointer trivial hsettled
    rw [layoutOf, Slot.layout, htotal, Option.getD_some] at hend
    exact ⟨hoffset, hend⟩
  · intro left right hleft hright hapart
    exact hleft.disjoint hpointer hright trivial hsettled hapart

/-- Two points behind a tag. -/
def geometry : Platform where
  repo := .ofSpaces [{
    name := "Geo"
    records := [
      { name := "Point", fields := [.shown "x" (.named "gint16"), .shown "y" (.named "gdouble")] },
      { name := "Path"
        fields := [.shown "tag" (.named "gint8"),
          .shown "points" (.arrayOf (.named "Point") (.fixed 2))] }] }]
  pointerSize := 8

theorem geometry_path_leaves :
    geometry.pointerSize = twoPow 3 ∧
      (∃ compound, Compound.find? geometry.repo "Geo.Path" = some compound) ∧
      geometry.Acyclic "Geo.Path" ∧
      ∃ total, (geometry.calculator.typeLayout? "Geo.Path").1 = some total ∧
        (∀ leaf, geometry.LeafOf (.nested "Geo.Path") leaf →
          leaf.layout.alignment ∣ leaf.offset ∧ leaf.endOffset ≤ total.size) ∧
        ∀ left right, geometry.LeafOf (.nested "Geo.Path") left →
          geometry.LeafOf (.nested "Geo.Path") right → Part.Apart left.path right.path →
            left.Disjoint right := by
  have hpointer : geometry.pointerSize = twoPow 3 := rfl
  have hfind : Compound.find? geometry.repo "Geo.Path" =
      some ⟨"Geo", .struct, [.shown "tag" (.named "gint8"),
        .shown "points" (.arrayOf (.named "Point") (.fixed 2))], false⟩ := by decide +kernel
  have hranked : geometry.ranked (fun name => if name = "Geo.Path" then 1 else 0) = true := by
    decide +kernel
  have hacyclic := acyclic_of_ranked hranked "Geo.Path"
  exact ⟨hpointer, ⟨_, hfind⟩, hacyclic, leaves_aligned_within_disjoint hpointer hfind hacyclic⟩

/-- The second coordinate of the second point. -/
example : geometry.LeafOf (.nested "Geo.Path")
    ⟨[.field .struct 1, .element 1, .field .struct 1], 32, ⟨8, 8⟩⟩ := by
  have hpath : Compound.find? geometry.repo "Geo.Path" =
      some ⟨"Geo", .struct, [.shown "tag" (.named "gint8"),
        .shown "points" (.arrayOf (.named "Point") (.fixed 2))], false⟩ := by decide +kernel
  have hpoint : Compound.find? geometry.repo "Geo.Point" =
      some ⟨"Geo", .struct, [.shown "x" (.named "gint16"), .shown "y" (.named "gdouble")],
        false⟩ := by decide +kernel
  have hpoints : Slot.ofType geometry.repo 8 "Geo" false (.arrayOf (.named "Point") (.fixed 2)) =
      .repeated 2 (.nested "Geo.Point") := by decide +kernel
  have hy : Slot.ofType geometry.repo 8 "Geo" false (.named "gdouble") = .scalar ⟨8, 8⟩ := by
    decide +kernel
  have hscalar : geometry.LeafOf (Slot.ofType geometry.repo 8 "Geo" false (.named "gdouble"))
      ⟨[], 0, ⟨8, 8⟩⟩ := hy ▸ .scalar ⟨8, 8⟩
  have hleaf : geometry.LeafOf (.nested "Geo.Point") ⟨[.field .struct 1], 8, ⟨8, 8⟩⟩ :=
    @LeafOf.field geometry _ _ 1 _ ⟨"y", 8, 8, 8⟩ ⟨[], 0, ⟨8, 8⟩⟩ hpoint rfl (by cbv) hscalar
  have hstride : (geometry.layoutOf (.nested "Geo.Point")).stride = 16 := by decide +kernel
  have helement := LeafOf.element (show 1 < 2 by decide) hleaf
  rw [hstride, ← hpoints] at helement
  exact @LeafOf.field geometry _ _ 1 _ ⟨"points", 8, 32, 8⟩ _ hpath rfl (by cbv) helement

end Platform

end Interop
