import Mathlib.Data.List.Forall2
import Interop.Proofs.Layout.Memo
import Interop.Proofs.Layout.Placement

/-! # The shape of a type

The field layouts of a shape are those of the fields that are not hidden, and each has the layout of
the slot that it was placed for.
-/

namespace Interop

open Schema Relation

/-- Items of equal images that meet in a pair. -/
theorem eq_of_mem_zip {α β γ : Type} {left : List α} {right : List β} {f : α → γ} {g : β → γ}
    (h : left.map f = right.map g) {a : α} {b : β} (hmem : (a, b) ∈ left.zip right) :
    f a = g b := by
  obtain ⟨index, hindex⟩ := List.mem_iff_getElem?.1 hmem
  rw [List.getElem?_zip_eq_some] at hindex
  have hsame := congrArg (·[index]?) h
  simpa only [List.getElem?_map, hindex.1, hindex.2, Option.map_some, Option.some.injEq] using hsame

/-! ## What slots there are -/

namespace Slot

variable {repo : Repository} {pointerSize : Nat} {motive : Slot → Prop}

/-- What holds of pointers, numbers and compound types holds of the slot of any single value. -/
theorem ofSpelling_induction (pointer : motive (.scalar (.pointer pointerSize)))
    (primitive : ∀ kind : PrimitiveKind,
      motive (.scalar ⟨kind.size pointerSize, kind.alignment pointerSize⟩))
    (enum : motive (.scalar enumLayout)) (nested : ∀ qualified, motive (.nested qualified))
    (space : String) (inArray : Bool) (type : TypeRef) :
    motive (ofSpelling repo pointerSize space inArray type) := by
  have hcompound (condition : Bool) (qualified : String) :
      motive (if condition then .nested qualified else .scalar (.pointer pointerSize)) := by
    cases condition with
    | true => exact nested qualified
    | false => exact pointer
  unfold ofSpelling
  split
  next => exact pointer
  next =>
    split
    next kind _ => exact primitive kind
    next =>
      split
      iterate 2 exact enum
      iterate 3 exact hcompound _ _
      exact pointer

/-- What also passes from elements to arrays holds of the slot of any type. -/
theorem ofType_induction (pointer : motive (.scalar (.pointer pointerSize)))
    (primitive : ∀ kind : PrimitiveKind,
      motive (.scalar ⟨kind.size pointerSize, kind.alignment pointerSize⟩))
    (enum : motive (.scalar enumLayout)) (nested : ∀ qualified, motive (.nested qualified))
    (repeated : ∀ count element, motive element → motive (.repeated count element))
    (space : String) (inArray : Bool) (type : TypeRef) :
    motive (ofType repo pointerSize space inArray type) := by
  induction type generalizing inArray with
  | plain spelling =>
      exact ofSpelling_induction pointer primitive enum nested space inArray (.plain spelling)
  | array spelling form element ih =>
      unfold ofType
      split
      next count _ =>
        split
        next => exact pointer
        next => exact repeated count _ (ih true)
      next => exact pointer

end Slot

namespace Platform

variable (platform : Platform)

/-- The layout of a slot by those of the declared types. -/
def layoutOf (slot : Slot) : TypeLayout :=
  slot.layout fun inner => (platform.typeLayout? inner).getD (.pointer platform.pointerSize)

variable {platform}

/-- Each field is placed for the slot of the declared field of the same index. -/
theorem map_slot_place (platform : Platform) (path : List String) (space : String)
    (kind : RecordKind) (fields : List Field) :
    (platform.place path space kind fields).1.map FieldLayout.slot =
      fields.map fun field => (field.name, platform.slotLayout path space false field.type) :=
  Placement.map_slot_ofKind kind _

/-- The slots of a settled type have the layouts that they have anywhere. -/
theorem Settled.slotLayout_eq {qualified : String} {compound : Compound} {field : Field}
    (h : platform.Settled qualified)
    (hfind : Compound.find? platform.repo qualified = some compound)
    (hfield : field ∈ compound.fields) :
    platform.slotLayout [qualified] compound.space false field.type =
      platform.layoutOf
        (Slot.ofType platform.repo platform.pointerSize compound.space false field.type) := by
  refine Slot.layout_congr fun inner hinner => ?_
  have hstores : platform.Stores qualified inner := ⟨compound, hfind, field, hfield, hinner⟩
  rw [(h.stored hstores).expand?_eq (by simpa using TransGen.single hstores)]
  rfl

theorem typeLayout?_of_find? {qualified : String} {compound : Compound}
    (hsettled : platform.Settled qualified)
    (hfind : Compound.find? platform.repo qualified = some compound) :
    platform.typeLayout? qualified =
      some (platform.place [] compound.space compound.kind compound.fields).2 := by
  rw [typeLayout?, expand?_of_find?_eq_some List.not_mem_nil hfind]
  simp only [place, Option.some.injEq]
  rw [List.map_congr_left fun field hfield => by rw [hsettled.slotLayout_eq hfind hfield]]
  rfl

/-- A field layout in a shape is that of a declared field that is not hidden. -/
theorem mem_fieldLayouts {qualified : String} {compound : Compound} {shape : RecordShape}
    {layout : FieldLayout} (hfind : Compound.find? platform.repo qualified = some compound)
    (hshape : platform.recordShape? qualified = some shape) (h : layout ∈ shape.fieldLayouts) :
    ∃ field ∈ compound.fields, field.hidden = false ∧
      layout ∈ (platform.place [qualified] compound.space compound.kind compound.fields).1 ∧
      layout.slot =
        (field.name, platform.slotLayout [qualified] compound.space false field.type) := by
  rw [recordShape?, hfind, Option.map_some, Option.some.injEq] at hshape
  subst hshape
  rw [Compound.shape] at h
  split at h
  next => exact absurd h List.not_mem_nil
  next =>
    obtain ⟨⟨found, field⟩, hentry, rfl⟩ := List.mem_map.1 h
    obtain ⟨hzip, hshown⟩ := List.mem_filter.1 hentry
    have hmem := List.of_mem_zip hzip
    exact ⟨field, hmem.2, by simpa using hshown, hmem.1, eq_of_mem_zip (map_slot_place ..) hzip⟩

end Platform

namespace Compound

/-- The fields that everyone may see. -/
def visible (compound : Compound) : List Field :=
  if compound.sealed then [] else compound.fields.filter (!·.hidden)

theorem forall₂_shownOnly {R : Field → FieldLayout → Prop} {fields : List Field}
    {layouts : List FieldLayout} (h : List.Forall₂ R fields layouts) :
    List.Forall₂ R (fields.filter (!·.hidden)) (shownOnly fields layouts) := by
  induction h with
  | nil => exact .nil
  | @cons field layout _ _ hfirst _ ih =>
      cases hhidden : field.hidden with
      | true => simpa [shownOnly, hhidden] using ih
      | false => simpa [shownOnly, hhidden] using And.intro hfirst ih

end Compound

theorem Platform.exists_recordShape? {platform : Platform} {qualified : String}
    {compound : Compound} (hfind : Compound.find? platform.repo qualified = some compound) :
    ∃ shape, platform.recordShape? qualified = some shape := by
  rw [recordShape?, hfind]
  exact ⟨_, rfl⟩

/-- The visible fields of a type have their layouts in its shape, in order. -/
theorem Platform.forall₂_fieldLayouts {platform : Platform} {qualified : String}
    {compound : Compound} {shape : RecordShape}
    (hfind : Compound.find? platform.repo qualified = some compound)
    (hshape : platform.recordShape? qualified = some shape) :
    List.Forall₂ (fun field layout => field ∈ compound.fields ∧ layout.field = field.name)
      compound.visible shape.fieldLayouts := by
  rw [recordShape?, hfind, Option.map_some, Option.some.injEq] at hshape
  subst hshape
  rw [Compound.shape, Compound.visible]
  split
  next => exact .nil
  next =>
    refine Compound.forall₂_shownOnly ((List.forall₂_and_left _ _).2 ⟨fun _ h => h, ?_⟩)
    have hnames := congrArg (List.map Prod.fst)
      (map_slot_place platform [qualified] compound.space compound.kind compound.fields)
    rw [List.map_map, List.map_map] at hnames
    have hsame : List.Forall₂ Eq _ _ := List.forall₂_eq_eq_eq ▸ hnames
    rw [List.forall₂_map_left_iff, List.forall₂_map_right_iff] at hsame
    exact hsame.flip

end Interop
