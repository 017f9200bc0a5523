import Interop.Proofs.Bridge.Fields
import Interop.Proofs.Call.Stems
import Interop.Proofs.Layout.Shape

/-! # One size for each type

The size of a type is computed along two ways: from a walk that may know it already, and from a new
placement of its fields. The two give the same, and so do all that use them: what is allocated for a
record, what a descriptor says about it, and how much room it takes in the fields of other types.
Only inside of itself a type takes no more than a pointer.
-/

namespace Interop

open Schema Relation

namespace Platform

variable {platform : Platform} {qualified : String}

/-- Open types matter only if the type leads back to them. -/
theorem expand?_eq_typeLayout? {path : List String}
    (h : ∀ outer ∈ path, ¬ ReflTransGen platform.Stores qualified outer) :
    platform.expand? path qualified = platform.typeLayout? qualified :=
  expand?_congr fun inner hinner =>
    iff_of_false (fun hmem => h inner hmem hinner) List.not_mem_nil

theorem memoized?_eq_typeLayout? {path : List String} {walk : Walk}
    (hsound : platform.Sound walk.memo)
    (hopen : ∀ outer ∈ path, TransGen platform.Stores outer qualified)
    (hleads : ∀ outer ∈ path, ¬ ReflTransGen platform.Stores qualified outer) :
    (platform.memoized? path qualified walk).1 = platform.typeLayout? qualified :=
  (memoized?_gives hopen walk hsound).1.trans (expand?_eq_typeLayout? hleads)

/-- Both ways to the layout of a type start from its fields, with the type itself open. -/
theorem total_recordShape? (platform : Platform) (qualified : String) :
    (platform.recordShape? qualified).map RecordShape.total = platform.typeLayout? qualified := by
  cases hfind : Compound.find? platform.repo qualified with
  | none =>
      rw [recordShape?, hfind, typeLayout?, expand?_of_find?_eq_none List.not_mem_nil hfind]
      rfl
  | some compound =>
      rw [recordShape?, hfind, typeLayout?, expand?_of_find?_eq_some List.not_mem_nil hfind,
        Option.map_some, Option.map_some, Option.some.injEq, Compound.shape]
      split <;> rfl

theorem size_slotLayout_nested {outer space : String} {inArray : Bool} {type : TypeRef}
    (hslot : Slot.ofType platform.repo platform.pointerSize space inArray type = .nested qualified)
    (hleads : ¬ ReflTransGen platform.Stores qualified outer) :
    (platform.slotLayout [outer] space inArray type).size = platform.typeSize qualified := by
  have hlayout : platform.expand? [outer] qualified = platform.typeLayout? qualified :=
    expand?_eq_typeLayout? fun other hother => List.mem_singleton.1 hother ▸ hleads
  rw [slotLayout, hslot, Slot.layout, hlayout]
  exact size_layoutOf_nested qualified

/-- The visible fields of a type have the layouts of their slots in its shape, in order. -/
theorem forall₂_slot_fieldLayouts {outer : String} {compound : Compound} {shape : RecordShape}
    (hfind : Compound.find? platform.repo outer = some compound)
    (hshape : platform.recordShape? outer = some shape) :
    List.Forall₂ (fun field layout => FieldLayout.slot layout =
        (field.name, platform.slotLayout [outer] compound.space false field.type))
      compound.visible shape.fieldLayouts := by
  rw [recordShape?, hfind, Option.map_some, Option.some.injEq] at hshape
  subst hshape
  rw [Compound.shape, Compound.visible]
  split
  next => exact .nil
  next =>
    refine Compound.forall₂_shownOnly ?_
    have hslots := map_slot_place platform [outer] compound.space compound.kind compound.fields
    have hsame : List.Forall₂ Eq _ _ := List.forall₂_eq_eq_eq ▸ hslots
    rw [List.forall₂_map_left_iff, List.forall₂_map_right_iff] at hsame
    exact hsame.flip

end Platform

/-- A record that describes an origin has the size of its type. -/
theorem Renders.size_eq {platform : Platform} {pointerSize size : Nat} {source : Origin}
    {qualified library : String} {inPlace : Bool} {ownership : Ownership}
    (h : Renders platform pointerSize source (.struct qualified library size inPlace ownership)) :
    size = platform.typeSize qualified := by
  obtain ⟨_, original, hrepresents, hsame⟩ := h
  have horiginal : original = .struct qualified library size inPlace ownership := by
    rcases hsame with rfl | ⟨offset, hshift⟩
    · rfl
    · cases original with
      | array _ _ length => cases length <;> cases hshift
      | struct => exact hshift.symm
      | _ => cases hshift
  subst horiginal
  cases hrepresents
  rfl

/-- Wherever a record is described in a plan, it has the size of its type. -/
theorem CallPlan.size_eq_of_build {builder : CallBuilder} {callable : Callable}
    {owner : Option Owner} {plan : CallPlan} {usage usage' : Usage}
    (h : builder.build callable owner usage = .ok plan usage')
    (howner : ∀ type ∈ owner, ∃ name, builder.ownerOf? name = some type)
    {place : Place} {top : Descriptor} (htop : plan.descriptor? place = some top)
    {path : List Descriptor.Edge} {qualified library : String} {size : Nat} {inPlace : Bool}
    {ownership : Ownership}
    (hpart : top.part? path = some (.struct qualified library size inPlace ownership)) :
    size = builder.mapper.platform.typeSize qualified := by
  obtain ⟨described, returned, args, hbuilt⟩ := CallBuilder.exists_built_of_build h
  rcases hbuilt.stemming_or_receiver htop hpart with
    ⟨source, _, hrenders⟩ | hnone | ⟨type, htype, _, _, _, rfl⟩
  · exact hrenders.size_eq
  · cases hnone
  · obtain ⟨name, hname⟩ := howner type htype
    cases CallBuilder.describesInstance_of_part? hname hpart
    rfl

namespace Bridge

variable {H : Host} {env : Env H} {bridge after : Bridge H} {qualified : String} {value : Value}

/-- A new instance is the wrapper of a block of the size of its type. -/
theorem alloc_of_allocRecord_eq_ok (hvalid : bridge.Valid env)
    (h : allocRecord env qualified bridge = .ok value after) :
    ∃ id handle typeName library middle last, value = .object id handle ∧
      alloc (env.compiler.platform.typeSize qualified) typeName library middle =
        .ok handle last ∧
      wrap env handle typeName .full last = .ok value after := by
  obtain ⟨bindings, record, handle, middle, last, id, hspace, hrecord, halloc, hwrap, rfl⟩ :=
    steps_of_allocRecord_eq_ok h
  obtain ⟨name, hname, hcompiled, _⟩ := of_namespaceOf_eq_ok hvalid hspace
  obtain ⟨_, _, _, _, _, _, hshape, _⟩ := Compiler.of_record?_eq_some hcompiled hname hrecord
  -- the shape that was compiled has the size of the type
  have htotal := Platform.total_recordShape? env.compiler.platform qualified
  rw [hshape, Option.map_some] at htotal
  have hsize : env.compiler.platform.typeSize qualified = record.shape.total.size := by
    rw [Platform.typeSize, ← htotal]
    rfl
  rw [hsize]
  exact ⟨id, handle, _, _, middle, last, rfl, halloc, hwrap⟩

end Bridge

namespace Calculator

/-- What a calculator says about a type, and what others make of it. -/
structure Agrees (calculator : Calculator) (qualified : String) : Prop where
  /-- There is a shape exactly if there is a layout, and they are of the same size and
  alignment. -/
  total : (calculator.recordShape? qualified).1.map RecordShape.total =
    (calculator.typeLayout? qualified).1
  typeSize : ∀ layout, (calculator.typeLayout? qualified).1 = some layout →
    (calculator.typeSize qualified).1 = layout.size
  /-- The type has its layout also below open types that it does not lead back to. -/
  nested : ∀ path walk, calculator.platform.Sound walk.memo →
    (∀ outer ∈ path, TransGen calculator.platform.Stores outer qualified) →
    (∀ outer ∈ path, ¬ ReflTransGen calculator.platform.Stores qualified outer) →
    (calculator.platform.memoized? path qualified walk).1 = (calculator.typeLayout? qualified).1
  /-- A visible field that the type is stored in has its size. -/
  field : ∀ outer compound shape, Compound.find? calculator.platform.repo outer = some compound →
    (calculator.recordShape? outer).1 = some shape →
    ¬ ReflTransGen calculator.platform.Stores qualified outer →
    ∀ (index : Nat) (field : Field) (layout : FieldLayout),
      compound.visible[index]? = some field → shape.fieldLayouts[index]? = some layout →
      Slot.ofType calculator.platform.repo calculator.platform.pointerSize compound.space false
        field.type = .nested qualified →
      layout.size = (calculator.typeSize qualified).1
  /-- Wherever a plan describes an instance, it has its size. -/
  described : ∀ (builder : CallBuilder) (callable : Callable) (owner : Option Owner)
    (plan : CallPlan) (usage usage' : Usage), builder.mapper.platform = calculator.platform →
    builder.build callable owner usage = .ok plan usage' →
    (∀ type ∈ owner, ∃ name, builder.ownerOf? name = some type) →
    ∀ (place : CallPlan.Place) (path : List Descriptor.Edge) (top : Descriptor) (library : String)
      (size : Nat) (inPlace : Bool) (ownership : Ownership), plan.descriptor? place = some top →
      top.part? path = some (.struct qualified library size inPlace ownership) →
      size = (calculator.typeSize qualified).1
  /-- A new instance is the wrapper of a block of its size. -/
  allocated : ∀ (H : Host) (env : Env H) (bridge after : Bridge H) (value : Value),
    env.compiler.platform = calculator.platform → bridge.Reachable env →
    Bridge.allocRecord env qualified bridge = .ok value after →
    ∃ id handle typeName library middle last, value = .object id handle ∧
      Bridge.alloc (calculator.typeSize qualified).1 typeName library middle = .ok handle last ∧
      Bridge.wrap env handle typeName .full last = .ok value after

theorem Sound.agrees {calculator : Calculator} (hsound : calculator.Sound) (qualified : String) :
    calculator.Agrees qualified := by
  obtain ⟨hlayout, _, _⟩ := typeLayout?_replies hsound qualified
  obtain ⟨hsize, _, _⟩ := typeSize_replies hsound qualified
  constructor
  case total =>
    obtain ⟨hshape, _, _⟩ := recordShape?_replies hsound qualified
    rw [hshape, hlayout]
    exact Platform.total_recordShape? _ _
  case typeSize =>
    intro layout hsome
    rw [hsize, Platform.typeSize, ← hlayout, hsome]
    rfl
  case nested =>
    intro path walk hmemo hopen hleads
    rw [hlayout]
    exact Platform.memoized?_eq_typeLayout? hmemo hopen hleads
  case field =>
    intro outer compound shape hfind hsome hleads index field layout hfield hplaced hslot
    -- the fields of the outer type are placed in their order
    obtain ⟨hshape, _, _⟩ := recordShape?_replies hsound outer
    have hall := Platform.forall₂_slot_fieldLayouts hfind (hshape.symm.trans hsome)
    obtain ⟨found, hfound, hsame⟩ := Steps.exists_getElem?_of_forall₂ hall hfield
    obtain rfl : layout = found := Option.some.inj (hplaced.symm.trans hfound)
    rw [hsize, ← Platform.size_slotLayout_nested hslot hleads]
    exact congrArg (fun slot => slot.2.size) hsame
  case described =>
    intro builder callable owner plan usage usage' hplatform hbuild howner place path top library
      size inPlace ownership htop hpart
    rw [hsize, ← hplatform]
    exact CallPlan.size_eq_of_build hbuild howner htop hpart
  case allocated =>
    intro H env bridge after value hplatform hreachable halloc
    rw [hsize, ← hplatform]
    exact Bridge.alloc_of_allocRecord_eq_ok hreachable.valid halloc

/-- Whatever a calculator has been asked before, all sizes of a type agree. -/
theorem agrees_answers (platform : Platform) (queries : List LayoutQuery) (qualified : String) :
    (platform.calculator.answers queries).2.Agrees qualified :=
  (answers_replies (calculator_sound platform) queries).2.2.agrees qualified

end Calculator

namespace Platform

/-- Two types that are stored in each other. -/
def tangled : Platform where
  repo := .ofSpaces [{
    name := "N"
    unions := [
      { name := "Left"
        cType := some "NLeft"
        kind := .union
        fields := [.shown "right" ((TypeRef.named "Right").withCType "NRight"),
          .shown "wide" ((TypeRef.named "gint64").arrayOf (.fixed 2))] },
      { name := "Right"
        cType := some "NRight"
        kind := .union
        fields := [.shown "left" ((TypeRef.named "Left").withCType "NLeft"),
          .shown "narrow" (.named "gint32")] }] }]
  pointerSize := 8

/-- A type that contains itself by way of another one takes less room in that one than alone. -/
theorem tangled_smaller_in_field :
    ¬ ∀ (qualified outer : String) (compound : Compound) (shape : RecordShape),
      Compound.find? tangled.repo outer = some compound →
      (tangled.calculator.recordShape? outer).1 = some shape →
      ∀ (index : Nat) (field : Field) (layout : FieldLayout),
        compound.visible[index]? = some field → shape.fieldLayouts[index]? = some layout →
        Slot.ofType tangled.repo tangled.pointerSize compound.space false field.type =
          .nested qualified →
        layout.size = (tangled.calculator.typeSize qualified).1 := by
  intro h
  have hsize := h "N.Right" "N.Left"
    ⟨"N", .union, [.shown "right" ((TypeRef.named "Right").withCType "NRight"),
      .shown "wide" ((TypeRef.named "gint64").arrayOf (.fixed 2))], false⟩
    (.shown [.placed "right" 0 ⟨8, 8⟩, .placed "wide" 0 ⟨16, 8⟩] ⟨16, 8⟩)
    (by decide +kernel) (by decide +kernel) 0 _ _ rfl rfl (by decide +kernel)
  exact absurd hsize (by decide +kernel)

end Platform

end Interop
