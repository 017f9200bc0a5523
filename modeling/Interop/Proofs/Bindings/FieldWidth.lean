import Interop.Bridge.Fields
import Interop.Proofs.Bindings.Compiled
import Interop.Proofs.Mapping.Stored
import Interop.Proofs.Schema.Distinct

/-! # How much of a field is reached

Reading or writing a field reaches as many bytes as the layout reserves for it, unless its type is
one of those that the mapper and the layout judge differently. These are listed in
`Platform.Misjudged`, and for each of them the two numbers do differ.
-/

namespace Interop

open Schema

/-- Bytes that are read or written from the offset of the field on. -/
def FieldBinding.touched (field : FieldBinding) (pointerSize : Nat) : Nat :=
  match Bridge.inlineArray? field with
  | some (_, elementSize, count) => elementSize * count
  | none => field.descriptor.slotSize pointerSize

namespace Schema

/-- How the items of an array type are counted. -/
def TypeRef.arrayLength? : TypeRef → Option ArrayLength
  | .plain _ => none
  | .array _ form _ => some (lengthOf form)

end Schema

/-- The compiled classes and records of a namespace by their full names, and their fields. -/
def NamespaceBinding.owners (space : NamespaceBinding) : List (String × List FieldBinding) :=
  (space.classes.map fun cls => (cls.name, cls.fields)) ++
    space.records.map fun record => (record.name, record.fields)

namespace Platform

variable (platform : Platform)

/-- The fields that are reached as if they had a different size. -/
inductive Misjudged (space : String) (type : TypeRef) : Prop
  /-- An instance of a class in place is taken for a pointer to one. -/
  | embedded
      (h : platform.Missized
        (Slot.ofType platform.repo platform.pointerSize space false type))
  /-- So are the elements of an array in place. -/
  | elements {count : Nat} {element : Slot}
      (hslot : Slot.ofType platform.repo platform.pointerSize space false type =
        .repeated count element)
      (hlength : type.arrayLength? = some (.fixed count)) (hcount : count ≠ 0)
      (h : platform.Missized element)
  /-- An array in place is taken for a pointer to one if it is not counted by its fixed number of
  elements. -/
  | counted {count : Nat} {element : Slot}
      (hslot : Slot.ofType platform.repo platform.pointerSize space false type =
        .repeated count element)
      (hlength : type.arrayLength? ≠ some (.fixed count))
      (hsize : (platform.layoutOf (.repeated count element)).size ≠ platform.pointerSize)

variable {platform}

theorem Missized.ne_scalar {slot : Slot} (h : platform.Missized slot) {layout : TypeLayout} :
    slot ≠ .scalar layout := by
  obtain ⟨_, rfl, _⟩ := h
  simp

theorem Missized.ne_repeated {slot : Slot} (h : platform.Missized slot) {count : Nat}
    {element : Slot} : slot ≠ .repeated count element := by
  obtain ⟨_, rfl, _⟩ := h
  simp

theorem not_misjudged_of_scalar {space : String} {type : TypeRef} {layout : TypeLayout}
    (hslot : Slot.ofType platform.repo platform.pointerSize space false type = .scalar layout) :
    ¬ platform.Misjudged space type := by
  intro h
  cases h with
  | embedded h => exact h.ne_scalar hslot
  | elements h | counted h =>
      rw [hslot] at h
      cases h

/-- An array in place that is counted by its fixed number of elements is misjudged as its elements
are. -/
theorem misjudged_iff_of_fixed {space : String} {type : TypeRef} {count : Nat} {element : Slot}
    (hslot : Slot.ofType platform.repo platform.pointerSize space false type =
      .repeated count element)
    (hlength : type.arrayLength? = some (.fixed count)) :
    platform.Misjudged space type ↔ count ≠ 0 ∧ platform.Missized element := by
  constructor
  · intro h
    cases h with
    | embedded h => exact absurd hslot h.ne_repeated
    | elements hslot' _ hcount h =>
        rw [hslot] at hslot'
        cases hslot'
        exact ⟨hcount, h⟩
    | counted hslot' hlength' =>
        rw [hslot] at hslot'
        cases hslot'
        exact absurd hlength hlength'
  · rintro ⟨hcount, h⟩
    exact .elements hslot hlength hcount h

/-- An array in place that is counted otherwise is misjudged unless it is of the size of a
pointer. -/
theorem misjudged_iff_of_not_fixed {space : String} {type : TypeRef} {count : Nat} {element : Slot}
    (hslot : Slot.ofType platform.repo platform.pointerSize space false type =
      .repeated count element)
    (hlength : type.arrayLength? ≠ some (.fixed count)) :
    platform.Misjudged space type ↔
      (platform.layoutOf (.repeated count element)).size ≠ platform.pointerSize := by
  constructor
  · intro h
    cases h with
    | embedded h => exact absurd hslot h.ne_repeated
    | elements hslot' hlength' =>
        rw [hslot] at hslot'
        cases hslot'
        exact absurd hlength' hlength
    | counted hslot' _ hsize =>
        rw [hslot] at hslot'
        cases hslot'
        exact hsize
  · exact .counted hslot hlength

end Platform

/-- An array of a fixed size is counted by that size or by no number at all. -/
theorem lengthOf_of_fixedSize {form : ArrayForm} {count : Nat} (h : form.fixedSize = some count) :
    lengthOf form = .fixed count ∨ ∀ other, lengthOf form ≠ .fixed other := by
  rw [lengthOf, h]
  split
  next => exact .inr (by simp)
  next =>
    cases form.lengthParam with
    | none => exact .inl rfl
    | some index => exact .inr (by simp)

/-- An array of a fixed size that is not spelled as a pointer is stored in the field. -/
theorem stored_of_fixedSize (repo : Repository) (pointerSize : Nat) (space : String) {count : Nat}
    {spelling : Spelling} {form : ArrayForm} {element : TypeRef}
    (hfixed : form.fixedSize = some count)
    (hstar : (TypeRef.array spelling form element).isPointerSpelled = false)
    (descriptor : Descriptor) :
    isStoredInField (.array spelling form element) descriptor = true ∧
      Slot.ofType repo pointerSize space false (.array spelling form element) =
        .repeated count (Slot.ofType repo pointerSize space true element) := by
  constructor
  · rw [isStoredInField, hfixed, hstar]
    rfl
  · rw [Slot.ofType, hfixed]
    exact if_neg (Bool.eq_false_iff.1 hstar)

/-- Of any other array there is a pointer in the field. -/
theorem not_stored_of_pointer (repo : Repository) (pointerSize : Nat) (space : String)
    {spelling : Spelling} {form : ArrayForm} {element : TypeRef}
    (h : ∀ count, form.fixedSize = some count →
      (TypeRef.array spelling form element).isPointerSpelled = true) (descriptor : Descriptor) :
    isStoredInField (.array spelling form element) descriptor = false ∧
      Slot.ofType repo pointerSize space false (.array spelling form element) =
        .scalar (.pointer pointerSize) := by
  rw [isStoredInField, Slot.ofType]
  cases hfixed : form.fixedSize with
  | none => exact ⟨rfl, rfl⟩
  | some count =>
      have hstar := h count hfixed
      exact ⟨by rw [hstar]; rfl, if_pos hstar⟩

namespace FieldBinding

section Array

variable {binding : FieldBinding} {element : Descriptor} {ownership : Ownership}
  {length : ArrayLength} {kind : ArrayKind} {elementSize : Nat}
  (hdescriptor : binding.descriptor = .array element ownership length kind elementSize)
include hdescriptor

theorem touched_of_inPlace {count pointerSize : Nat} (hlength : length = .fixed count)
    (hplace : binding.inPlace = true) : binding.touched pointerSize = elementSize * count := by
  subst hlength
  rw [touched, Bridge.inlineArray?, hdescriptor]
  dsimp only
  rw [if_pos hplace]

theorem touched_of_not_inPlace {pointerSize : Nat} (hplace : binding.inPlace = false) :
    binding.touched pointerSize = pointerSize := by
  rw [touched, Bridge.inlineArray?, hdescriptor, hplace]
  cases length <;> rfl

theorem touched_of_not_fixed {pointerSize : Nat} (hlength : ∀ count, length ≠ .fixed count) :
    binding.touched pointerSize = pointerSize := by
  rw [touched, Bridge.inlineArray?, hdescriptor]
  cases length with
  | fixed count => exact absurd rfl (hlength count)
  | _ => rfl

end Array

variable {mapper : Mapper} {binding : FieldBinding} {callbackStep : Mapper.CallbackStep}
  {usage usage' : Usage}
  (hpointer : mapper.options.pointerSize = mapper.platform.pointerSize)
include hpointer

/-- The width of a field that is no array. -/
theorem touched_eq_iff_of_plain {spelling : Spelling}
    (hvoid : (TypeRef.plain spelling).isVoid = false)
    (hmap : mapper.mapWith callbackStep .field none (.plain spelling) usage =
      .ok binding.descriptor usage') :
    binding.touched mapper.platform.pointerSize =
        (mapper.platform.layoutOf (Slot.ofType mapper.platform.repo mapper.platform.pointerSize
          mapper.space false (.plain spelling))).size ↔
      ¬ mapper.platform.Misjudged mapper.space (.plain spelling) := by
  have hdescribes := Mapper.mapWith_plain_describes hpointer hvoid hmap
  have htouched : binding.touched mapper.platform.pointerSize =
      binding.descriptor.slotSize mapper.platform.pointerSize := by
    rw [touched, Bridge.inlineArray?]
    cases hdescriptor : binding.descriptor with
    | array => exact absurd hdescriptor hdescribes.ne_array
    | _ => rfl
  rw [htouched, hdescribes.slotSize_eq_iff, not_iff_not]
  constructor
  · exact .embedded
  · intro h
    cases h with
    | embedded h => exact h
    | elements hslot | counted hslot => exact absurd hslot hdescribes.ne_repeated

/-- The width of an array. -/
theorem touched_eq_iff_of_array {spelling : Spelling} {form : ArrayForm} {element : TypeRef}
    (hmap : mapper.mapWith callbackStep .field none (.array spelling form element) usage =
      .ok binding.descriptor usage')
    (hplace : binding.inPlace =
      isStoredInField (.array spelling form element) binding.descriptor) :
    binding.touched mapper.platform.pointerSize =
        (mapper.platform.layoutOf (Slot.ofType mapper.platform.repo mapper.platform.pointerSize
          mapper.space false (.array spelling form element))).size ↔
      ¬ mapper.platform.Misjudged mapper.space (.array spelling form element) := by
  obtain ⟨described, hdescriptor, hdescribes⟩ := Mapper.mapWith_array_describes hpointer hmap
  by_cases hstored : ∃ count, form.fixedSize = some count ∧
      (TypeRef.array spelling form element).isPointerSpelled = false
  · obtain ⟨count, hfixed, hstar⟩ := hstored
    obtain ⟨hinside, hslot⟩ := stored_of_fixedSize mapper.platform.repo
      mapper.platform.pointerSize mapper.space hfixed hstar binding.descriptor
    rw [← hplace] at hinside
    rw [hslot]
    -- the size may be noted and the array still be counted by a parameter or not at all
    rcases lengthOf_of_fixedSize hfixed with hlength | hlength
    · have hsize : (mapper.platform.layoutOf (.repeated count (Slot.ofType mapper.platform.repo
          mapper.platform.pointerSize mapper.space true element))).size =
          (mapper.platform.layoutOf (Slot.ofType mapper.platform.repo mapper.platform.pointerSize
            mapper.space true element)).size * count := by
        rw [← hdescribes.stride_eq]
        rfl
      rw [touched_of_inPlace hdescriptor hlength hinside, hsize,
        Platform.misjudged_iff_of_fixed hslot (congrArg some hlength)]
      -- nothing is reached of an array without elements, whatever they are taken for
      rcases Nat.eq_zero_or_pos count with hzero | hpos
      · refine iff_of_true ?_ fun h => h.1 hzero
        rw [hzero, Nat.mul_zero, Nat.mul_zero]
      · rw [Nat.mul_right_cancel_iff hpos, hdescribes.slotSize_eq_iff,
          and_iff_right (Nat.ne_of_gt hpos)]
    · rw [touched_of_not_fixed hdescriptor hlength,
        Platform.misjudged_iff_of_not_fixed hslot fun h => hlength _ (Option.some.inj h),
        not_not]
      exact eq_comm
  · obtain ⟨houtside, hslot⟩ := not_stored_of_pointer mapper.platform.repo
      mapper.platform.pointerSize mapper.space
      (fun count hfixed => eq_true_of_ne_false fun hstar => hstored ⟨count, hfixed, hstar⟩)
      binding.descriptor
    rw [← hplace] at houtside
    rw [hslot, touched_of_not_inPlace hdescriptor houtside]
    exact iff_of_true rfl (Platform.not_misjudged_of_scalar hslot)

/-- The width of any field that is not void. -/
theorem touched_eq_iff {type : TypeRef} (hvoid : type.isVoid = false)
    (hmap : mapper.mapWith callbackStep .field none type usage = .ok binding.descriptor usage')
    (hplace : binding.inPlace = isStoredInField type binding.descriptor) :
    binding.touched mapper.platform.pointerSize =
        (mapper.platform.layoutOf (Slot.ofType mapper.platform.repo mapper.platform.pointerSize
          mapper.space false type)).size ↔
      ¬ mapper.platform.Misjudged mapper.space type := by
  cases type with
  | plain spelling => exact touched_eq_iff_of_plain hpointer hvoid hmap
  | array spelling form element => exact touched_eq_iff_of_array hpointer hmap hplace

end FieldBinding

namespace Compiler

variable {repo : Repository} {options : Options}

/-- The fields of a compiled class or record are compiled from the declaration that is found under
its name. -/
theorem of_mem_owners {space : Namespace} (hdistinct : repo.Distinct) (hmem : space ∈ repo.spaces)
    {owner : String} {compiled : List FieldBinding}
    (howner : (owner, compiled) ∈ ((ofRepository repo options).run space).bindings.owners)
    (hfields : compiled ≠ []) :
    ∃ compound shape report, Compound.find? repo owner = some compound ∧
      compound.space = space.name ∧ (owner, compound.fields) ∈ space.owners ∧
      (ofRepository repo options).platform.recordShape? owner = some shape ∧
      compiled =
        ((ofRepository repo options).fields space owner compound.fields shape report).1 := by
  rcases List.mem_append.1 howner with howner | howner
  · obtain ⟨cls, hclass, hsame⟩ := List.mem_map.1 howner
    cases hsame
    obtain ⟨source, hsource, hcls⟩ := exists_classOf_of_fields hclass hfields
    obtain ⟨shape, report, hshape, hcompiled⟩ := hcls.fields hfields
    have hfind := hdistinct.find?_class hmem hsource
    rw [← hcls.name] at hfind
    have hdeclared : (cls.name, source.fields) ∈ space.owners :=
      List.mem_append_left _ (List.mem_map.2 ⟨source, hsource, by rw [hcls.name]⟩)
    exact ⟨_, shape, report, hfind, rfl, hdeclared, hshape, hcompiled⟩
  · obtain ⟨record, hrecord, hsame⟩ := List.mem_map.1 howner
    cases hsame
    obtain ⟨source, hsource, hrecord⟩ := exists_recordOf hrecord
    obtain ⟨report, hcompiled⟩ := hrecord.fields
    have hfind := hdistinct.find?_record hmem hsource
    rw [← hrecord.name] at hfind
    have hdeclared : (record.name, source.fields) ∈ space.owners :=
      List.mem_append_right _ (List.mem_map.2 ⟨source, hsource, by rw [hrecord.name]⟩)
    exact ⟨_, record.shape, report, hfind, rfl, hdeclared, hrecord.shape, hcompiled⟩

/-- The width of a field compiled for a class or a record whose declaration is found. -/
theorem exists_field_of_mem_fields {space : Namespace} {owner : String} {compound : Compound}
    {shape : RecordShape} {report : CompileReport} {binding : FieldBinding}
    (hfind : Compound.find? repo owner = some compound) (hspace : compound.space = space.name)
    (hnames : (compound.fields.map (·.name)).Nodup)
    (hsettled : (ofRepository repo options).platform.Settled owner)
    (hshape : (ofRepository repo options).platform.recordShape? owner = some shape)
    (h : binding ∈
      ((ofRepository repo options).fields space owner compound.fields shape report).1) :
    ∃ field ∈ compound.fields, field.name = binding.layout.field ∧
      (field.type.isVoid = false →
        (binding.touched options.pointerSize = binding.layout.size ↔
          ¬ (ofRepository repo options).platform.Misjudged space.name field.type)) := by
  obtain ⟨field, usage, hlayout, hfound, hmap, hplace, _⟩ := mem_fields h
  obtain ⟨declared, hdeclared, _, _, hslot⟩ := Platform.mem_fieldLayouts hfind hshape hlayout
  -- the field is looked up by the name of its layout, which no other field has
  have hname : declared.name = binding.layout.field := (congrArg Prod.fst hslot).symm
  obtain rfl : field = declared := by
    rw [← hname, find?_of_mem hnames hdeclared, Option.some.injEq] at hfound
    exact hfound.symm
  refine ⟨field, hdeclared, hname, fun hvoid => ?_⟩
  have hsize : binding.layout.size = ((ofRepository repo options).platform.layoutOf
      (Slot.ofType repo options.pointerSize space.name false field.type)).size := by
    rw [← hspace]
    have hlayout := congrArg Prod.snd hslot
    rw [hsettled.slotLayout_eq hfind hdeclared] at hlayout
    exact congrArg TypeLayout.size hlayout
  rw [hsize]
  exact @FieldBinding.touched_eq_iff ((ofRepository repo options).builder space).mapper binding
    _ _ _ rfl field.type hvoid hmap hplace

/-- In a repository with distinct names and without by-value cycles every compiled field is that of
a declared one, and unless this is void, it is reached as wide as it is laid out exactly if it is
not misjudged. -/
theorem touched_eq_size_iff {name : String} {bindings : NamespaceBinding}
    (hdistinct : repo.Distinct)
    (hnames : ∀ space ∈ repo.spaces, ∀ owner ∈ space.owners, (owner.2.map (·.name)).Nodup)
    (hacyclic : ∀ qualified, (ofRepository repo options).platform.Acyclic qualified)
    (hcompiled : (ofRepository repo options).namespace? name = .ok bindings)
    {owner : String} {compiled : List FieldBinding} (howner : (owner, compiled) ∈ bindings.owners)
    {binding : FieldBinding} (hbinding : binding ∈ compiled) :
    ∃ space declared field, repo.space? name = some space ∧ (owner, declared) ∈ space.owners ∧
      field ∈ declared ∧ field.name = binding.layout.field ∧
      (field.type.isVoid = false →
        (binding.touched options.pointerSize = binding.layout.size ↔
          ¬ (ofRepository repo options).platform.Misjudged space.name field.type)) := by
  obtain ⟨space, hspace, hmem, rfl⟩ := of_namespace?_eq_ok hcompiled
  obtain ⟨compound, shape, report, hfind, hname, hdeclared, hshape, rfl⟩ :=
    of_mem_owners hdistinct hmem howner (List.ne_nil_of_mem hbinding)
  obtain ⟨field, hfield, hwidth⟩ := exists_field_of_mem_fields hfind hname
    (hnames space hmem _ hdeclared) (hacyclic owner).settled hshape hbinding
  exact ⟨space, compound.fields, field, hspace, hdeclared, hfield, hwidth⟩

/-- A record with an instance of a class in place and a field behind it. -/
def embedding : Repository := .ofSpaces [{
  name := "N"
  libraries := ["libn.so"]
  classes := [{ name := "Base", fields := [.shown "a" (.named "gint32")] }]
  records := [{
    name := "Holder"
    fields := [.shown "base" ((TypeRef.named "Base").withCType "NBase"),
      .shown "next" (.named "gint32")] }] }]

theorem embedding_acyclic (qualified : String) :
    (ofRepository embedding {}).platform.Acyclic qualified := by
  have hranked : (ofRepository embedding {}).platform.ranked
      (fun name => if name = "N.Holder" then 1 else 0) = true := by decide +kernel
  exact Platform.acyclic_of_ranked hranked qualified

theorem embedding_touched_eq_size_iff :
    embedding.Distinct ∧
      (∀ space ∈ embedding.spaces, ∀ owner ∈ space.owners, (owner.2.map (·.name)).Nodup) ∧
      (∀ qualified, (ofRepository embedding {}).platform.Acyclic qualified) ∧
      ∃ bindings owner binding, (ofRepository embedding {}).namespace? "N" = .ok bindings ∧
        owner ∈ bindings.owners ∧ binding ∈ owner.2 ∧ binding.layout = ⟨"base", 0, 4, 4⟩ ∧
        ∃ space declared field, embedding.space? "N" = some space ∧
          (owner.1, declared) ∈ space.owners ∧ field ∈ declared ∧
          field.name = binding.layout.field ∧
          (field.type.isVoid = false → (binding.touched 8 = binding.layout.size ↔
            ¬ (ofRepository embedding {}).platform.Misjudged space.name field.type)) := by
  have hdistinct : embedding.Distinct := by
    unfold Repository.Distinct
    decide +kernel
  have hnames : ∀ space ∈ embedding.spaces, ∀ owner ∈ space.owners,
      (owner.2.map (·.name)).Nodup := by decide +kernel
  have hbase : ∃ owner ∈
      ((ofRepository embedding {}).run (embedding.spaces.headD default)).bindings.owners,
        ∃ binding ∈ owner.2, binding.layout = ⟨"base", 0, 4, 4⟩ := by decide +kernel
  obtain ⟨owner, howner, binding, hbinding, hlayout⟩ := hbase
  exact ⟨hdistinct, hnames, embedding_acyclic, _, owner, binding, rfl, howner, hbinding, hlayout,
    touched_eq_size_iff hdistinct hnames embedding_acyclic rfl howner hbinding⟩

/-- Writing the instance in place writes over the field behind it. -/
theorem embedding_base_overrun :
    embedding.Distinct ∧
      (∀ space ∈ embedding.spaces, ∀ owner ∈ space.owners, (owner.2.map (·.name)).Nodup) ∧
      (∀ qualified, (ofRepository embedding {}).platform.Acyclic qualified) ∧
      ∃ bindings, (ofRepository embedding {}).namespace? "N" = .ok bindings ∧
        ∃ owner ∈ bindings.owners, ∃ base ∈ owner.2, ∃ next ∈ owner.2,
          base.layout = ⟨"base", 0, 4, 4⟩ ∧ base.touched 8 = 8 ∧
            next.layout = ⟨"next", 4, 4, 4⟩ := by
  refine ⟨?_, by decide +kernel, embedding_acyclic, _, rfl, by decide +kernel⟩
  unfold Repository.Distinct
  decide +kernel

end Compiler

end Interop
