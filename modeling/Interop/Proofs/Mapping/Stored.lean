import Interop.Mapping.Mapper
import Interop.Proofs.Layout.Leaves
import Interop.Proofs.Steps

/-! # Descriptors of stored values

The type of a field or of an array element is read twice: as a slot, which says how much room it
takes, and as a descriptor, which says how much of it is read and written. `Describes` lists how the
two can come out for a single value. They part over instances of classes that are stored in place,
which are described by a pointer.
-/

namespace Interop

open Schema

namespace Platform

variable (platform : Platform)

/-- The full name is that of a class. -/
def NamesClass (qualified : String) : Prop :=
  ∃ space cls, platform.repo.resolveQualified? qualified = some ⟨space, .cls cls⟩

/-- The slot holds an instance of a class that is not of the size of a pointer. -/
def Missized (slot : Slot) : Prop :=
  ∃ qualified, slot = .nested qualified ∧ platform.NamesClass qualified ∧
    platform.typeSize qualified ≠ platform.pointerSize

/-- What a single value can be described as that is stored in a slot. -/
inductive Describes : Descriptor → Slot → Prop
  | primitive (kind : PrimitiveKind) :
      Describes (.primitive kind (kind.size platform.pointerSize))
        (.scalar ⟨kind.size platform.pointerSize, kind.alignment platform.pointerSize⟩)
  | enum {kind : PrimitiveKind} (hwidth : kind.size platform.pointerSize = 4) :
      Describes (.primitive kind 4) (.scalar Slot.enumLayout)
  | string (ownership : Ownership) :
      Describes (.string ownership) (.scalar (.pointer platform.pointerSize))
  | object (ownership : Ownership) (hooks : Option RefHooks) :
      Describes (.object ownership hooks) (.scalar (.pointer platform.pointerSize))
  | boxed (innerType library : String) (ownership : Ownership) (getTypeFn : Option String) :
      Describes (.boxed innerType library ownership getTypeFn)
        (.scalar (.pointer platform.pointerSize))
  | struct (innerType library : String) (size : Nat) (ownership : Ownership) :
      Describes (.struct innerType library size false ownership)
        (.scalar (.pointer platform.pointerSize))
  | inPlace {qualified : String} (hrecord : ¬ platform.NamesClass qualified) (library : String)
      (ownership : Ownership) :
      Describes (.struct qualified library (platform.typeSize qualified) true ownership)
        (.nested qualified)
  | embedded {qualified : String} (hclass : platform.NamesClass qualified) (ownership : Ownership)
      (hooks : Option RefHooks) : Describes (.object ownership hooks) (.nested qualified)

variable {platform}

theorem size_layoutOf_nested (qualified : String) :
    (platform.layoutOf (.nested qualified)).size = platform.typeSize qualified := by
  rw [layoutOf, Slot.layout, typeSize]
  cases platform.typeLayout? qualified <;> rfl

theorem dvd_size_of_typeLayout? {qualified : String} {layout : TypeLayout}
    (h : platform.typeLayout? qualified = some layout) : layout.alignment ∣ layout.size := by
  cases hfind : Compound.find? platform.repo qualified with
  | none =>
      rw [typeLayout?, expand?_of_find?_eq_none (List.not_mem_nil) hfind] at h
      cases h
  | some compound =>
      rw [typeLayout?, expand?_of_find?_eq_some (List.not_mem_nil) hfind, Option.some.injEq] at h
      exact h ▸ Placement.dvd_size_ofKind _ _

namespace Describes

variable {descriptor : Descriptor} {slot : Slot}

/-- As many bytes are read as there are in the slot, unless it holds an instance of a class of
another size than that of a pointer. -/
theorem slotSize_eq_iff (h : platform.Describes descriptor slot) :
    descriptor.slotSize platform.pointerSize = (platform.layoutOf slot).size ↔
      ¬ platform.Missized slot := by
  cases h with
  | @inPlace qualified hrecord =>
      refine iff_of_true (size_layoutOf_nested qualified).symm ?_
      rintro ⟨_, hslot, hclass, _⟩
      cases hslot
      exact hrecord hclass
  | @embedded qualified hclass =>
      rw [size_layoutOf_nested]
      constructor
      · rintro hsame ⟨_, hslot, _, hsize⟩
        cases hslot
        exact hsize hsame.symm
      · intro hnot
        refine Decidable.byContradiction fun hne => hnot ⟨qualified, rfl, hclass, ?_⟩
        exact Ne.symm hne
  | _ =>
      refine iff_of_true rfl ?_
      rintro ⟨_, hslot, _⟩
      cases hslot

theorem ne_array (h : platform.Describes descriptor slot) {element : Descriptor}
    {ownership : Ownership} {length : ArrayLength} {kind : ArrayKind} {elementSize : Nat} :
    descriptor ≠ .array element ownership length kind elementSize := by
  rintro rfl
  cases h

theorem ne_repeated (h : platform.Describes descriptor slot) {count : Nat} {element : Slot} :
    slot ≠ .repeated count element := by
  rintro rfl
  cases h

/-- Elements that can be described follow each other without gaps. -/
theorem stride_eq (h : platform.Describes descriptor slot) :
    (platform.layoutOf slot).stride = (platform.layoutOf slot).size := by
  refine alignUp_of_dvd ?_
  cases h with
  | primitive kind =>
      cases kind with
      | void => exact Nat.dvd_zero _
      | _ => exact Nat.dvd_refl _
  | @inPlace qualified | @embedded qualified =>
      rw [layoutOf, Slot.layout]
      cases hlayout : platform.typeLayout? qualified with
      | none => exact Nat.dvd_refl _
      | some layout => exact dvd_size_of_typeLayout? hlayout
  | _ => exact Nat.dvd_refl _

end Describes

end Platform

namespace Mapper

variable {mapper : Mapper}

/-- Where a value is stored that is a field or an element of an array. -/
def storedContext (inArray : Bool) : UseContext := if inArray then .element else .field

/-- A record is boxed, which is only done where a pointer to it is stored, or described by its
size. -/
theorem of_mapRecord_eq_ok {context : UseContext} {type : TypeRef} {qualified : String}
    {space : Namespace} {record : Record} {usage usage' : Usage} {descriptor : Descriptor}
    (h : mapper.mapRecord context type qualified space record usage = .ok descriptor usage') :
    (storedInPlace context type = false ∧
      descriptor = .boxed qualified space.library type.transfer record.getType) ∨
    descriptor = .struct qualified space.library (mapper.platform.typeSize qualified)
      (storedInPlace context type) type.transfer := by
  obtain ⟨_, _, _, h⟩ := Steps.of_bind_eq_ok h
  split at h
  next hboxed =>
    cases h
    rw [Bool.and_eq_true, Bool.not_eq_true'] at hboxed
    exact .inl ⟨hboxed.2, rfl⟩
  next =>
    obtain ⟨_, _, _, h⟩ := Steps.of_bind_eq_ok h
    rcases hsize : mapper.platform.calculator.typeSize qualified with ⟨size, calculator⟩
    have hplain := Calculator.typeSize_calculator mapper.platform qualified
    rw [hsize] at h hplain
    obtain rfl := hplain
    cases h
    exact .inr rfl

/-- A record is described by its size exactly where it is stored in place. -/
theorem mapRecord_describes {inArray : Bool} {type : TypeRef} {qualified : String}
    {space : Namespace} {record : Record} {usage usage' : Usage} {descriptor : Descriptor}
    (hrecord : ¬ mapper.platform.NamesClass qualified)
    (h : mapper.mapRecord (storedContext inArray) type qualified space record usage =
      .ok descriptor usage') :
    mapper.platform.Describes descriptor
      (if (if inArray then !type.isPointerSpelled else type.isInline) then .nested qualified
        else .scalar (.pointer mapper.platform.pointerSize)) := by
  have hplace : storedInPlace (storedContext inArray) type =
      (if inArray then !type.isPointerSpelled else type.isInline) := by
    cases inArray <;> rfl
  rw [← hplace]
  rcases of_mapRecord_eq_ok h with ⟨hpointer, rfl⟩ | rfl
  · rw [hpointer]
    exact .boxed ..
  · cases storedInPlace (storedContext inArray) type with
    | true => exact .inPlace hrecord _ _
    | false => exact .struct ..

theorem ne_void_of_ofSpelling? {spelling : Spelling} {kind : PrimitiveKind}
    (hvoid : (TypeRef.plain spelling).isVoid = false)
    (h : PrimitiveKind.ofSpelling? spelling.name = some kind) : kind ≠ .void := by
  rintro rfl
  have hname := List.find?_some h
  simp only [TypeRef.isVoid, Bool.or_eq_false_iff, beq_eq_false_iff_ne] at hvoid
  simp [PrimitiveKind.spellings, hvoid] at hname

/-- The descriptor of a value of a declared type. -/
def mapDeclared (mapper : Mapper) (callbackStep : CallbackStep) (context : UseContext)
    (param : Option Param) (type : TypeRef) (qualified : String) (space : Namespace) :
    Declaration → Mapping Descriptor
  | .cls cls => do
    Mapping.useImport (.support "wrap")
    return .object type.transfer (classHooks cls)
  | .interface _ => do
    Mapping.useImport (.support "wrap")
    return .object type.transfer none
  | .record record | .union record => mapper.mapRecord context type qualified space record
  | .enum _ => return .ofPrimitive .int32 mapper.options.pointerSize
  | .flags _ => return .ofPrimitive .uint32 mapper.options.pointerSize
  | .callback _ =>
    match context with
    | .parameter => callbackStep qualified param
    | .field | .element => return .ofPrimitive .pointer mapper.options.pointerSize
    | .returned => throw (.refused (.unsupportedInContext qualified context))

/-- A name that is neither that of a text nor of a primitive has to be declared. -/
theorem of_mapSingle_eq_ok {callbackStep : CallbackStep} {context : UseContext}
    {param : Option Param} {type : TypeRef} {usage usage' : Usage} {descriptor : Descriptor}
    (hvoid : type.isVoid = false) (hstring : isStringSpelling type.name = false)
    (hkind : PrimitiveKind.ofSpelling? type.name = none)
    (h : mapper.mapSingle callbackStep context param type usage = .ok descriptor usage') :
    ∃ space decl middle,
      mapper.platform.repo.resolveQualified? (qualify mapper.space type.name) =
        some ⟨space, decl⟩ ∧
      mapper.mapDeclared callbackStep context param type (qualify mapper.space type.name) space decl
        middle = .ok descriptor usage' := by
  simp only [mapSingle, hvoid, hstring, hkind, Bool.false_eq_true, if_false] at h
  split at h
  next =>
    obtain ⟨_, _, hthrow, _⟩ := Steps.of_bind_eq_ok h
    cases hthrow
  next =>
    split at h
    next =>
      obtain ⟨_, _, hthrow, _⟩ := Steps.of_bind_eq_ok h
      cases hthrow
    next =>
      cases hresolve : mapper.platform.repo.resolveQualified? (qualify mapper.space type.name) with
      | none =>
          rw [hresolve] at h
          cases h
      | some resolved =>
          rw [hresolve] at h
          obtain ⟨_, middle, _, h⟩ := Steps.of_bind_eq_ok h
          refine ⟨resolved.space, resolved.decl, middle, rfl, ?_⟩
          cases hdecl : resolved.decl with
          | _ =>
            rw [hdecl] at h
            exact h

/-- A value of a declared type is described as its slot demands. -/
theorem mapDeclared_describes {callbackStep : CallbackStep} {inArray : Bool}
    {param : Option Param} {type : TypeRef} {space : Namespace} {decl : Declaration}
    {usage usage' : Usage} {descriptor : Descriptor}
    (hpointer : mapper.options.pointerSize = mapper.platform.pointerSize)
    (hvoid : type.isVoid = false) (hstring : isStringSpelling type.name = false)
    (hkind : PrimitiveKind.ofSpelling? type.name = none)
    (hresolve : mapper.platform.repo.resolveQualified? (qualify mapper.space type.name) =
      some ⟨space, decl⟩)
    (h : mapper.mapDeclared callbackStep (storedContext inArray) param type
      (qualify mapper.space type.name) space decl usage = .ok descriptor usage') :
    mapper.platform.Describes descriptor
      (Slot.ofSpelling mapper.platform.repo mapper.platform.pointerSize mapper.space inArray
        type) := by
  rw [Slot.ofSpelling, hvoid, hstring, Bool.false_or, if_neg Bool.false_ne_true, hkind]
  dsimp only
  rw [Repository.resolve?, hresolve, Option.map_some]
  -- the name is that of one declaration, so no class has it unless this is one
  have hnot : (∀ cls, decl ≠ .cls cls) →
      ¬ mapper.platform.NamesClass (qualify mapper.space type.name) := by
    rintro hne ⟨_, cls, hclass⟩
    rw [hresolve, Option.some.injEq, Resolved.mk.injEq] at hclass
    exact hne cls hclass.2
  cases decl with
  | cls cls =>
      obtain ⟨_, _, _, h⟩ := Steps.of_bind_eq_ok h
      cases h
      dsimp only
      cases (if inArray then !type.isPointerSpelled else type.isInline) with
      | true => exact .embedded ⟨space, cls, hresolve⟩ _ _
      | false => exact .object ..
  | interface interface =>
      obtain ⟨_, _, _, h⟩ := Steps.of_bind_eq_ok h
      cases h
      exact .object ..
  | record record => exact mapRecord_describes (hnot fun cls => by simp) h
  | union record => exact mapRecord_describes (hnot fun cls => by simp) h
  | enum enum =>
      cases h
      exact .enum rfl
  | flags flags =>
      cases h
      exact .enum rfl
  | callback callback =>
      cases inArray <;> cases h <;> rw [hpointer] <;> exact .primitive .pointer

theorem mapSingle_of_isVoid {callbackStep : CallbackStep} {context : UseContext}
    {param : Option Param} {type : TypeRef} {usage usage' : Usage} {descriptor : Descriptor}
    (hvoid : type.isVoid = true)
    (h : mapper.mapSingle callbackStep context param type usage = .ok descriptor usage') :
    descriptor = .null := by
  simp only [mapSingle, hvoid, if_true] at h
  cases h
  rfl

/-- How a single value that is not of a void type comes to be described: its type is that of a text
or a primitive by its name, or else it is declared. -/
inductive NameCase (mapper : Mapper) (callbackStep : CallbackStep) (context : UseContext)
    (param : Option Param) (spelling : Spelling) (usage' : Usage) : Descriptor → Prop
  | string (hstring : isStringSpelling spelling.name = true) :
      NameCase mapper callbackStep context param spelling usage' (.string spelling.transfer)
  | primitive (hstring : isStringSpelling spelling.name = false) {kind : PrimitiveKind}
      (hkind : PrimitiveKind.ofSpelling? spelling.name = some kind) (hne : kind ≠ .void) :
      NameCase mapper callbackStep context param spelling usage'
        (.primitive kind (kind.size mapper.options.pointerSize))
  | declared {descriptor : Descriptor} (hstring : isStringSpelling spelling.name = false)
      (hkind : PrimitiveKind.ofSpelling? spelling.name = none) {space : Namespace}
      {decl : Declaration} {middle : Usage}
      (hresolve : mapper.platform.repo.resolveQualified? (qualify mapper.space spelling.name) =
        some ⟨space, decl⟩)
      (hdeclared : mapper.mapDeclared callbackStep context param (.plain spelling)
        (qualify mapper.space spelling.name) space decl middle = .ok descriptor usage') :
      NameCase mapper callbackStep context param spelling usage' descriptor

theorem nameCase_of_mapSingle_eq_ok {callbackStep : CallbackStep} {context : UseContext}
    {param : Option Param} {spelling : Spelling} {usage usage' : Usage} {descriptor : Descriptor}
    (hvoid : (TypeRef.plain spelling).isVoid = false)
    (h : mapper.mapSingle callbackStep context param (.plain spelling) usage =
      .ok descriptor usage') :
    NameCase mapper callbackStep context param spelling usage' descriptor := by
  have hname : (TypeRef.plain spelling).name = spelling.name := rfl
  cases hstring : isStringSpelling spelling.name with
  | true =>
      simp only [mapSingle, hvoid, hname, hstring, Bool.false_eq_true, if_false, if_true] at h
      cases h
      exact .string hstring
  | false =>
      cases hkind : PrimitiveKind.ofSpelling? spelling.name with
      | some kind =>
          have hne := ne_void_of_ofSpelling? hvoid hkind
          simp only [mapSingle, hvoid, hname, hstring, hkind, Bool.false_eq_true, if_false] at h
          rw [Descriptor.ofPrimitive, if_neg hne] at h
          cases h
          exact .primitive hstring hkind hne
      | none =>
          obtain ⟨space, decl, middle, hresolve, hdeclared⟩ :=
            of_mapSingle_eq_ok hvoid hstring hkind h
          exact .declared hstring hkind hresolve hdeclared

/-- A single value that is not of a void type is described as its slot demands. -/
theorem mapSingle_describes {callbackStep : CallbackStep} {inArray : Bool} {param : Option Param}
    {spelling : Spelling} {usage usage' : Usage} {descriptor : Descriptor}
    (hpointer : mapper.options.pointerSize = mapper.platform.pointerSize)
    (hvoid : (TypeRef.plain spelling).isVoid = false)
    (h : mapper.mapSingle callbackStep (storedContext inArray) param (.plain spelling) usage =
      .ok descriptor usage') :
    mapper.platform.Describes descriptor
      (Slot.ofSpelling mapper.platform.repo mapper.platform.pointerSize mapper.space inArray
        (.plain spelling)) := by
  have hname : (TypeRef.plain spelling).name = spelling.name := rfl
  cases nameCase_of_mapSingle_eq_ok hvoid h with
  | string hstring =>
      rw [Slot.ofSpelling, hvoid, hname, hstring, Bool.false_or, if_pos rfl]
      exact .string _
  | @primitive hstring kind hkind =>
      rw [Slot.ofSpelling, hvoid, hname, hstring, Bool.false_or, if_neg Bool.false_ne_true, hkind,
        hpointer]
      exact .primitive kind
  | declared hstring hkind hresolve hdeclared =>
      exact mapDeclared_describes hpointer hvoid hstring hkind hresolve hdeclared

theorem mapWith_plain_describes {callbackStep : CallbackStep} {param : Option Param}
    {spelling : Spelling} {usage usage' : Usage} {descriptor : Descriptor}
    (hpointer : mapper.options.pointerSize = mapper.platform.pointerSize)
    (hvoid : (TypeRef.plain spelling).isVoid = false)
    (h : mapper.mapWith callbackStep .field param (.plain spelling) usage =
      .ok descriptor usage') :
    mapper.platform.Describes descriptor
      (Slot.ofType mapper.platform.repo mapper.platform.pointerSize mapper.space false
        (.plain spelling)) :=
  @mapSingle_describes mapper callbackStep false param spelling usage usage' descriptor hpointer
    hvoid h

/-- The element of an array is described by itself, and is something. -/
theorem of_mapWith_array_eq_ok {callbackStep : CallbackStep} {context : UseContext}
    {param : Option Param} {spelling : Spelling} {form : ArrayForm} {element : TypeRef}
    {usage usage' : Usage} {descriptor : Descriptor}
    (h : mapper.mapWith callbackStep context param (.array spelling form element) usage =
      .ok descriptor usage') :
    ∃ inner described before behind, element = .plain inner ∧
      mapper.mapSingle callbackStep .element none (.plain inner) before = .ok described behind ∧
      described.isNull = false ∧
      descriptor = .array described spelling.transfer (lengthOf form) form.kind
        (described.slotSize mapper.options.pointerSize) := by
  rw [mapWith] at h
  cases element with
  | array => cases h
  | plain inner =>
      obtain ⟨described, middle, hsingle, h⟩ := Steps.of_bind_eq_ok h
      split at h
      next =>
        obtain ⟨_, _, hthrow, _⟩ := Steps.of_bind_eq_ok h
        cases hthrow
      next hnull =>
        cases h
        exact ⟨inner, described, usage, _, rfl, hsingle, by simpa using hnull, rfl⟩

/-- The element of an array is a single value that is not void. -/
theorem mapWith_array_describes {callbackStep : CallbackStep} {context : UseContext}
    {param : Option Param} {spelling : Spelling} {form : ArrayForm} {element : TypeRef}
    {usage usage' : Usage} {descriptor : Descriptor}
    (hpointer : mapper.options.pointerSize = mapper.platform.pointerSize)
    (h : mapper.mapWith callbackStep context param (.array spelling form element) usage =
      .ok descriptor usage') :
    ∃ described,
      descriptor = .array described spelling.transfer (lengthOf form) form.kind
        (described.slotSize mapper.platform.pointerSize) ∧
      mapper.platform.Describes described
        (Slot.ofType mapper.platform.repo mapper.platform.pointerSize mapper.space true
          element) := by
  obtain ⟨inner, described, _, _, rfl, hsingle, hnull, rfl⟩ := of_mapWith_array_eq_ok h
  rw [hpointer]
  refine ⟨described, rfl, ?_⟩
  -- elements of a void type are described as null, and such arrays are refused
  cases hvoid : (TypeRef.plain inner).isVoid with
  | true =>
      obtain rfl := mapSingle_of_isVoid hvoid hsingle
      cases hnull
  | false => exact @mapSingle_describes _ _ true _ _ _ _ _ hpointer hvoid hsingle

end Mapper

end Interop
