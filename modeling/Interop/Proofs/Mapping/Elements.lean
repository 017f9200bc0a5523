import Interop.Proofs.Mapping.Origins

/-! # Records as elements

An array of records by value is laid out, described and counted through by one distance, the size
of a record: a size is padded to its alignment, so the stride adds nothing to it.
-/

namespace Interop

open Schema

namespace Platform

variable {platform : Platform} {qualified : String}

/-- An array of the type holds the values of a full name themselves. -/
def ByValue (platform : Platform) (space : String) (element : TypeRef) (qualified : String) :
    Prop :=
  Slot.ofType platform.repo platform.pointerSize space true element = .nested qualified

/-- Every record is laid out, whatever it contains. -/
theorem exists_typeLayout?_of_record {space : Namespace} {decl : Declaration} {record : Record}
    (hresolve : platform.repo.resolveQualified? qualified = some ⟨space, decl⟩)
    (hrecord : decl.asRecord? = some record) :
    ∃ layout, platform.typeLayout? qualified = some layout := by
  have hfind : ∃ compound, Compound.find? platform.repo qualified = some compound := by
    rw [Compound.find?, hresolve]
    cases decl with
    | record => exact ⟨_, rfl⟩
    | union => exact ⟨_, rfl⟩
    | _ => cases hrecord
  obtain ⟨compound, hfind⟩ := hfind
  rw [typeLayout?, expand?_of_find?_eq_some List.not_mem_nil hfind]
  exact ⟨_, rfl⟩

/-- Nothing lies between two neighbours of a declared type. -/
theorem stride_of_typeLayout? {layout : TypeLayout}
    (h : platform.typeLayout? qualified = some layout) :
    layout.stride = platform.typeSize qualified := by
  rw [typeSize, h]
  exact alignUp_of_dvd (dvd_size_of_typeLayout? h)

theorem stride_layoutOf_nested (qualified : String) :
    (platform.layoutOf (.nested qualified)).stride = platform.typeSize qualified := by
  rw [layoutOf, Slot.layout]
  cases hlayout : platform.typeLayout? qualified with
  | none =>
      rw [typeSize, hlayout]
      exact alignUp_of_dvd (Nat.dvd_refl _)
  | some layout => exact stride_of_typeLayout? hlayout

/-- The room that so many elements take in a field. -/
theorem size_fieldTypeLayout_of_elements {space : String} {spelling : Spelling} {form : ArrayForm}
    {element : TypeRef} {count : Nat} (hfixed : form.fixedSize = some count)
    (hstar : (TypeRef.plain spelling).isPointerSpelled = false)
    (hvalue : platform.ByValue space element qualified) :
    (platform.fieldTypeLayout space (.array spelling form element)).size =
      platform.typeSize qualified * count := by
  have hrepeated : Slot.ofType platform.repo platform.pointerSize space false
      (.array spelling form element) = .repeated count (.nested qualified) := by
    rw [Slot.ofType, hfixed, ← hvalue]
    exact if_neg (Bool.eq_false_iff.1 hstar)
  rw [fieldTypeLayout, slotLayout, hrepeated]
  exact congrArg (· * count) (stride_layoutOf_nested qualified)

end Platform

namespace Slot

/-- What is stored in an array under its full name is named by something else than a number or a
text, and spelled without a star. -/
theorem of_ofType_element_eq_nested {repo : Repository} {pointerSize : Nat}
    {space qualified : String} {type : TypeRef}
    (h : ofType repo pointerSize space true type = .nested qualified) :
    ∃ spelling, type = .plain spelling ∧ (TypeRef.plain spelling).isVoid = false ∧
      isStringSpelling spelling.name = false ∧ PrimitiveKind.ofSpelling? spelling.name = none ∧
      (TypeRef.plain spelling).isPointerSpelled = false ∧
      qualify space spelling.name = qualified := by
  cases type with
  | array spelling form element =>
      rw [ofType] at h
      split at h
      next =>
        split at h
        next => cases h
        next => cases h
      next => cases h
  | plain spelling =>
      rw [ofType, ofSpelling] at h
      split at h
      next => cases h
      next hplain =>
        rw [Bool.or_eq_true, not_or, Bool.not_eq_true, Bool.not_eq_true] at hplain
        split at h
        next => cases h
        next hkind =>
          have hcompound : (if !(TypeRef.plain spelling).isPointerSpelled then
                nested (qualify space spelling.name)
              else scalar (.pointer pointerSize)) = nested qualified →
              (TypeRef.plain spelling).isPointerSpelled = false ∧
                qualify space spelling.name = qualified := by
            intro hcompound
            split at hcompound
            next hstar =>
              cases hcompound
              exact ⟨by simpa using hstar, rfl⟩
            next => cases hcompound
          -- only records, unions and classes are stored under their names
          split at h
          next => cases h
          next => cases h
          next => exact ⟨spelling, rfl, hplain.1, hplain.2, hkind, hcompound h⟩
          next => exact ⟨spelling, rfl, hplain.1, hplain.2, hkind, hcompound h⟩
          next => exact ⟨spelling, rfl, hplain.1, hplain.2, hkind, hcompound h⟩
          next => cases h

end Slot

namespace Mapper

variable {mapper : Mapper} {callbackStep : CallbackStep} {context : UseContext}
  {param : Option Param} {qualified : String} {space : Namespace} {decl : Declaration}
  {record : Record} {element : TypeRef}

/-- No type is described under such a name, whatever is declared. -/
def Refused (name qualified : String) : Prop :=
  name = "va_list" ∨ name = "..." ∨ qualified ∈ unsupportedContainers

theorem mapRecord_inPlace (hplace : storedInPlace context element = true) (usage : Usage) :
    ∃ usage', mapper.mapRecord context element qualified space record usage =
      .ok (.struct qualified space.library (mapper.platform.typeSize qualified) true
        element.transfer) usage' := by
  rw [← Calculator.typeSize_calculator]
  unfold mapRecord
  rw [hplace, Bool.not_true, Bool.and_false]
  exact ⟨_, rfl⟩

/-- A record by value is described in place and with its size, unless its name is refused. -/
theorem mapSingle_element
    (hresolve : mapper.platform.repo.resolveQualified? qualified = some ⟨space, decl⟩)
    (hrecord : decl.asRecord? = some record)
    (hvalue : mapper.platform.ByValue mapper.space element qualified) (usage : Usage) :
    (∃ usage', mapper.mapSingle callbackStep .element none element usage =
        .ok (.struct qualified space.library (mapper.platform.typeSize qualified) true
          element.transfer) usage') ∨
      Refused element.name qualified ∧
        ∃ error usage', mapper.mapSingle callbackStep .element none element usage =
          .error error usage' := by
  obtain ⟨spelling, rfl, hvoid, hstring, hkind, hstar, rfl⟩ :=
    Slot.of_ofType_element_eq_nested hvalue
  have hstring : isStringSpelling (TypeRef.plain spelling).name = false := hstring
  have hkind : PrimitiveKind.ofSpelling? (TypeRef.plain spelling).name = none := hkind
  have hplace : storedInPlace .element (.plain spelling) = true := by
    rw [storedInPlace, hstar]
    rfl
  simp only [mapSingle, hvoid, hstring, hkind, Bool.false_eq_true, if_false]
  split
  next hname =>
    refine .inr ⟨?_, _, _, rfl⟩
    rw [Bool.or_eq_true, beq_iff_eq, beq_iff_eq] at hname
    exact hname.imp_right .inl
  next =>
    split
    next hcontainer =>
      exact .inr ⟨.inr (.inr (List.contains_iff_mem.1 hcontainer)), _, _, rfl⟩
    next =>
      have hresolve : mapper.platform.repo.resolveQualified?
          (qualify mapper.space (TypeRef.plain spelling).name) = some ⟨space, decl⟩ := hresolve
      rw [hresolve]
      left
      cases decl with
      | record => exact mapRecord_inPlace hplace _
      | union => exact mapRecord_inPlace hplace _
      | _ => cases hrecord

/-- The array of a record by value counts by the size of the record. -/
theorem map_array_of_elements
    (hresolve : mapper.platform.repo.resolveQualified? qualified = some ⟨space, decl⟩)
    (hrecord : decl.asRecord? = some record)
    (hvalue : mapper.platform.ByValue mapper.space element qualified) (spelling : Spelling)
    (form : ArrayForm) (usage : Usage) :
    (∃ usage', mapper.map context (.array spelling form element) usage =
        .ok (.array (.struct qualified space.library (mapper.platform.typeSize qualified) true
          element.transfer) spelling.transfer (lengthOf form) form.kind
          (mapper.platform.typeSize qualified)) usage') ∨
      Refused element.name qualified ∧
        ∃ error usage', mapper.map context (.array spelling form element) usage =
          .error error usage' := by
  have hsingle : element.isArray = false := by
    obtain ⟨_, rfl, _⟩ := Slot.of_ofType_element_eq_nested hvalue
    rfl
  rw [map, mapWith, hsingle, if_neg Bool.false_ne_true]
  dsimp only
  rcases mapSingle_element hresolve hrecord hvalue usage with
    ⟨usage', hok⟩ | ⟨hrefused, error, usage', herror⟩
  · rw [Steps.bind_eq_of_eq_ok hok]
    exact .inl ⟨usage', rfl⟩
  · rw [Steps.bind_eq_of_eq_error herror]
    exact .inr ⟨hrefused, error, usage', rfl⟩

end Mapper

/-- Where an array of records by value is described, it counts by the size of the record. -/
theorem Represents.of_array_inPlace {platform : Platform} {pointerSize size stride : Nat}
    {context : UseContext} {origin : Origin} {qualified library : String}
    {own ownership : Ownership} {length : ArrayLength} {kind : ArrayKind}
    (h : Represents platform pointerSize context origin
      (.array (.struct qualified library size true own) ownership length kind stride)) :
    size = platform.typeSize qualified ∧ stride = size := by
  obtain ⟨rfl, source, helement⟩ := h.of_array
  generalize hplace : true = inPlace at helement
  cases helement
  exact ⟨rfl, rfl⟩

end Interop
