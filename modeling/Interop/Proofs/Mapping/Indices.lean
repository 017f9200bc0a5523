import Interop.Proofs.Mapping.Outcome

/-! # Other parameters in a descriptor

A descriptor can name other arguments: the one with the length of an array, and those with the data
and with the release function of a callback. As mapped, a descriptor names no others than those
that the schema names for the parameter or the result.
-/

namespace Interop

open Schema

/-- What one parameter names another one for. -/
inductive SlotKind where
  | length
  | userData
  | destroy
  deriving DecidableEq, Repr

namespace Schema

/-- The parameter that holds the length of an array. -/
def TypeRef.lengthParam? : TypeRef → Option Nat
  | .plain _ => none
  | .array _ form _ => form.lengthParam

/-- The type is named like a declared callback type. -/
def TypeRef.isCallback (repo : Repository) (space : String) : TypeRef → Bool
  | .array .. => false
  | .plain spelling =>
    !(TypeRef.plain spelling).isVoid && !isStringSpelling spelling.name &&
      (PrimitiveKind.ofSpelling? spelling.name).isNone &&
      match (repo.resolve? space spelling.name).map Resolved.decl with
      | some (.callback _) => true
      | _ => false

/-- The parameter that the schema names. -/
def Param.slot? (param : Param) : SlotKind → Option Nat
  | .length => param.type.lengthParam?
  | .userData => param.closureIndex
  | .destroy => param.destroyIndex

end Schema

namespace Descriptor

/-- The value is neither made of other values nor reached through a slot. -/
def isSimple : Descriptor → Bool
  | callback .. | array .. | reference _ => false
  | _ => true

/-- The argument that the outermost layer names, behind a slot too. -/
def slot? (kind : SlotKind) : Descriptor → Option Nat
  | reference inner => slot? kind inner
  | array _ _ length _ _ =>
    match kind, length with
    | .length, .param index => some index
    | _, _ => none
  | callback _ _ _ _ userDataIndex destroyIndex =>
    match kind with
    | .length => none
    | .userData => userDataIndex
    | .destroy => destroyIndex
  | _ => none

theorem slot?_of_isSimple {descriptor : Descriptor} (kind : SlotKind)
    (h : descriptor.isSimple = true) : descriptor.slot? kind = none := by
  cases descriptor with
  | callback | array | reference => cases h
  | _ => rfl

theorem isCallback_of_isSimple {descriptor : Descriptor} (h : descriptor.isSimple = true) :
    descriptor.isCallback = false := by
  cases descriptor with
  | callback => cases h
  | _ => rfl

theorem isSimple_ofPrimitive (kind : PrimitiveKind) (pointerSize : Nat) :
    (ofPrimitive kind pointerSize).isSimple = true := by
  rw [ofPrimitive]
  split <;> rfl

end Descriptor

theorem lengthParam_of_lengthOf {form : ArrayForm} {index : Nat}
    (h : lengthOf form = .param index) : form.lengthParam = some index := by
  rw [lengthOf] at h
  split at h
  next => cases h
  next =>
    split at h
    next hlength =>
      cases h
      exact hlength
    next => cases h
    next => cases h

/-- The length that an array names is the one that its form names. -/
theorem Descriptor.slot?_array {form : ArrayForm} {element : Descriptor} {ownership : Ownership}
    {arrayKind : ArrayKind} {elementSize index : Nat} {kind : SlotKind}
    (h : (array element ownership (lengthOf form) arrayKind elementSize).slot? kind =
      some index) : kind = .length ∧ form.lengthParam = some index := by
  cases kind with
  | length =>
      cases hlength : lengthOf form with
      | param other =>
          rw [hlength] at h
          cases h
          exact ⟨rfl, lengthParam_of_lengthOf hlength⟩
      | _ =>
          rw [hlength] at h
          cases h
  | _ => cases h

namespace Mapper

variable {mapper : Mapper} {callbackStep : CallbackStep} {context : UseContext}
  {param : Option Param} {usage usage' : Usage} {descriptor : Descriptor}

theorem isSimple_of_mapRecord {type : TypeRef} {qualified : String} {space : Namespace}
    {record : Record}
    (h : mapper.mapRecord context type qualified space record usage = .ok descriptor usage') :
    descriptor.isSimple = true := by
  rcases of_mapRecord_eq_ok h with ⟨_, rfl⟩ | rfl <;> rfl

/-- A value of a declared type is simple, unless it is a callback that is passed. -/
theorem of_mapDeclared_eq_ok {type : TypeRef} {qualified : String} {space : Namespace}
    {decl : Declaration}
    (h : mapper.mapDeclared callbackStep context param type qualified space decl usage =
      .ok descriptor usage') :
    descriptor.isSimple = true ∧ (context = .parameter → ∀ callback, decl ≠ .callback callback) ∨
      context = .parameter ∧ (∃ callback, decl = .callback callback) ∧
        callbackStep qualified param usage = .ok descriptor usage' := by
  cases decl with
  | cls | interface =>
      obtain ⟨_, _, _, h⟩ := Steps.of_bind_eq_ok h
      cases h
      exact .inl ⟨rfl, by simp⟩
  | record | union => exact .inl ⟨isSimple_of_mapRecord h, by simp⟩
  | enum | flags =>
      cases h
      exact .inl ⟨Descriptor.isSimple_ofPrimitive .., by simp⟩
  | callback callback =>
      cases context with
      | parameter => exact .inr ⟨rfl, ⟨callback, rfl⟩, h⟩
      | field | element =>
          cases h
          exact .inl ⟨Descriptor.isSimple_ofPrimitive .., by simp⟩
      | returned => cases h

/-- A single value is simple, unless it is a callback that is passed. -/
theorem of_mapSingle {spelling : Spelling}
    (h : mapper.mapSingle callbackStep context param (.plain spelling) usage =
      .ok descriptor usage') :
    descriptor.isSimple = true ∧ (context = .parameter →
        (TypeRef.plain spelling).isCallback mapper.platform.repo mapper.space = false) ∨
      context = .parameter ∧
        (TypeRef.plain spelling).isCallback mapper.platform.repo mapper.space = true ∧
        ∃ middle, callbackStep (qualify mapper.space spelling.name) param middle =
          .ok descriptor usage' := by
  rw [TypeRef.isCallback]
  cases hvoid : (TypeRef.plain spelling).isVoid with
  | true =>
      obtain rfl := mapSingle_of_isVoid hvoid h
      exact .inl ⟨rfl, fun _ => rfl⟩
  | false =>
      cases nameCase_of_mapSingle_eq_ok hvoid h with
      | string hstring =>
          rw [hstring]
          exact .inl ⟨rfl, fun _ => rfl⟩
      | primitive hstring hkind =>
          rw [hstring, hkind]
          exact .inl ⟨rfl, fun _ => rfl⟩
      | @declared _ hstring hkind space decl middle hresolve hdeclared =>
          rw [hstring, hkind, Repository.resolve?, hresolve]
          rcases of_mapDeclared_eq_ok hdeclared with
            ⟨hsimple, hnot⟩ | ⟨hcontext, ⟨callback, rfl⟩, hstep⟩
          · refine .inl ⟨hsimple, fun hcontext => ?_⟩
            cases decl with
            | callback callback => exact absurd rfl (hnot hcontext callback)
            | _ => rfl
          · exact .inr ⟨hcontext, rfl, middle, hstep⟩

/-- The value of a parameter, before it is put behind a slot. -/
theorem of_mapWith_parameter {param : Param}
    (h : mapper.mapWith mapper.outermost .parameter (some param) param.type usage =
      .ok descriptor usage') :
    descriptor.isCallback = param.type.isCallback mapper.platform.repo mapper.space ∧
      ∀ kind index, descriptor.slot? kind = some index → param.slot? kind = some index ∧
        (kind = .length ∨ param.type.isCallback mapper.platform.repo mapper.space = true) := by
  cases htype : param.type with
  | plain spelling =>
      rw [htype] at h
      rcases of_mapSingle h with ⟨hsimple, hnot⟩ | ⟨_, hcallback, _, hstep⟩
      · rw [Descriptor.isCallback_of_isSimple hsimple, hnot rfl]
        refine ⟨rfl, fun kind index hslot => ?_⟩
        rw [Descriptor.slot?_of_isSimple kind hsimple] at hslot
        cases hslot
      · obtain ⟨_, _, _, _, _, _, _, _, rfl, _⟩ := of_mapCallback_eq_ok hstep
        refine ⟨hcallback.symm, fun kind index hslot => ?_⟩
        cases kind with
        | length => cases hslot
        | userData | destroy => exact ⟨hslot, .inr hcallback⟩
  | array spelling form element =>
      rw [htype] at h
      obtain ⟨_, _, _, _, _, _, _, rfl⟩ := of_mapWith_array_eq_ok h
      refine ⟨rfl, fun kind index hslot => ?_⟩
      obtain ⟨rfl, hlength⟩ := Descriptor.slot?_array hslot
      rw [Param.slot?, htype]
      exact ⟨hlength, .inl rfl⟩

/-- A parameter is described as a callback if its type is one, and names what the schema does. -/
theorem of_mapParam {param : Param} (h : mapper.mapParam param usage = .ok descriptor usage') :
    descriptor.isCallback = param.type.isCallback mapper.platform.repo mapper.space ∧
      ∀ kind index, descriptor.slot? kind = some index → param.slot? kind = some index ∧
        (kind = .length ∨ param.type.isCallback mapper.platform.repo mapper.space = true) := by
  obtain ⟨inner, middle, hinner, hplace⟩ := of_mapParamWith_eq_ok h
  obtain ⟨hcallback, hslot⟩ := of_mapWith_parameter hinner
  rcases hplace with ⟨_, rfl⟩ | ⟨_, hnot, rfl⟩
  · exact ⟨hcallback, hslot⟩
  -- a slot names what its value does, and holds no callback
  · exact ⟨hnot.symm.trans hcallback, hslot⟩

/-- A result is no callback, and names the length of an array at most. -/
theorem of_map_returned {type : TypeRef}
    (h : mapper.map .returned type usage = .ok descriptor usage') :
    descriptor.isCallback = false ∧ ∀ kind index, descriptor.slot? kind = some index →
      kind = .length ∧ type.lengthParam? = some index := by
  cases type with
  | plain spelling =>
      rw [map, mapWith] at h
      rcases of_mapSingle h with ⟨hsimple, _⟩ | ⟨hcontext, _⟩
      · refine ⟨Descriptor.isCallback_of_isSimple hsimple, fun kind index hslot => ?_⟩
        rw [Descriptor.slot?_of_isSimple kind hsimple] at hslot
        cases hslot
      · cases hcontext
  | array spelling form element =>
      rw [map] at h
      obtain ⟨_, _, _, _, _, _, _, rfl⟩ := of_mapWith_array_eq_ok h
      exact ⟨rfl, fun kind index hslot => Descriptor.slot?_array hslot⟩

end Mapper

end Interop
