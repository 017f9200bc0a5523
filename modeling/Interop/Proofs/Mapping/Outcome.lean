import Interop.Proofs.Descriptor.Parts
import Interop.Proofs.Mapping.Stored

/-! # What types are described as

`SingleCase` lists what a single value can be described as, and `of_mapCallback_eq_ok` says what the
signature of a callback is described as. What is said of descriptors at any depth is derived from
these two.
-/

namespace Interop

open Schema

namespace Mapper

/-- What a single value can be described as. -/
inductive SingleCase (mapper : Mapper) (callbackStep : CallbackStep) (context : UseContext)
    (param : Option Param) (spelling : Spelling) : Descriptor → Prop
  | void : SingleCase mapper callbackStep context param spelling .null
  | string : SingleCase mapper callbackStep context param spelling (.string spelling.transfer)
  | primitive {kind : PrimitiveKind} (hkind : kind ≠ .void) :
      SingleCase mapper callbackStep context param spelling
        (.primitive kind (kind.size mapper.options.pointerSize))
  | object (hooks : Option RefHooks) :
      SingleCase mapper callbackStep context param spelling (.object spelling.transfer hooks)
  | boxed (library : String) (getTypeFn : Option String) :
      SingleCase mapper callbackStep context param spelling
        (.boxed (qualify mapper.space spelling.name) library spelling.transfer getTypeFn)
  /-- A record has the size of its type wherever it is stored. -/
  | struct (library : String) :
      SingleCase mapper callbackStep context param spelling
        (.struct (qualify mapper.space spelling.name) library
          (mapper.platform.typeSize (qualify mapper.space spelling.name))
          (storedInPlace context (.plain spelling)) spelling.transfer)
  /-- A callback type is described by its signature where a managed function is passed. -/
  | callback {descriptor : Descriptor} {before behind : Usage} (hcontext : context = .parameter)
      (hstep : callbackStep (qualify mapper.space spelling.name) param before =
        .ok descriptor behind) :
      SingleCase mapper callbackStep context param spelling descriptor

variable {mapper : Mapper} {callbackStep : CallbackStep} {context : UseContext}
  {param : Option Param} {usage usage' : Usage} {descriptor : Descriptor}

theorem SingleCase.ofPrimitive {spelling : Spelling} {kind : PrimitiveKind} (hkind : kind ≠ .void) :
    SingleCase mapper callbackStep context param spelling
      (.ofPrimitive kind mapper.options.pointerSize) := by
  rw [Descriptor.ofPrimitive, if_neg hkind]
  exact .primitive hkind

theorem mapRecord_cases {spelling : Spelling} {space : Namespace} {record : Record}
    (h : mapper.mapRecord context (.plain spelling) (qualify mapper.space spelling.name) space
      record usage = .ok descriptor usage') :
    SingleCase mapper callbackStep context param spelling descriptor := by
  rcases of_mapRecord_eq_ok h with ⟨_, rfl⟩ | rfl
  · exact .boxed ..
  · exact .struct _

theorem mapDeclared_cases {spelling : Spelling} {space : Namespace} {decl : Declaration}
    (h : mapper.mapDeclared callbackStep context param (.plain spelling)
      (qualify mapper.space spelling.name) space decl usage = .ok descriptor usage') :
    SingleCase mapper callbackStep context param spelling descriptor := by
  cases decl with
  | cls | interface =>
      obtain ⟨_, _, _, h⟩ := Steps.of_bind_eq_ok h
      cases h
      exact .object _
  | record | union => exact mapRecord_cases h
  | enum | flags =>
      cases h
      exact .ofPrimitive (by decide)
  | callback callback =>
      cases context with
      | parameter => exact .callback rfl h
      | field | element =>
          cases h
          exact .ofPrimitive (by decide)
      | returned => cases h

theorem mapSingle_cases {spelling : Spelling}
    (h : mapper.mapSingle callbackStep context param (.plain spelling) usage =
      .ok descriptor usage') :
    SingleCase mapper callbackStep context param spelling descriptor := by
  cases hvoid : (TypeRef.plain spelling).isVoid with
  | true =>
      obtain rfl := mapSingle_of_isVoid hvoid h
      exact .void
  | false =>
      cases nameCase_of_mapSingle_eq_ok hvoid h with
      | string => exact .string
      | primitive _ _ hne => exact .primitive hne
      | declared _ _ _ hdeclared => exact mapDeclared_cases hdeclared

/-- The descriptor of a parameter is that of its value, or a slot for it. -/
theorem of_mapParamWith_eq_ok {param : Param}
    (h : mapper.mapParamWith callbackStep param usage = .ok descriptor usage') :
    ∃ inner behind, mapper.mapWith callbackStep .parameter (some param) param.type usage =
        .ok inner behind ∧
      (param.direction.isByReference = false ∧ descriptor = inner ∨
        param.direction.isByReference = true ∧ inner.isCallback = false ∧
          descriptor = .reference inner) := by
  obtain ⟨inner, middle, hinner, h⟩ := Steps.of_bind_eq_ok h
  refine ⟨inner, middle, hinner, ?_⟩
  cases hdirection : param.direction.isByReference with
  | false =>
      simp only [hdirection] at h
      cases h
      exact .inl ⟨rfl, rfl⟩
  | true =>
      simp only [hdirection, Bool.not_true, Bool.false_eq_true, if_false] at h
      split at h
      next => cases h
      next hnot =>
        cases h
        refine .inr ⟨rfl, ?_, rfl⟩
        cases inner with
        | callback => exact (hnot _ _ _ _ _ _ rfl).elim
        | _ => rfl

/-- The signature of a callback is described in the namespace that declares it, and it names the
arguments that the parameter does. -/
theorem of_mapCallback_eq_ok {path : List String} {qualified : String}
    (h : mapper.mapCallback path qualified param usage = .ok descriptor usage') :
    qualified ∉ path ∧ ∃ space callback trampoline params result scope,
      mapper.platform.repo.resolveQualified? qualified = some ⟨space, .callback callback⟩ ∧
      descriptor = .callback trampoline
        (params ++ if callback.throws then [mapper.errorSlot] else []) result scope
        (param.bind (·.closureIndex)) (param.bind (·.destroyIndex)) ∧
      List.Forall₂ (fun param part => ∃ before behind,
        mapParamWith { mapper with space := space.name } (mapper.mapCallback (qualified :: path))
          param before = .ok part behind) callback.params params ∧
      ∃ before behind,
        mapWith { mapper with space := space.name } (mapper.mapCallback (qualified :: path))
          .returned none callback.returns before = .ok result behind := by
  generalize hstep : mapper.mapCallback path qualified param = step at h
  rw [mapCallback] at hstep
  split at hstep
  next =>
    subst hstep
    cases h
  next hpath =>
    refine ⟨by simpa using hpath, ?_⟩
    split at hstep
    next space callback hresolve =>
      subst hstep
      rw [mapSignature] at h
      split at h
      next =>
        obtain ⟨_, _, hthrow, _⟩ := Steps.of_bind_eq_ok h
        cases hthrow
      next =>
        obtain ⟨params, _, hparams, h⟩ := Steps.of_bind_eq_ok h
        obtain ⟨result, _, hresult, h⟩ := Steps.of_bind_eq_ok h
        obtain ⟨_, _, _, h⟩ := Steps.of_bind_eq_ok h
        cases h
        have happend : (if callback.throws then params ++ [mapper.errorSlot] else params) =
            params ++ if callback.throws then [mapper.errorSlot] else [] := by
          split <;> simp
        exact ⟨space, callback, _, params, result, _, hresolve,
          congrArg (fun params => Descriptor.callback _ params _ _ _ _) happend,
          Steps.forall₂_of_mapM_eq_ok hparams, _, _, hresult⟩
    next =>
      subst hstep
      cases h

end Mapper

end Interop
