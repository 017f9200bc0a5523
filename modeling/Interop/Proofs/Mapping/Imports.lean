import Mathlib.Data.String.Basic
import Interop.Proofs.Mapping.Names

/-! # What a descriptor imports

A type brings along the declarations that it names, and a managed function those of its signature.
While a type is mapped the imports for them are collected, each of them once and all in order,
however the types are nested.
-/

namespace Interop

open Schema

namespace Import

variable {first second third wanted new : Import} {imports : List Import}

theorem before_iff : first.before second = true ↔
    first.module < second.module ∨ first.module = second.module ∧ first.symbol < second.symbol := by
  simp only [before, Bool.or_eq_true, Bool.and_eq_true, decide_eq_true_eq, beq_iff_eq]

theorem before_trans (h : first.before second = true) (hsecond : second.before third = true) :
    first.before third = true := by
  rw [before_iff] at h hsecond ⊢
  rcases h with h | ⟨hmodule, h⟩ <;> rcases hsecond with hsecond | ⟨hmodule', hsecond⟩
  · exact .inl (String.lt_trans h hsecond)
  · exact .inl (hmodule' ▸ h)
  · exact .inl (hmodule ▸ hsecond)
  · exact .inr ⟨hmodule.trans hmodule', String.lt_trans h hsecond⟩

theorem before_of_ne (hne : new ≠ first) (h : new.before first ≠ true) :
    first.before new = true := by
  rw [Ne, before_iff, not_or, not_and] at h
  rw [before_iff]
  rcases lt_trichotomy new.module first.module with hless | hsame | hgreater
  · exact absurd hless h.1
  · refine .inr ⟨hsame.symm, lt_of_le_of_ne (not_lt.1 (h.2 hsame)) fun hsymbol => hne ?_⟩
    obtain ⟨module, symbol⟩ := new
    obtain rfl : module = first.module := hsame
    obtain rfl : first.symbol = symbol := hsymbol
    rfl
  · exact .inl hgreater

/-- The imports are in order of module and symbol, without repetitions. -/
def Ascending (imports : List Import) : Prop := imports.Pairwise fun a b => a.before b = true

theorem mem_insert : wanted ∈ new.insert imports ↔ wanted = new ∨ wanted ∈ imports := by
  induction imports with
  | nil => rw [insert, List.mem_singleton, or_iff_left List.not_mem_nil]
  | cons first rest ih =>
      rw [insert]
      split
      next => rw [List.mem_cons]
      next =>
        split
        next hsame =>
          obtain rfl := eq_of_beq hsame
          rw [List.mem_cons, or_self_left]
        next => rw [List.mem_cons, ih, List.mem_cons, or_left_comm]

theorem ascending_insert (h : Ascending imports) : Ascending (new.insert imports) := by
  induction imports with
  | nil => exact List.pairwise_singleton ..
  | cons first rest ih =>
      obtain ⟨hfirst, hrest⟩ := List.pairwise_cons.1 h
      rw [insert]
      split
      next hbefore =>
        refine List.pairwise_cons.2 ⟨fun other hother => ?_, h⟩
        rcases List.mem_cons.1 hother with rfl | hother
        · exact hbefore
        · exact before_trans hbefore (hfirst other hother)
      next hnot =>
        split
        next => exact h
        next hne =>
          refine List.pairwise_cons.2 ⟨fun other hother => ?_, ih hrest⟩
          rcases mem_insert.1 hother with rfl | hother
          · exact before_of_ne (by simpa using hne) hnot
          · exact hfirst other hother

end Import

namespace Schema

/-- Values of such a type get a managed wrapper. -/
def Declaration.isWrapped : Declaration → Bool
  | .cls _ | .interface _ | .record _ | .union _ => true
  | .enum _ | .flags _ | .callback _ => false

namespace Repository

variable (repo : Repository)

/-- A declaration and where it is used if a type is read in a namespace: the one that the type
names, or its element. A callback type that is passed also uses what its signature names, in the
namespace of the callback type. -/
inductive Uses : String → UseContext → TypeRef → UseContext → Resolved → Prop
  | named {space : String} {context : UseContext} {spelling : Spelling} {resolved : Resolved}
      (hname : isBuiltIn spelling.name = false)
      (hresolve : repo.resolve? space spelling.name = some resolved) :
      Uses space context (.plain spelling) context resolved
  | element {space : String} {context used : UseContext} {spelling : Spelling} {form : ArrayForm}
      {element : TypeRef} {resolved : Resolved} (h : Uses space .element element used resolved) :
      Uses space context (.array spelling form element) used resolved
  | param {space : String} {used : UseContext} {spelling : Spelling} {declaring : Namespace}
      {callback : Callback} {param : Param} {resolved : Resolved}
      (hname : isBuiltIn spelling.name = false)
      (hresolve : repo.resolve? space spelling.name = some ⟨declaring, .callback callback⟩)
      (hparam : param ∈ callback.params)
      (h : Uses declaring.name .parameter param.type used resolved) :
      Uses space .parameter (.plain spelling) used resolved
  | result {space : String} {used : UseContext} {spelling : Spelling} {declaring : Namespace}
      {callback : Callback} {resolved : Resolved} (hname : isBuiltIn spelling.name = false)
      (hresolve : repo.resolve? space spelling.name = some ⟨declaring, .callback callback⟩)
      (h : Uses declaring.name .returned callback.returns used resolved) :
      Uses space .parameter (.plain spelling) used resolved

/-- What parameters and a result use. -/
def SignatureUses (space : String) (params : List Param) (returns : TypeRef) (used : UseContext)
    (resolved : Resolved) : Prop :=
  (∃ param ∈ params, repo.Uses space .parameter param.type used resolved) ∨
    repo.Uses space .returned returns used resolved

variable {repo} in
theorem uses_plain_iff {space : String} {context used : UseContext} {spelling : Spelling}
    {resolved found : Resolved} (hname : isBuiltIn spelling.name = false)
    (hresolve : repo.resolve? space spelling.name = some resolved) :
    repo.Uses space context (.plain spelling) used found ↔
      used = context ∧ found = resolved ∨
        context = .parameter ∧ ∃ callback, resolved.decl = .callback callback ∧
          repo.SignatureUses resolved.space.name callback.params callback.returns used found := by
  constructor
  · intro h
    cases h with
    | named _ hresolve' => exact .inl ⟨rfl, Option.some.inj (hresolve'.symm.trans hresolve)⟩
    | param _ hresolve' hparam h =>
        obtain rfl := Option.some.inj (hresolve'.symm.trans hresolve)
        exact .inr ⟨rfl, _, rfl, .inl ⟨_, hparam, h⟩⟩
    | result _ hresolve' h =>
        obtain rfl := Option.some.inj (hresolve'.symm.trans hresolve)
        exact .inr ⟨rfl, _, rfl, .inr h⟩
  · rintro (⟨rfl, rfl⟩ | ⟨rfl, callback, hdecl, h⟩)
    · exact .named hname hresolve
    · obtain ⟨declaring, decl⟩ := resolved
      obtain rfl : decl = .callback callback := hdecl
      rcases h with ⟨param, hparam, h⟩ | h
      · exact .param hname hresolve hparam h
      · exact .result hname hresolve h

end Repository

end Schema

namespace Import

/-- What has to be imported for the declarations that are used: each of them, what wraps their
values, and what makes functions of callbacks that are passed. -/
inductive Wanted (used : UseContext → Resolved → Prop) : Import → Prop
  | type {context : UseContext} {resolved : Resolved} (h : used context resolved) :
      Wanted used ⟨resolved.space.name, resolved.localName⟩
  | wrap {context : UseContext} {resolved : Resolved} (h : used context resolved)
      (hwrapped : resolved.decl.isWrapped = true) : Wanted used (.support "wrap")
  | closure {declaring : Namespace} {callback : Callback}
      (h : used .parameter ⟨declaring, .callback callback⟩) : Wanted used (.support "closure")

namespace Wanted

variable {wanted : Import} {used used' : UseContext → Resolved → Prop}

theorem mono (h : Wanted used wanted)
    (hle : ∀ context resolved, used context resolved → used' context resolved) :
    Wanted used' wanted := by
  cases h with
  | type h => exact .type (hle _ _ h)
  | wrap h hwrapped => exact .wrap (hle _ _ h) hwrapped
  | closure h => exact .closure (hle _ _ h)

end Wanted

variable {repo : Repository} {space : String} {context : UseContext} {spelling : Spelling}
  {wanted : Import}

theorem not_wanted_of_isBuiltIn (hname : isBuiltIn spelling.name = true) :
    ¬ Wanted (repo.Uses space context (.plain spelling)) wanted := by
  have hnone : ∀ used resolved, ¬ repo.Uses space context (.plain spelling) used resolved := by
    intro used resolved h
    cases h with
    | named hnot | param hnot | result hnot =>
        rw [hname] at hnot
        cases hnot
  intro h
  cases h with
  | type h | wrap h | closure h => exact hnone _ _ h

theorem wanted_array_iff {form : ArrayForm} {element : TypeRef} :
    Wanted (repo.Uses space context (.array spelling form element)) wanted ↔
      Wanted (repo.Uses space .element element) wanted := by
  refine ⟨fun h => h.mono fun used resolved h => ?_, fun h => h.mono fun _ _ => .element⟩
  cases h with
  | element h => exact h

theorem wanted_signature_iff {params : List Param} {returns : TypeRef} :
    Wanted (repo.SignatureUses space params returns) wanted ↔
      (∃ param ∈ params, Wanted (repo.Uses space .parameter param.type) wanted) ∨
        Wanted (repo.Uses space .returned returns) wanted := by
  constructor
  · intro h
    cases h with
    | type h =>
        exact h.imp (fun ⟨param, hmem, h⟩ => ⟨param, hmem, .type h⟩) .type
    | wrap h hwrapped =>
        exact h.imp (fun ⟨param, hmem, h⟩ => ⟨param, hmem, .wrap h hwrapped⟩) (.wrap · hwrapped)
    | closure h =>
        exact h.imp (fun ⟨param, hmem, h⟩ => ⟨param, hmem, .closure h⟩) .closure
  · rintro (⟨param, hmem, h⟩ | h)
    · exact h.mono fun _ _ h => .inl ⟨param, hmem, h⟩
    · exact h.mono fun _ _ => .inr

/-- What is wanted for a managed function of a signature. -/
def WantedCallback (repo : Repository) (space : String) (callback : Callback) (wanted : Import) :
    Prop :=
  wanted = .support "closure" ∨
    Wanted (repo.SignatureUses space callback.params callback.returns) wanted

/-- What is wanted for a value of a declared type, besides the type. -/
def WantedValue (repo : Repository) (context : UseContext) (resolved : Resolved)
    (wanted : Import) : Prop :=
  resolved.decl.isWrapped = true ∧ wanted = .support "wrap" ∨
    context = .parameter ∧ ∃ callback, resolved.decl = .callback callback ∧
      WantedCallback repo resolved.space.name callback wanted

theorem wanted_plain_iff (hname : isBuiltIn spelling.name = false) {resolved : Resolved}
    (hresolve : repo.resolve? space spelling.name = some resolved) :
    Wanted (repo.Uses space context (.plain spelling)) wanted ↔
      wanted = ⟨resolved.space.name, resolved.localName⟩ ∨
        WantedValue repo context resolved wanted := by
  constructor
  · intro h
    cases h with
    | type h =>
        rcases (Repository.uses_plain_iff hname hresolve).1 h with
          ⟨_, rfl⟩ | ⟨hcontext, callback, hdecl, h⟩
        · exact .inl rfl
        · exact .inr (.inr ⟨hcontext, callback, hdecl, .inr (.type h)⟩)
    | wrap h hwrapped =>
        rcases (Repository.uses_plain_iff hname hresolve).1 h with
          ⟨_, rfl⟩ | ⟨hcontext, callback, hdecl, h⟩
        · exact .inr (.inl ⟨hwrapped, rfl⟩)
        · exact .inr (.inr ⟨hcontext, callback, hdecl, .inr (.wrap h hwrapped)⟩)
    | closure h =>
        rcases (Repository.uses_plain_iff hname hresolve).1 h with
          ⟨hcontext, rfl⟩ | ⟨hcontext, callback, hdecl, h⟩
        · exact .inr (.inr ⟨hcontext.symm, _, rfl, .inl rfl⟩)
        · exact .inr (.inr ⟨hcontext, callback, hdecl, .inr (.closure h)⟩)
  · have hself : repo.Uses space context (.plain spelling) context resolved :=
      .named hname hresolve
    rintro (rfl | ⟨hwrapped, rfl⟩ | ⟨rfl, callback, hdecl, rfl | h⟩)
    · exact .type hself
    · exact .wrap hself hwrapped
    · obtain ⟨declaring, decl⟩ := resolved
      obtain rfl : decl = .callback callback := hdecl
      exact .closure hself
    · exact h.mono fun used found h =>
        (Repository.uses_plain_iff hname hresolve).2 (.inr ⟨rfl, callback, hdecl, h⟩)

end Import

namespace Mapping

variable {α β : Type} {step : Mapping α} {P Q : Import → Prop}

/-- If the step succeeds, it adds just the imports that meet a condition, and keeps the order. -/
def Adds (step : Mapping α) (P : Import → Prop) : Prop :=
  ∀ before value after, step before = .ok value after →
    (Import.Ascending before.imports → Import.Ascending after.imports) ∧
      ∀ wanted, wanted ∈ after.imports ↔ wanted ∈ before.imports ∨ P wanted

namespace Adds

theorem congr (h : Adds step P) (hiff : ∀ wanted, P wanted ↔ Q wanted) : Adds step Q := by
  obtain rfl : P = Q := funext fun wanted => propext (hiff wanted)
  exact h

theorem throw (error : MappingFailure) : Adds (throw error : Mapping α) P := by
  intro before value after h
  cases h

theorem of_imports_eq (h : ∀ before value after, step before = .ok value after →
    after.imports = before.imports) : Adds step fun _ => False := by
  intro before value after hok
  rw [h before value after hok]
  exact ⟨id, fun _ => (or_iff_left id).symm⟩

theorem pure (a : α) : Adds (pure a : Mapping α) fun _ => False :=
  of_imports_eq fun _ _ _ h => by
    cases h
    rfl

theorem get : Adds (get : Mapping Usage) fun _ => False :=
  of_imports_eq fun _ _ _ h => by
    cases h
    rfl

theorem bind {next : α → Mapping β} (h : Adds step P) (hnext : ∀ a, Adds (next a) Q) :
    Adds (step >>= next) fun wanted => P wanted ∨ Q wanted := by
  intro before value after hok
  obtain ⟨a, middle, hfirst, hsecond⟩ := Steps.of_bind_eq_ok hok
  obtain ⟨hascending, hmem⟩ := h before a middle hfirst
  obtain ⟨hascending', hmem'⟩ := hnext a middle value after hsecond
  exact ⟨hascending' ∘ hascending, fun wanted => by rw [hmem', hmem, or_assoc]⟩

theorem bind_nothing {next : α → Mapping β} (h : Adds step P)
    (hnext : ∀ a, Adds (next a) fun _ => False) : Adds (step >>= next) P :=
  (h.bind hnext).congr fun wanted => iff_of_eq (or_false (P wanted))

theorem ofExcept (result : Except MappingError α) :
    Adds (Mapping.ofExcept result : Mapping α) fun _ => False := by
  cases result with
  | ok a => exact .pure a
  | error error => exact .throw _

theorem useImport (new : Import) : Adds (useImport new) (· = new) := by
  intro before value after h
  cases h
  exact ⟨Import.ascending_insert, fun wanted => Import.mem_insert.trans or_comm⟩

theorem useSize (qualified : String) : Adds (useSize qualified) fun _ => False :=
  of_imports_eq fun _ _ _ h => by
    cases h
    rfl

theorem mapM {step : α → Mapping β} {P : α → Import → Prop} (h : ∀ item, Adds (step item) (P item))
    (items : List α) : Adds (items.mapM step) fun wanted => ∃ item ∈ items, P item wanted := by
  induction items with
  | nil => exact (Adds.pure []).congr fun wanted => by simp
  | cons item rest ih =>
      rw [List.mapM_cons]
      refine ((h item).bind fun first => ih.bind fun others => .pure (first :: others)).congr ?_
      intro wanted
      simp only [or_false, List.mem_cons, exists_eq_or_imp]

end Adds

end Mapping

namespace Mapper

open Mapping

variable {mapper : Mapper} {callbackStep : CallbackStep} {context : UseContext}
  {param : Option Param}

/-- A callback type that is passed is described with the imports for its signature. -/
def CallbackAdds (repo : Repository) (callbackStep : CallbackStep) : Prop :=
  ∀ qualified param declaring callback,
    repo.resolveQualified? qualified = some ⟨declaring, .callback callback⟩ →
      Adds (callbackStep qualified param) (Import.WantedCallback repo declaring.name callback)

theorem adds_mapRecord {type : TypeRef} {qualified : String} {space : Namespace}
    {record : Record} :
    Adds (mapper.mapRecord context type qualified space record) (· = .support "wrap") := by
  refine (Adds.useImport _).bind_nothing fun _ => ?_
  dsimp only
  split
  next => exact .pure _
  next => exact (Adds.useSize _).bind_nothing fun _ => .pure _

theorem adds_mapDeclared (hstep : CallbackAdds mapper.platform.repo callbackStep)
    {type : TypeRef} {qualified : String} {resolved : Resolved}
    (hresolve : mapper.platform.repo.resolveQualified? qualified = some resolved) :
    Adds (mapper.mapDeclared callbackStep context param type qualified resolved.space resolved.decl)
      (Import.WantedValue mapper.platform.repo context resolved) := by
  obtain ⟨space, decl⟩ := resolved
  unfold Import.WantedValue
  cases decl with
  | cls cls | interface =>
      refine ((Adds.useImport _).bind_nothing fun _ => .pure _).congr fun wanted => ?_
      simp [Declaration.isWrapped]
  | record record | union record =>
      refine adds_mapRecord.congr fun wanted => ?_
      simp [Declaration.isWrapped]
  | enum | flags =>
      refine (Adds.pure _).congr fun wanted => ?_
      simp [Declaration.isWrapped]
  | callback callback =>
      cases context with
      | parameter =>
          refine (hstep qualified param space callback hresolve).congr fun wanted => ?_
          simp [Declaration.isWrapped]
      | field | element =>
          refine (Adds.pure _).congr fun wanted => ?_
          simp [Declaration.isWrapped]
      | returned => exact .throw _

theorem adds_mapSingle (hstep : CallbackAdds mapper.platform.repo callbackStep)
    {spelling : Spelling} :
    Adds (mapper.mapSingle callbackStep context param (.plain spelling))
      (Import.Wanted (mapper.platform.repo.Uses mapper.space context (.plain spelling))) := by
  cases hname : isBuiltIn spelling.name with
  | true =>
      rw [mapSingle_of_isBuiltIn hname]
      exact (Adds.pure _).congr fun wanted =>
        (iff_false_intro (Import.not_wanted_of_isBuiltIn hname)).symm
  | false =>
      cases hvariadic : isVariadicSpelling spelling.name with
      | true =>
          rw [mapSingle_of_isVariadicSpelling hvariadic]
          exact .throw _
      | false =>
          rw [mapSingle_eq_mapNamed hname hvariadic, mapNamed]
          split
          next => exact .throw _
          next =>
            split
            next => exact .throw _
            next resolved hresolve =>
              refine ((Adds.useImport _).bind fun _ => adds_mapDeclared hstep hresolve).congr ?_
              exact fun wanted => (Import.wanted_plain_iff hname hresolve).symm

theorem adds_mapWith (hstep : CallbackAdds mapper.platform.repo callbackStep) (type : TypeRef) :
    Adds (mapper.mapWith callbackStep context param type)
      (Import.Wanted (mapper.platform.repo.Uses mapper.space context type)) := by
  cases type with
  | plain spelling => exact adds_mapSingle hstep
  | array spelling form element =>
      cases element with
      | array => exact .throw _
      | plain inner =>
          refine ((adds_mapSingle hstep).bind_nothing fun described => ?_).congr
            fun _ => Import.wanted_array_iff.symm
          dsimp only
          split
          next => exact .throw _
          next => exact .pure _

theorem adds_mapParamWith (hstep : CallbackAdds mapper.platform.repo callbackStep) (param : Param) :
    Adds (mapper.mapParamWith callbackStep param)
      (Import.Wanted (mapper.platform.repo.Uses mapper.space .parameter param.type)) := by
  refine (adds_mapWith hstep _).bind_nothing fun inner => ?_
  split
  next => exact .pure _
  next =>
    split
    next => exact .throw _
    next => exact .pure _

theorem adds_mapSignature (hstep : CallbackAdds mapper.platform.repo callbackStep)
    {qualified : String} {callback : Callback} :
    Adds (mapper.mapSignature callbackStep qualified callback param)
      (Import.WantedCallback mapper.platform.repo mapper.space callback) := by
  rw [mapSignature]
  split
  next => exact .throw _
  next =>
    refine ((Adds.mapM (adds_mapParamWith hstep) _).bind fun _ =>
      (adds_mapWith hstep _).bind fun _ => (Adds.useImport _).bind_nothing fun _ =>
        .pure _).congr fun wanted => ?_
    rw [Import.WantedCallback, Import.wanted_signature_iff, ← or_assoc, or_comm]

/-- By induction on the callback types that are not being read. -/
theorem adds_mapCallback (mapper : Mapper) (path : List String) (qualified : String)
    (param : Option Param) {declaring : Namespace} {callback : Callback}
    (hresolve : mapper.platform.repo.resolveQualified? qualified =
      some ⟨declaring, .callback callback⟩) :
    Adds (mapper.mapCallback path qualified param)
      (Import.WantedCallback mapper.platform.repo declaring.name callback) := by
  rw [mapCallback_eq]
  by_cases hpath : path.contains qualified = true
  · rw [if_pos hpath]
    exact .throw _
  · rw [if_neg hpath, hresolve]
    have hless := Repository.remaining_cons_lt hresolve (by simpa using hpath)
    exact @adds_mapSignature (mapper.reading declaring.name) _ _
      (fun other param _ _ => adds_mapCallback mapper (qualified :: path) other param) _ _
termination_by mapper.platform.repo.remaining path
decreasing_by exact hless

theorem callbackAdds_outermost (mapper : Mapper) :
    CallbackAdds mapper.platform.repo mapper.outermost :=
  fun qualified param _ _ => mapper.adds_mapCallback [] qualified param

/-- What is mapped imports what its type uses. -/
theorem adds_map (mapper : Mapper) (context : UseContext) (type : TypeRef) :
    Adds (mapper.map context type)
      (Import.Wanted (mapper.platform.repo.Uses mapper.space context type)) :=
  adds_mapWith mapper.callbackAdds_outermost type

theorem adds_mapParam (mapper : Mapper) (param : Param) :
    Adds (mapper.mapParam param)
      (Import.Wanted (mapper.platform.repo.Uses mapper.space .parameter param.type)) :=
  adds_mapParamWith mapper.callbackAdds_outermost param

end Mapper

end Interop
