import Mathlib.Data.Nat.Find
import Interop.Proofs.Mapping.Names

/-! # Callback types that are read without an end

The signature of a callback type is read where the type is that of a parameter, and so are those of
the callback types that it takes. `readWithin` reads with so many levels of the stack and watches
out for nothing. The mapping of a callback type ends just if the reading ends within some depth, and
then gives what it gives. It fails to end only at a callback type that takes itself.
-/

namespace Interop

open Schema

namespace Schema.Repository

/-- The signature of the outer callback type has a parameter of the inner one. -/
def Takes (repo : Repository) (outer inner : String) : Prop :=
  ∃ space callback declaring other, ∃ param ∈ callback.params, ∃ spelling,
    repo.resolveQualified? outer = some ⟨space, .callback callback⟩ ∧
      param.type = .plain spelling ∧ qualify space.name spelling.name = inner ∧
      repo.resolveQualified? inner = some ⟨declaring, .callback other⟩

/-- The callback type is taken by the signature of one that it takes, at some depth. -/
def TakesItself (repo : Repository) (callback : String) : Prop :=
  Relation.TransGen repo.Takes callback callback

end Schema.Repository

namespace Mapping

variable {α β : Type} {result : EStateM.Result MappingFailure Usage α}
  {step other : Mapping α}

/-- The stack does not overflow. -/
def Ended (result : EStateM.Result MappingFailure Usage α) : Prop :=
  ∀ callback usage, result ≠ .error (.overflow callback) usage

/-- What a step comes to, without what it uses. -/
def outcome : EStateM.Result MappingFailure Usage α → Except MappingFailure α
  | .ok value _ => .ok value
  | .error failure _ => .error failure

theorem ended_of_outcome_eq {result' : EStateM.Result MappingFailure Usage α} (h : Ended result)
    (houtcome : outcome result' = outcome result) : Ended result' := by
  rintro callback usage rfl
  cases result with
  | ok value usage' => cases houtcome
  | error failure usage' =>
      cases houtcome
      exact h callback usage' rfl

/-- Where the step ends, the other one does the same. What has been used before makes no difference
to what they come to. -/
structure Settles (step other : Mapping α) : Prop where
  same : ∀ usage, Ended (step usage) → other usage = step usage
  blind : ∀ usage usage', Ended (step usage) → outcome (other usage') = outcome (step usage)

namespace Settles

theorem pure (value : α) : Settles (pure value) (pure value) :=
  ⟨fun _ _ => rfl, fun _ _ _ => rfl⟩

theorem throw (failure : MappingFailure) :
    Settles (throw failure : Mapping α) (throw failure) :=
  ⟨fun _ _ => rfl, fun _ _ _ => rfl⟩

theorem useImport (new : Import) : Settles (useImport new) (Mapping.useImport new) :=
  ⟨fun _ _ => rfl, fun _ _ _ => rfl⟩

theorem useSize (qualified : String) : Settles (useSize qualified) (Mapping.useSize qualified) :=
  ⟨fun _ _ => rfl, fun _ _ _ => rfl⟩

/-- What does not end settles anything. -/
theorem of_not_ended (h : ∀ usage, ¬ Ended (step usage)) : Settles step other :=
  ⟨fun usage hended => absurd hended (h usage), fun usage _ hended => absurd hended (h usage)⟩

theorem bind {next next' : α → Mapping β} (h : Settles step other)
    (hnext : ∀ a, Settles (next a) (next' a)) : Settles (step >>= next) (other >>= next') := by
  have hfirst : ∀ usage, Ended ((step >>= next) usage) → Ended (step usage) := by
    intro usage hended callback after hstep
    exact hended callback after (Steps.bind_eq_of_eq_error hstep)
  constructor
  · intro usage hended
    have hsame := h.same usage (hfirst usage hended)
    cases hstep : step usage with
    | ok a middle =>
        rw [Steps.bind_eq_of_eq_ok hstep] at hended ⊢
        rw [Steps.bind_eq_of_eq_ok (hsame.trans hstep)]
        exact (hnext a).same middle hended
    | error failure middle =>
        rw [Steps.bind_eq_of_eq_error hstep, Steps.bind_eq_of_eq_error (hsame.trans hstep)]
  · intro usage usage' hended
    have hblind := h.blind usage usage' (hfirst usage hended)
    cases hstep : step usage with
    | ok a middle =>
        rw [Steps.bind_eq_of_eq_ok hstep] at hended ⊢
        rw [hstep] at hblind
        cases hother : other usage' with
        | ok b middle' =>
            rw [hother] at hblind
            cases hblind
            rw [Steps.bind_eq_of_eq_ok hother]
            exact (hnext a).blind middle middle' hended
        | error failure middle' =>
            rw [hother] at hblind
            cases hblind
    | error failure middle =>
        rw [hstep] at hblind
        cases hother : other usage' with
        | ok b middle' =>
            rw [hother] at hblind
            cases hblind
        | error failure' middle' =>
            rw [hother] at hblind
            cases hblind
            rw [Steps.bind_eq_of_eq_error hstep, Steps.bind_eq_of_eq_error hother]
            rfl

theorem mapM {step other : α → Mapping β} (h : ∀ item, Settles (step item) (other item))
    (items : List α) : Settles (items.mapM step) (items.mapM other) := by
  induction items with
  | nil => exact .pure []
  | cons item rest ih =>
      rw [List.mapM_cons, List.mapM_cons]
      exact (h item).bind fun first => ih.bind fun others => .pure (first :: others)

end Settles

/-- The stack overflows only at callback types that meet a condition. -/
def OverflowsOnly (P : String → Prop) (step : Mapping α) : Prop :=
  ∀ usage callback after, step usage = .error (.overflow callback) after → P callback

namespace OverflowsOnly

variable {P Q : String → Prop}

theorem pure (value : α) : OverflowsOnly P (pure value) := nofun

theorem refuse (error : MappingError) : OverflowsOnly P (throw (.refused error) : Mapping α) :=
  nofun

theorem useImport (new : Import) : OverflowsOnly P (useImport new) := nofun

theorem useSize (qualified : String) : OverflowsOnly P (useSize qualified) := nofun

theorem get : OverflowsOnly P (get : Mapping Usage) := nofun

theorem ofExcept (result : Except MappingError α) : OverflowsOnly P (ofExcept result) := by
  cases result with
  | ok value => exact .pure value
  | error error => exact .refuse error

theorem imp (h : OverflowsOnly P step) (hPQ : ∀ callback, P callback → Q callback) :
    OverflowsOnly Q step :=
  fun usage callback after hstep => hPQ callback (h usage callback after hstep)

theorem bind {next : α → Mapping β} (h : OverflowsOnly P step)
    (hnext : ∀ a, OverflowsOnly P (next a)) : OverflowsOnly P (step >>= next) := by
  intro usage callback after hboth
  rcases Steps.of_bind_eq_error hboth with hfirst | ⟨a, middle, _, hsecond⟩
  · exact h usage callback after hfirst
  · exact hnext a middle callback after hsecond

theorem mapM {step : α → Mapping β} {items : List α}
    (h : ∀ item ∈ items, OverflowsOnly P (step item)) : OverflowsOnly P (items.mapM step) := by
  induction items with
  | nil => exact .pure []
  | cons item rest ih =>
      rw [List.mapM_cons]
      refine (h item List.mem_cons_self).bind fun first => ?_
      exact (ih fun other hother => h other (List.mem_cons_of_mem item hother)).bind
        fun others => .pure (first :: others)

end OverflowsOnly

end Mapping

namespace Mapper

open Mapping

variable {mapper : Mapper} {callbackStep otherStep : CallbackStep} {context : UseContext}
  {param : Option Param}

/-! ## Reading with a stack of some depth -/

/-- The descriptor of a callback type whose signature is read with a step for those that it
takes. -/
def readLevel (mapper : Mapper) (callbackStep : CallbackStep) : CallbackStep :=
  fun qualified param =>
    match mapper.platform.repo.resolveQualified? qualified with
    | some ⟨space, .callback callback⟩ =>
      (mapper.reading space.name).mapSignature callbackStep qualified callback param
    | _ => throw (.refused (.unresolvedType qualified))

/-- The descriptor of a callback type, if reading it takes no more than so many levels. -/
def readWithin (mapper : Mapper) : Nat → CallbackStep
  | 0 => fun qualified _ => throw (.overflow qualified)
  | depth + 1 => mapper.readLevel (mapper.readWithin depth)

/-- The mapping reads as many levels as there are callback types that it has not met. -/
theorem mapCallback_eq_readLevel (mapper : Mapper) (path : List String) (qualified : String)
    (param : Option Param) :
    mapper.mapCallback path qualified param =
      if path.contains qualified then throw (.overflow qualified)
      else mapper.readLevel (mapper.mapCallback (qualified :: path)) qualified param :=
  mapCallback_eq ..

theorem settles_mapRecord (mapper : Mapper) (context : UseContext) (type : TypeRef)
    (qualified : String) (space : Namespace) (record : Record) :
    Settles (mapper.mapRecord context type qualified space record)
      (mapper.mapRecord context type qualified space record) := by
  refine (Settles.useImport _).bind fun _ => ?_
  dsimp only
  split
  next => exact .pure _
  next => exact (Settles.useSize _).bind fun _ => .pure _

section Steps

variable
  (h : ∀ qualified param, Settles (callbackStep qualified param) (otherStep qualified param))
include h

theorem settles_mapDeclared {type : TypeRef} {qualified : String} {space : Namespace}
    (decl : Declaration) :
    Settles (mapper.mapDeclared callbackStep context param type qualified space decl)
      (mapper.mapDeclared otherStep context param type qualified space decl) := by
  cases decl with
  | cls | interface => exact (Settles.useImport _).bind fun _ => .pure _
  | record | union => exact settles_mapRecord ..
  | enum | flags => exact .pure _
  | callback callback =>
      cases context with
      | parameter => exact h qualified param
      | field | element => exact .pure _
      | returned => exact .throw _

theorem settles_mapSingle {spelling : Spelling} :
    Settles (mapper.mapSingle callbackStep context param (.plain spelling))
      (mapper.mapSingle otherStep context param (.plain spelling)) := by
  cases hname : isBuiltIn spelling.name with
  | true =>
      rw [mapSingle_of_isBuiltIn hname, mapSingle_of_isBuiltIn hname]
      exact .pure _
  | false =>
      cases hvariadic : isVariadicSpelling spelling.name with
      | true =>
          rw [mapSingle_of_isVariadicSpelling hvariadic, mapSingle_of_isVariadicSpelling hvariadic]
          exact .throw _
      | false =>
          rw [mapSingle_eq_mapNamed hname hvariadic, mapSingle_eq_mapNamed hname hvariadic,
            mapNamed, mapNamed]
          split
          next => exact .throw _
          next =>
            split
            next => exact .throw _
            next => exact (Settles.useImport _).bind fun _ => settles_mapDeclared h _

theorem settles_mapWith (type : TypeRef) :
    Settles (mapper.mapWith callbackStep context param type)
      (mapper.mapWith otherStep context param type) := by
  cases type with
  | plain spelling => exact settles_mapSingle h
  | array spelling form element =>
      cases element with
      | array => exact .throw _
      | plain inner =>
          refine (settles_mapSingle h).bind fun described => ?_
          dsimp only
          split
          next => exact .throw _
          next => exact .pure _

theorem settles_mapParamWith (param : Param) :
    Settles (mapper.mapParamWith callbackStep param) (mapper.mapParamWith otherStep param) := by
  refine (settles_mapWith h _).bind fun inner => ?_
  split
  next => exact .pure _
  next =>
    split
    next => exact .throw _
    next => exact .pure _

theorem settles_mapSignature (qualified : String) (callback : Callback) (param : Option Param) :
    Settles (mapper.mapSignature callbackStep qualified callback param)
      (mapper.mapSignature otherStep qualified callback param) := by
  rw [mapSignature, mapSignature]
  split
  next => exact .throw _
  next =>
    exact (Settles.mapM (settles_mapParamWith h) _).bind fun _ =>
      (settles_mapWith h _).bind fun _ => (Settles.useImport _).bind fun _ => .pure _

theorem settles_readLevel (qualified : String) (param : Option Param) :
    Settles (mapper.readLevel callbackStep qualified param)
      (mapper.readLevel otherStep qualified param) := by
  rw [readLevel, readLevel]
  split
  next => exact settles_mapSignature h ..
  next => exact .throw _

end Steps

/-- Whether the reading of a signature ends does not depend on the parameter it is read for. -/
theorem ended_mapSignature {qualified : String} {callback : Callback} {usage : Usage}
    (other : Option Param)
    (h : Ended (mapper.mapSignature callbackStep qualified callback param usage)) :
    Ended (mapper.mapSignature callbackStep qualified callback other usage) := by
  intro name after herror
  refine h name after ?_
  rw [mapSignature] at herror ⊢
  split at herror
  next hvariadic => cases herror
  next hvariadic =>
    rw [if_neg hvariadic]
    rcases Steps.of_bind_eq_error herror with hparams | ⟨params, middle, hparams, herror⟩
    · exact Steps.bind_eq_of_eq_error hparams
    · refine (Steps.bind_eq_of_eq_ok hparams).trans ?_
      rcases Steps.of_bind_eq_error herror with hresult | ⟨result, last, hresult, herror⟩
      · exact Steps.bind_eq_of_eq_error hresult
      · cases herror

/-- By induction on the depth: a deeper stack gives what a flat one does. -/
theorem settles_readWithin {depth deeper : Nat} (hle : depth ≤ deeper) (qualified : String)
    (param : Option Param) :
    Settles (mapper.readWithin depth qualified param)
      (mapper.readWithin deeper qualified param) := by
  induction depth generalizing deeper qualified param with
  | zero => exact .of_not_ended fun usage hended => hended qualified usage rfl
  | succ depth ih =>
      obtain ⟨deeper, rfl⟩ := Nat.exists_eq_succ_of_ne_zero (Nat.ne_zero_of_lt hle)
      exact settles_readLevel (ih (Nat.le_of_succ_le_succ hle)) qualified param

/-- With so many levels the signature of a callback type is not read to its end. -/
def Unread (mapper : Mapper) (depth : Nat) (qualified : String) : Prop :=
  ∀ param usage, ¬ Ended (mapper.readWithin depth qualified param usage)

theorem unread_zero (mapper : Mapper) (qualified : String) : mapper.Unread 0 qualified :=
  fun _ usage hended => hended qualified usage rfl

theorem Unread.of_le {depth deeper : Nat} {qualified : String}
    (h : mapper.Unread deeper qualified) (hle : depth ≤ deeper) :
    mapper.Unread depth qualified := by
  intro param usage hended
  apply h param usage
  rw [(settles_readWithin hle qualified param).same usage hended]
  exact hended

/-- What is read for one parameter is read for each. -/
theorem ended_of_not_unread {depth : Nat} {qualified : String}
    (h : ¬ mapper.Unread depth qualified) (param : Option Param) (usage : Usage) :
    Ended (mapper.readWithin depth qualified param usage) := by
  obtain ⟨other, before, hended⟩ : ∃ other before,
      Ended (mapper.readWithin depth qualified other before) := by
    simpa only [Unread, not_forall, not_not] using h
  have hother : Ended (mapper.readWithin depth qualified param before) := by
    cases depth with
    | zero => exact absurd rfl (hended qualified before)
    | succ depth =>
        rw [readWithin, readLevel] at hended ⊢
        generalize mapper.platform.repo.resolveQualified? qualified = resolved at hended ⊢
        obtain - | ⟨space, decl⟩ := resolved
        · exact hended
        · cases decl with
          | callback => exact ended_mapSignature param hended
          | _ => exact hended
  exact ended_of_outcome_eq hother
    ((settles_readWithin (Nat.le_refl depth) qualified param).blind before usage hother)

/-! ## The mapping and the reading -/

/-- By induction on the callback types that are not being read. -/
theorem settles_mapCallback (mapper : Mapper) (path : List String) {depth : Nat}
    (hdepth : mapper.platform.repo.remaining path < depth) (qualified : String)
    (param : Option Param) :
    Settles (mapper.mapCallback path qualified param)
      (mapper.readWithin depth qualified param) := by
  obtain ⟨depth, rfl⟩ := Nat.exists_eq_succ_of_ne_zero (Nat.ne_zero_of_lt hdepth)
  rw [mapCallback_eq_readLevel, readWithin]
  by_cases hpath : path.contains qualified = true
  · rw [if_pos hpath]
    exact .of_not_ended fun usage hended => hended qualified usage rfl
  · rw [if_neg hpath]
    cases hresolve : mapper.platform.repo.resolveQualified? qualified with
    | none =>
        rw [readLevel, readLevel, hresolve]
        exact .throw _
    | some resolved =>
        have hless := Repository.remaining_cons_lt hresolve (by simpa using hpath)
        exact settles_readLevel (settles_mapCallback mapper (qualified :: path) (by omega)) ..
termination_by mapper.platform.repo.remaining path
decreasing_by exact hless

/-- A callback type that is read within some depth is read within the least one that is enough for
it, and there its signature does not need it, nor what that depth is not enough for. So the path is
of no consequence. -/
theorem settles_readWithin_mapCallback (mapper : Mapper) (depth : Nat) {path : List String}
    (hpath : ∀ name ∈ path, mapper.Unread depth name) (qualified : String)
    (param : Option Param) :
    Settles (mapper.readWithin depth qualified param)
      (mapper.mapCallback path qualified param) := by
  classical
  induction depth using Nat.strongRecOn generalizing path qualified param with
  | _ depth ih =>
    by_cases hunread : mapper.Unread depth qualified
    · exact .of_not_ended (hunread param)
    · have hread : ∃ depth, ¬ mapper.Unread depth qualified := ⟨depth, hunread⟩
      have hle : Nat.find hread ≤ depth := Nat.find_min' hread hunread
      obtain ⟨least, hleast⟩ := Nat.exists_eq_succ_of_ne_zero (n := Nat.find hread) fun hzero =>
        Nat.find_spec hread (hzero ▸ unread_zero mapper qualified)
      have hbelow : mapper.Unread least qualified := by
        by_contra hbelow
        exact Nat.find_min hread (by omega) hbelow
      have henough : ¬ mapper.Unread (least + 1) qualified := by
        rw [← Nat.succ_eq_add_one, ← hleast]
        exact Nat.find_spec hread
      have hsame : mapper.readWithin depth qualified param =
          mapper.readWithin (least + 1) qualified param := funext fun usage =>
        (settles_readWithin (by omega) qualified param).same usage
          (ended_of_not_unread henough param usage)
      have hnot : ¬ path.contains qualified = true := fun hmem =>
        hunread (hpath qualified (List.contains_iff_mem.1 hmem))
      rw [hsame, readWithin, mapCallback_eq_readLevel, if_neg hnot]
      refine settles_readLevel (ih least (by omega) fun name hname => ?_) qualified param
      rcases List.mem_cons.1 hname with rfl | hname
      · exact hbelow
      · exact (hpath name hname).of_le (by omega)

/-- What a callback type is mapped to, unless the stack overflows, is what it is read as with a
stack that is deep enough. So it overflows just if no stack is. -/
theorem outermost_eq_iff {qualified : String} {usage : Usage}
    {result : EStateM.Result MappingFailure Usage Descriptor} (hended : Ended result) :
    mapper.outermost qualified param usage = result ↔
      ∃ depth, mapper.readWithin depth qualified param usage = result := by
  constructor
  · rintro rfl
    have hsettles := settles_mapCallback mapper [] (Nat.lt_succ_self _) qualified param
    exact ⟨_, hsettles.same usage hended⟩
  · rintro ⟨depth, rfl⟩
    exact (settles_readWithin_mapCallback mapper depth (fun _ h => absurd h List.not_mem_nil)
      qualified param).same usage hended

/-! ## Where the stack overflows -/

section Steps

variable {P : String → Prop}

/-- A single value is read further only where it is that of a parameter and of a callback type. -/
theorem overflowsOnly_mapSingle {spelling : Spelling}
    (h : context = .parameter → ∀ declaring callback,
      mapper.platform.repo.resolveQualified? (qualify mapper.space spelling.name) =
        some ⟨declaring, .callback callback⟩ →
      OverflowsOnly P (callbackStep (qualify mapper.space spelling.name) param)) :
    OverflowsOnly P (mapper.mapSingle callbackStep context param (.plain spelling)) := by
  cases hname : isBuiltIn spelling.name with
  | true =>
      rw [mapSingle_of_isBuiltIn hname]
      exact .pure _
  | false =>
      cases hvariadic : isVariadicSpelling spelling.name with
      | true =>
          rw [mapSingle_of_isVariadicSpelling hvariadic]
          exact .refuse _
      | false =>
          rw [mapSingle_eq_mapNamed hname hvariadic, mapNamed]
          split
          next => exact .refuse _
          next =>
            split
            next => exact .refuse _
            next resolved hresolve =>
              obtain ⟨space, decl⟩ := resolved
              refine (OverflowsOnly.useImport _).bind fun _ => ?_
              cases decl with
              | cls | interface => exact (OverflowsOnly.useImport _).bind fun _ => .pure _
              | record | union =>
                  refine (OverflowsOnly.useImport _).bind fun _ => ?_
                  dsimp only
                  split
                  next => exact .pure _
                  next => exact (OverflowsOnly.useSize _).bind fun _ => .pure _
              | enum | flags => exact .pure _
              | callback callback =>
                  cases context with
                  | parameter => exact h rfl space callback hresolve
                  | field | element => exact .pure _
                  | returned => exact .refuse _

/-- The elements of an array are not read further. -/
theorem overflowsOnly_mapWith {type : TypeRef}
    (h : context = .parameter → ∀ spelling declaring callback, type = .plain spelling →
      mapper.platform.repo.resolveQualified? (qualify mapper.space spelling.name) =
        some ⟨declaring, .callback callback⟩ →
      OverflowsOnly P (callbackStep (qualify mapper.space spelling.name) param)) :
    OverflowsOnly P (mapper.mapWith callbackStep context param type) := by
  cases type with
  | plain spelling =>
      exact overflowsOnly_mapSingle fun hcontext declaring callback =>
        h hcontext spelling declaring callback rfl
  | array spelling form element =>
      cases element with
      | array => exact .refuse _
      | plain inner =>
          refine (overflowsOnly_mapSingle nofun).bind fun described => ?_
          dsimp only
          split
          next => exact .refuse _
          next => exact .pure _

theorem overflowsOnly_mapParamWith {param : Param}
    (h : ∀ spelling declaring callback, param.type = .plain spelling →
      mapper.platform.repo.resolveQualified? (qualify mapper.space spelling.name) =
        some ⟨declaring, .callback callback⟩ →
      OverflowsOnly P (callbackStep (qualify mapper.space spelling.name) (some param))) :
    OverflowsOnly P (mapper.mapParamWith callbackStep param) := by
  refine (overflowsOnly_mapWith fun _ => h).bind fun inner => ?_
  split
  next => exact .pure _
  next =>
    split
    next => exact .refuse _
    next => exact .pure _

/-- Of a signature, the callback types that it takes are read further. -/
theorem overflowsOnly_readLevel {outer : String}
    (h : ∀ inner param, mapper.platform.repo.Takes outer inner →
      OverflowsOnly P (callbackStep inner param)) (param : Option Param) :
    OverflowsOnly P (mapper.readLevel callbackStep outer param) := by
  rw [readLevel]
  split
  next space callback hresolve =>
    rw [mapSignature]
    split
    next => exact .refuse _
    next =>
      refine (OverflowsOnly.mapM fun param hparam => ?_).bind fun _ =>
        (overflowsOnly_mapWith nofun).bind fun _ =>
          (OverflowsOnly.useImport _).bind fun _ => .pure _
      exact overflowsOnly_mapParamWith fun spelling declaring other htype hother =>
        h _ _ ⟨space, callback, declaring, other, param, hparam, spelling, hresolve, htype, rfl,
          hother⟩
  next => exact .refuse _

end Steps

/-- By induction on the callback types that are not being read: the stack overflows at one that was
being read, or at one that was met on the way and takes itself. -/
theorem overflowsOnly_mapCallback (mapper : Mapper) (path : List String) (qualified : String)
    (param : Option Param) :
    OverflowsOnly (fun callback => mapper.platform.repo.TakesItself callback ∨
      callback ∈ path ∧ Relation.ReflTransGen mapper.platform.repo.Takes qualified callback)
      (mapper.mapCallback path qualified param) := by
  rw [mapCallback_eq_readLevel]
  by_cases hpath : path.contains qualified = true
  · rw [if_pos hpath]
    intro usage callback after h
    cases h
    exact .inr ⟨List.contains_iff_mem.1 hpath, .refl⟩
  · rw [if_neg hpath]
    refine overflowsOnly_readLevel (fun inner param htakes => ?_) param
    obtain ⟨space, callback, _, _, _, _, _, hresolve, _⟩ := id htakes
    have hless := Repository.remaining_cons_lt hresolve (by simpa using hpath)
    refine (overflowsOnly_mapCallback mapper (qualified :: path) inner param).imp fun name h => ?_
    rcases h with hitself | ⟨hmem, hreach⟩
    · exact .inl hitself
    · rcases List.mem_cons.1 hmem with rfl | hmem
      · exact .inl (.head' htakes hreach)
      · exact .inr ⟨hmem, .head htakes hreach⟩
termination_by mapper.platform.repo.remaining path
decreasing_by exact hless

/-- The stack overflows only at a callback type that takes itself. -/
theorem overflowsOnly_mapParam (mapper : Mapper) (param : Param) :
    OverflowsOnly mapper.platform.repo.TakesItself (mapper.mapParam param) :=
  overflowsOnly_mapParamWith fun _ _ _ _ _ =>
    (mapper.overflowsOnly_mapCallback [] _ _).imp fun _ h =>
      h.resolve_right fun hmem => absurd hmem.1 List.not_mem_nil

/-- What is no parameter is not read further. -/
theorem overflowsOnly_map (mapper : Mapper) (hcontext : context ≠ .parameter) (type : TypeRef) :
    OverflowsOnly (fun _ => False) (mapper.map context type) :=
  overflowsOnly_mapWith fun hparameter => absurd hparameter hcontext

end Mapper

end Interop
