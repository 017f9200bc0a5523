import Interop.Proofs.Bridge.StartValues
import Interop.Proofs.Call.Grammar
import Interop.Proofs.Mapping.Names
import Interop.Proofs.Schema.Instances

/-! # What descriptors name

Objects are wrapped by their runtime types. A record is wrapped as the type that its descriptor
names, also where it is an item of an array or lies in a slot. A descriptor is made only for what is
declared, so wherever results are described in a plan, the type that is named can have instances.
That goes for all plans of a compiled namespace.
-/

namespace Interop

open Schema

namespace Descriptor

/-- The type that the descriptor says values are wrapped as. -/
def wrapped? : Descriptor → Option String
  | boxed innerType _ _ _ | struct innerType _ _ _ _ => some innerType
  | array element _ _ _ _ => element.wrapped?
  | reference inner => inner.wrapped?
  | primitive .. | string .. | object .. | callback .. | null => none

/-- What values are wrapped as can have instances. -/
def Declared (repo : Repository) (descriptor : Descriptor) : Prop :=
  ∀ name ∈ descriptor.wrapped?, repo.HasInstances name

variable {repo : Repository} {descriptor : Descriptor}

theorem declared_of_wrapped?_eq_none (h : descriptor.wrapped? = none) :
    descriptor.Declared repo := by
  intro name hname
  rw [h] at hname
  cases hname

/-- Moving indices leaves names as they are. -/
@[simp]
theorem wrapped?_shift (offset : Nat) (descriptor : Descriptor) :
    (descriptor.shift offset).wrapped? = descriptor.wrapped? := by
  fun_induction shift offset descriptor with
  | case1 inner ih => exact ih
  | _ => rfl

@[simp]
theorem declared_shift {offset : Nat} :
    (descriptor.shift offset).Declared repo ↔ descriptor.Declared repo := by
  rw [Declared, Declared, wrapped?_shift]

@[simp]
theorem wrapped?_ofPrimitive (kind : PrimitiveKind) (pointerSize : Nat) :
    (ofPrimitive kind pointerSize).wrapped? = none := by
  rw [ofPrimitive]
  split <;> rfl

end Descriptor

namespace Mapper

variable {mapper : Mapper} {callbackStep : CallbackStep} {context : UseContext}
  {param : Option Param} {usage usage' : Usage} {descriptor : Descriptor}

/-- The step describes callback types as managed functions, which are not wrapped. -/
def Passes (callbackStep : CallbackStep) : Prop :=
  ∀ qualified param usage descriptor usage',
    callbackStep qualified param usage = .ok descriptor usage' → descriptor.wrapped? = none

theorem passes_mapCallback (mapper : Mapper) (path : List String) :
    Passes (mapper.mapCallback path) := by
  intro qualified param usage descriptor usage' h
  obtain ⟨_, _, _, _, _, _, _, _, rfl, _⟩ := of_mapCallback_eq_ok h
  rfl

theorem wrapped?_of_mapRecord_eq_ok {type : TypeRef} {qualified : String} {space : Namespace}
    {record : Record}
    (h : mapper.mapRecord context type qualified space record usage = .ok descriptor usage') :
    descriptor.wrapped? = some qualified := by
  rcases of_mapRecord_eq_ok h with ⟨_, rfl⟩ | rfl <;> rfl

theorem declared_of_mapDeclared_eq_ok (hstep : Passes callbackStep) {type : TypeRef}
    {qualified : String} {space : Namespace} {decl : Declaration}
    (hresolve : mapper.platform.repo.resolveQualified? qualified = some ⟨space, decl⟩)
    (h : mapper.mapDeclared callbackStep context param type qualified space decl usage =
      .ok descriptor usage') : descriptor.Declared mapper.platform.repo := by
  cases decl with
  | cls | interface =>
      obtain ⟨_, _, _, h⟩ := Steps.of_bind_eq_ok h
      cases h
      exact Descriptor.declared_of_wrapped?_eq_none rfl
  | record | union =>
      intro name hname
      rw [wrapped?_of_mapRecord_eq_ok h] at hname
      cases hname
      exact ⟨_, hresolve, rfl⟩
  | enum | flags =>
      cases h
      exact Descriptor.declared_of_wrapped?_eq_none (Descriptor.wrapped?_ofPrimitive _ _)
  | callback callback =>
      cases context with
      | parameter => exact Descriptor.declared_of_wrapped?_eq_none (hstep _ _ _ _ _ h)
      | field | element =>
          cases h
          exact Descriptor.declared_of_wrapped?_eq_none (Descriptor.wrapped?_ofPrimitive _ _)
      | returned => cases h

theorem declared_of_mapSingle_eq_ok (hstep : Passes callbackStep) {spelling : Spelling}
    (h : mapper.mapSingle callbackStep context param (.plain spelling) usage =
      .ok descriptor usage') : descriptor.Declared mapper.platform.repo := by
  cases hvoid : (TypeRef.plain spelling).isVoid with
  | true =>
      obtain rfl := mapSingle_of_isVoid hvoid h
      exact Descriptor.declared_of_wrapped?_eq_none rfl
  | false =>
      cases nameCase_of_mapSingle_eq_ok hvoid h with
      | string | primitive => exact Descriptor.declared_of_wrapped?_eq_none rfl
      | declared _ _ hresolve hdeclared =>
          exact declared_of_mapDeclared_eq_ok hstep hresolve hdeclared

theorem declared_of_mapWith_eq_ok (hstep : Passes callbackStep) {type : TypeRef}
    (h : mapper.mapWith callbackStep context param type usage = .ok descriptor usage') :
    descriptor.Declared mapper.platform.repo := by
  cases type with
  | plain spelling => exact declared_of_mapSingle_eq_ok hstep h
  | array spelling form element =>
      obtain ⟨_, described, _, _, rfl, hsingle, _, rfl⟩ := of_mapWith_array_eq_ok h
      have hitems : described.Declared mapper.platform.repo :=
        declared_of_mapSingle_eq_ok hstep hsingle
      exact hitems

theorem declared_of_map_eq_ok {type : TypeRef}
    (h : mapper.map context type usage = .ok descriptor usage') :
    descriptor.Declared mapper.platform.repo :=
  declared_of_mapWith_eq_ok (mapper.passes_mapCallback []) h

theorem declared_of_mapParam_eq_ok {param : Param}
    (h : mapper.mapParam param usage = .ok descriptor usage') :
    descriptor.Declared mapper.platform.repo := by
  obtain ⟨inner, _, hinner, hslot⟩ := of_mapParamWith_eq_ok h
  have hvalue := declared_of_mapWith_eq_ok (mapper.passes_mapCallback []) hinner
  rcases hslot with ⟨_, rfl⟩ | ⟨_, _, rfl⟩
  · exact hvalue
  · exact hvalue

end Mapper

/-- What the results of a call are wrapped as can have instances. -/
structure CallPlan.Declared (repo : Repository) (plan : CallPlan) : Prop where
  returns : plan.returns.Declared repo
  outputs : ∀ native ∈ plan.outputs, ∀ arg, plan.args[native]? = some arg →
    arg.descriptor.Declared repo

/-- The plans that are built lift results only as what is declared. The slot for an error is none of
them. -/
theorem CallPlan.declared_of_build {builder : CallBuilder} {callable : Callable}
    {owner : Option Owner} {plan : CallPlan} {usage usage' : Usage}
    (h : builder.build callable owner usage = .ok plan usage') :
    plan.Declared builder.mapper.platform.repo := by
  obtain ⟨described, returned, args, hbuilt⟩ := CallBuilder.exists_built_of_build h
  constructor
  case returns =>
    obtain ⟨_, _, hreturned⟩ := hbuilt.returns
    rw [hbuilt.returns_eq, Descriptor.declared_shift]
    exact Mapper.declared_of_map_eq_ok hreturned
  case outputs =>
    intro native hnative arg harg
    obtain ⟨found, hfound, hresult⟩ := CallPlan.mem_outputs_iff.1 hnative
    obtain rfl := Option.some.inj (harg.symm.trans hfound)
    rcases hbuilt.of_getElem? harg with ⟨_, hreceiver⟩ |
      ⟨_, _, _, _, _, _, ⟨_, _, hmap⟩, rfl⟩ | herror
    · obtain ⟨_, _, rfl⟩ := CallBuilder.eq_of_mem_receivers hreceiver
      cases hresult
    · obtain ⟨houtput, _⟩ := Bool.and_eq_true_iff.1 hresult
      rw [(CallBuilder.of_output_argOf houtput).2, Descriptor.declared_shift]
      exact Mapper.declared_of_mapParam_eq_ok hmap
    · rw [CallBuilder.eq_of_mem_errorArgs herror] at hresult
      cases hresult

/-! ## Compiled plans -/

namespace Compiler

variable {compiler : Compiler} {space : Namespace} {plan : CallPlan}

/-- A plan that is compiled has been built. -/
theorem declared_of_mem_callables {owner : Option Owner} {callables : List Callable}
    {report : CompileReport} (h : plan ∈ (compiler.callables space owner callables report).1) :
    plan.Declared compiler.platform.repo := by
  obtain ⟨result, hresult, hplan⟩ := List.mem_filterMap.1 h
  obtain ⟨callable, _, before, hstep⟩ := Compile.mem_mapM hresult
  obtain rfl : result = some plan := hplan
  cases hrefusal : refusal? compiler.options callable with
  | some reason =>
      simp only [hrefusal] at hstep
      have hnone : none = some plan := hstep
      cases hnone
  | none =>
      simp only [hrefusal] at hstep
      obtain ⟨_, hbuilt⟩ := Compile.orSkip_eq_some hstep
      exact CallPlan.declared_of_build hbuilt

theorem declared_of_mem_functions (h : plan ∈ (compiler.run space).bindings.functions) :
    plan.Declared compiler.platform.repo :=
  declared_of_mem_callables h

theorem CallablesOf.declared {declared : List Callable} {plans : List CallPlan}
    (h : compiler.CallablesOf space declared plans) (hplan : plan ∈ plans) :
    plan.Declared compiler.platform.repo := by
  obtain ⟨owner, report, rfl⟩ := h
  exact declared_of_mem_callables hplan

/-- The callables of a class are compiled as lists. Its operations are found among the methods. -/
theorem exists_callablesOf_of_mem_classes {cls : ClassBinding}
    (h : cls ∈ (compiler.run space).bindings.classes) :
    ∃ constructors methods functions : List Callable,
      compiler.CallablesOf space constructors cls.constructors ∧
      compiler.CallablesOf space methods cls.methods ∧
      compiler.CallablesOf space functions cls.functions ∧
      cls.asyncMethods = asyncMethods methods cls.methods := by
  rcases mem_classes h with ⟨_, _, hof⟩ | ⟨interface, _, _, rfl⟩
  · exact ⟨_, _, _, hof.constructors, hof.methods, hof.functions, hof.asyncMethods⟩
  · exact ⟨[], interface.methods, interface.functions, ⟨none, {}, rfl⟩, ⟨_, _, rfl⟩, ⟨_, _, rfl⟩,
      rfl⟩

theorem declared_of_mem_class {cls : ClassBinding}
    (hcls : cls ∈ (compiler.run space).bindings.classes)
    (h : plan ∈ cls.constructors ∨ plan ∈ cls.methods ++ cls.functions) :
    plan.Declared compiler.platform.repo := by
  obtain ⟨_, _, _, hconstructors, hmethods, hfunctions, _⟩ := exists_callablesOf_of_mem_classes hcls
  rw [List.mem_append] at h
  rcases h with h | h | h
  · exact hconstructors.declared h
  · exact hmethods.declared h
  · exact hfunctions.declared h

/-- The calls that start and finish an operation are compiled methods. -/
theorem declared_of_mem_asyncMethods {cls : ClassBinding} {operation : AsyncPlan}
    (hcls : cls ∈ (compiler.run space).bindings.classes) (h : operation ∈ cls.asyncMethods) :
    operation.start.Declared compiler.platform.repo ∧
      operation.finish.Declared compiler.platform.repo := by
  obtain ⟨_, _, _, _, hmethods, _, hoperations⟩ := exists_callablesOf_of_mem_classes hcls
  rw [hoperations] at h
  obtain ⟨pair, _, hpair⟩ := List.mem_filterMap.1 h
  simp only [Option.bind_eq_bind, Option.bind_eq_some_iff] at hpair
  obtain ⟨_, _, _, _, start, hstart, finish, hfinish, hplans⟩ := hpair
  obtain ⟨rfl, rfl, _⟩ := AsyncPlan.joins_of_ofPlans? hplans
  exact ⟨hmethods.declared (List.mem_of_find?_eq_some hstart),
    hmethods.declared (List.mem_of_find?_eq_some hfinish)⟩

theorem declared_of_mem_record {record : RecordBinding}
    (hrecord : record ∈ (compiler.run space).bindings.records)
    (h : plan ∈ record.constructors ∨ plan ∈ record.methods ++ record.functions) :
    plan.Declared compiler.platform.repo := by
  obtain ⟨_, _, hof⟩ := exists_recordOf hrecord
  rw [List.mem_append] at h
  rcases h with h | h | h
  · exact hof.constructors.declared h
  · exact hof.methods.declared h
  · exact hof.functions.declared h

end Compiler

end Interop
