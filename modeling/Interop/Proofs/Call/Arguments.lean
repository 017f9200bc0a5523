import Interop.Proofs.Call.Companions

/-! # The arguments of a plan

A plan has one native argument for each parameter of its callable, in order. What the caller passes
are the arguments of those parameters that serve no other one and do not only take a value out.
`Built` says what a plan is made of, and `Follows` what this comes to for whoever reads the plan.
-/

namespace Interop

open Schema

theorem Mapping.of_ofExcept_eq_ok {α : Type} {result : Except MappingError α}
    {usage after : Usage} {a : α} (h : ofExcept result usage = .ok a after) : result = .ok a := by
  cases result with
  | ok value =>
      cases h
      rfl
  | error error => cases h

/-- The number of the caller's value that is passed. -/
def ArgSource.caller? : ArgSource → Option Nat
  | .caller index => some index
  | _ => none

theorem ArgSource.caller?_eq_some_iff {source : ArgSource} {number : Nat} :
    source.caller? = some number ↔ source = .caller number := by
  cases source <;> simp [caller?]

/-- The value is made for an argument that only serves another one. -/
def ArgSource.isCompanion : ArgSource → Bool
  | .arrayLength _ | .returnLength | .closureData _ | .destroyNotify _ => true
  | .receiver | .caller _ | .outSlot | .errorSlot => false

/-- How many native arguments come before those of the parameters. -/
def Schema.Callable.offset (callable : Callable) : Nat := if callable.isMethod then 1 else 0

/-- Where the argument of a parameter that serves another one gets its value. -/
def Companion.source (offset : Nat) : Companion → ArgSource
  | .length (some array) => .arrayLength (array + offset)
  | .length none => .returnLength
  | .closure callback => .closureData (callback + offset)
  | .destroy callback => .destroyNotify (callback + offset)

theorem Companion.isCompanion_source (offset : Nat) (role : Companion) :
    (role.source offset).isCompanion = true := by
  cases role with
  | length array => cases array <;> rfl
  | closure | destroy => rfl

namespace CallPlan

/-- Results are listed in native order. -/
theorem pairwise_outputs (plan : CallPlan) : plan.outputs.Pairwise (· < ·) := by
  have hplaces : (plan.args.zipIdx.map (·.2)).Pairwise (· < ·) := by
    rw [List.zipIdx_map_snd]
    exact List.pairwise_lt_range'
  exact hplaces.sublist (List.filter_sublist.map _)

theorem mem_outputs_iff {plan : CallPlan} {native : Nat} :
    native ∈ plan.outputs ↔ ∃ arg, plan.args[native]? = some arg ∧ arg.isResult = true := by
  rw [outputs, List.mem_map]
  constructor
  · rintro ⟨⟨arg, native⟩, hentry, rfl⟩
    obtain ⟨hmem, hresult⟩ := List.mem_filter.1 hentry
    exact ⟨arg, List.mem_zipIdx_iff_getElem?.1 hmem, hresult⟩
  · rintro ⟨arg, harg, hresult⟩
    exact ⟨(arg, native), List.mem_filter.2 ⟨List.mem_zipIdx_iff_getElem?.2 harg, hresult⟩, rfl⟩

end CallPlan

namespace CallBuilder

/-- The type of the instances is one that the builder makes, if there are instances. -/
def Makes (builder : CallBuilder) (owner : Option Owner) : Prop :=
  ∀ type ∈ owner, ∃ qualified, builder.ownerOf? qualified = some type

variable {builder : CallBuilder} {offset number : Nat} {role : Option Companion} {param : Param}
  {descriptor : Descriptor}

@[simp]
theorem name_argOf : (builder.argOf offset role number param descriptor).name = param.name := by
  unfold argOf
  split <;> try rfl
  split <;> rfl

theorem source_argOf_of_role (role : Companion) :
    (builder.argOf offset (some role) number param descriptor).source = role.source offset := by
  cases role with
  | length array => cases array <;> rfl
  | closure | destroy => rfl

theorem source_argOf_none :
    (builder.argOf offset none number param descriptor).source =
      if param.direction = .output then .outSlot else .caller number := by
  rw [argOf]
  split <;> rfl

/-- Arguments of parameters are passed by the caller, only take a value out, or serve others. -/
theorem source_argOf_ne {source : ArgSource} (hcompanion : source.isCompanion = false)
    (houtput : source ≠ .outSlot) (hcaller : ∀ index, source ≠ .caller index) :
    (builder.argOf offset role number param descriptor).source ≠ source := by
  cases role with
  | none =>
      rw [source_argOf_none]
      split
      next => exact houtput.symm
      next => exact (hcaller number).symm
  | some role =>
      rw [source_argOf_of_role]
      rintro rfl
      rw [role.isCompanion_source] at hcompanion
      cases hcompanion

/-- Only a parameter that serves no other one is passed by the caller. -/
theorem source_argOf_eq_caller_iff {index : Nat} :
    (builder.argOf offset role number param descriptor).source = .caller index ↔
      role = none ∧ param.direction ≠ .output ∧ index = number := by
  cases role with
  | none =>
      rw [source_argOf_none]
      split <;> simp_all [eq_comm]
  | some role =>
      rw [source_argOf_of_role]
      refine iff_of_false (fun h => ?_) (by simp)
      have hcompanion := role.isCompanion_source offset
      rw [h] at hcompanion
      cases hcompanion

theorem isVisible_argOf_iff :
    (builder.argOf offset role number param descriptor).isVisible = true ↔
      ∃ index, (builder.argOf offset role number param descriptor).source = .caller index := by
  cases role with
  | none => rw [argOf]; split <;> simp [CallArg.isVisible, flagsOf]
  | some role =>
      cases role with
      | length array => cases array <;> simp [argOf, CallArg.isVisible, flagsOf]
      | closure | destroy => simp [argOf, CallArg.isVisible]

/-- Values come back out of the slots of parameters that serve no other one. -/
theorem isResult_argOf_iff :
    (builder.argOf offset role number param descriptor).isResult = true ↔
      role = none ∧ (param.direction = .output ∨ param.direction = .inout) := by
  cases role with
  | none =>
      rw [argOf]
      split <;> cases hdirection : param.direction <;>
        simp_all [CallArg.isResult, flagsOf, Direction.isByReference]
  | some role =>
      cases role with
      | length array => cases array <;> simp [argOf, CallArg.isResult]
      | closure | destroy => simp [argOf, CallArg.isResult]

/-- What an argument names is named by the descriptor of its parameter. -/
theorem slot?_of_slot?_argOf {kind : SlotKind} {index : Nat}
    (h : (builder.argOf offset role number param descriptor).descriptor.slot? kind = some index) :
    descriptor.slot? kind = some index := by
  cases role with
  | none =>
      rw [argOf] at h
      split at h <;> exact h
  | some role =>
      cases role with
      | length array => cases array <;> exact h
      | closure =>
          have hsimple := Descriptor.isSimple_ofPrimitive .pointer builder.pointerSize
          rw [argOf, Descriptor.slot?_of_isSimple kind hsimple] at h
          cases h
      | destroy => cases kind <;> cases h

theorem descriptor_argOf_of_caller {index : Nat}
    (h : (builder.argOf offset role number param descriptor).source = .caller index) :
    (builder.argOf offset role number param descriptor).descriptor = descriptor := by
  obtain ⟨rfl, houtput, _⟩ := source_argOf_eq_caller_iff.1 h
  rw [argOf, if_neg houtput]

/-- The arguments of the parameters from an index on, and what is shown of them behind the values
that the caller passes before. -/
inductive Placed (builder : CallBuilder) (offset : Nat) (role : Nat → Option Companion) :
    Nat → Nat → List (Param × Descriptor) → List CallArg → List VisibleParam → Prop
  | nil {index shown : Nat} : Placed builder offset role index shown [] [] []
  | passed {index shown : Nat} {param : Param} {descriptor : Descriptor} {arg : CallArg}
      {rest : List (Param × Descriptor)} {args : List CallArg} {params : List VisibleParam}
      (harg : arg = builder.argOf offset (role index) shown param (descriptor.shift offset))
      (hsource : arg.source.caller? = some shown)
      (hrest : Placed builder offset role (index + 1) (shown + 1) rest args params) :
      Placed builder offset role index shown ((param, descriptor) :: rest) (arg :: args)
        (visible param (descriptor.shift offset) :: params)
  | withheld {index shown : Nat} {param : Param} {descriptor : Descriptor} {arg : CallArg}
      {rest : List (Param × Descriptor)} {args : List CallArg} {params : List VisibleParam}
      (harg : arg = builder.argOf offset (role index) shown param (descriptor.shift offset))
      (hsource : arg.source.caller? = none)
      (hrest : Placed builder offset role (index + 1) shown rest args params) :
      Placed builder offset role index shown ((param, descriptor) :: rest) (arg :: args) params

theorem placed_place (builder : CallBuilder) (offset : Nat) (role : Nat → Option Companion)
    (index shown : Nat) (items : List (Param × Descriptor)) :
    Placed builder offset role index shown items (builder.place offset role index shown items).1
      (builder.place offset role index shown items).2 := by
  induction items generalizing index shown with
  | nil => exact .nil
  | cons item rest ih =>
      obtain ⟨param, descriptor⟩ := item
      rw [place]
      split
      next number hsource =>
        obtain ⟨_, _, rfl⟩ := source_argOf_eq_caller_iff.1 hsource
        exact .passed rfl (ArgSource.caller?_eq_some_iff.2 hsource) (ih ..)
      next hsource =>
        refine .withheld rfl (Option.eq_none_iff_forall_ne_some.2 fun number hcaller => ?_) (ih ..)
        exact hsource number (ArgSource.caller?_eq_some_iff.1 hcaller)

namespace Placed

variable {role : Nat → Option Companion} {index shown : Nat} {items : List (Param × Descriptor)}
  {args : List CallArg} {params : List VisibleParam}

theorem map_name (h : Placed builder offset role index shown items args params) :
    args.map (·.name) = items.map (·.1.name) := by
  induction h with
  | nil => rfl
  | passed harg _ _ ih | withheld harg _ _ ih =>
      rw [List.map_cons, List.map_cons, ih, harg, name_argOf]

theorem exists_eq_argOf (h : Placed builder offset role index shown items args params)
    {arg : CallArg} (hmem : arg ∈ args) : ∃ role number param descriptor,
      arg = builder.argOf offset role number param descriptor := by
  induction h with
  | nil => cases hmem
  | passed harg _ _ ih | withheld harg _ _ ih =>
      rcases List.mem_cons.1 hmem with rfl | hmem
      · exact ⟨_, _, _, _, harg⟩
      · exact ih hmem

/-- Every parameter has its argument in its place. -/
theorem getElem? (h : Placed builder offset role index shown items args params) {place : Nat}
    (hitem : items[place]? = some (param, descriptor)) :
    ∃ number, args[place]? = some
      (builder.argOf offset (role (index + place)) number param (descriptor.shift offset)) := by
  induction h generalizing place with
  | nil => cases hitem
  | @passed index shown _ _ _ _ _ _ harg _ _ ih
  | @withheld index shown _ _ _ _ _ _ harg _ _ ih =>
      cases place with
      | zero =>
          cases hitem
          exact ⟨shown, congrArg some harg⟩
      | succ place =>
          obtain ⟨number, hfound⟩ := ih hitem
          rw [Nat.add_assoc, Nat.add_comm 1] at hfound
          exact ⟨number, hfound⟩

/-- The caller's values are passed in order, each of them once. -/
theorem filterMap_caller? (h : Placed builder offset role index shown items args params) :
    args.filterMap (·.source.caller?) = List.range' shown params.length := by
  induction h with
  | nil => rfl
  | passed _ hsource _ ih =>
      simp only [List.filterMap_cons, hsource, ih, List.length_cons, List.range'_succ]
  | withheld _ hsource _ ih => simp only [List.filterMap_cons, hsource, ih]

/-- What is shown of a value that the caller passes is its argument. -/
theorem of_caller (h : Placed builder offset role index shown items args params) {arg : CallArg}
    (hmem : arg ∈ args) {number : Nat} (hsource : arg.source.caller? = some number) :
    ∃ place param, number = shown + place ∧ params[place]? = some param ∧
      param.name = arg.name ∧ param.descriptor = arg.descriptor := by
  induction h with
  | nil => cases hmem
  | passed harg hfirst _ ih =>
      rcases List.mem_cons.1 hmem with rfl | hmem
      · rw [hfirst, Option.some.injEq] at hsource
        rw [harg] at hfirst
        have hdescriptor := descriptor_argOf_of_caller (ArgSource.caller?_eq_some_iff.1 hfirst)
        refine ⟨0, _, hsource.symm, rfl, ?_, ?_⟩
        · rw [harg, name_argOf]
          rfl
        · rw [harg, hdescriptor]
          rfl
      · obtain ⟨place, param, rfl, hparam, hsame⟩ := ih hmem
        exact ⟨place + 1, param, by omega, hparam, hsame⟩
  | withheld _ hfirst _ ih =>
      rcases List.mem_cons.1 hmem with rfl | hmem
      · rw [hsource] at hfirst
        cases hfirst
      · exact ih hmem

end Placed

/-- The argument for the instance of a method. -/
def receivers (callable : Callable) (owner : Option Owner) : List CallArg :=
  if callable.isMethod then (owner.map receiver).toList else []

/-- The argument for the error of a callable that throws. -/
def errorArgs (builder : CallBuilder) (callable : Callable) : List CallArg :=
  if callable.throws then [builder.errorArg] else []

theorem eq_of_mem_receivers {callable : Callable} {owner : Option Owner} {arg : CallArg}
    (h : arg ∈ receivers callable owner) : ∃ type ∈ owner, arg = receiver type := by
  rw [receivers] at h
  split at h
  next =>
    obtain ⟨type, htype, rfl⟩ := Option.map_eq_some_iff.1 (Option.mem_toList.1 h)
    exact ⟨type, htype, rfl⟩
  next => cases h

theorem eq_of_mem_errorArgs {callable : Callable} {arg : CallArg}
    (h : arg ∈ builder.errorArgs callable) : arg = builder.errorArg := by
  rw [errorArgs] at h
  split at h
  next => exact List.mem_singleton.1 h
  next => cases h

theorem of_instanceOf_eq_ok {callable : Callable} {owner instanceType : Option Owner}
    (h : instanceOf callable owner = .ok instanceType) :
    instanceType.toList.map receiver = receivers callable owner ∧
      instanceType.toList.length = callable.offset := by
  rw [receivers, Callable.offset, Callable.isMethod]
  unfold instanceOf at h
  cases hkind : callable.kind with
  | method =>
      rw [hkind] at h
      cases owner with
      | none => cases h
      | some owner =>
          cases h
          exact ⟨rfl, rfl⟩
  | function | constructor =>
      rw [hkind] at h
      cases h
      exact ⟨rfl, rfl⟩

/-- What a plan is made of. -/
structure Built (builder : CallBuilder) (callable : Callable) (owner : Option Owner)
    (described : List Descriptor) (returned : Descriptor) (args : List CallArg)
    (plan : CallPlan) : Prop where
  maps : List.Forall₂ builder.mapper.Maps callable.params described
  returns : ∃ before after,
    builder.mapper.map .returned callable.returns before = .ok returned after
  /-- Only parameters that are there are asked to serve. -/
  inRange : ∀ role slot, Companion.Asked builder.mapper callable role slot →
    slot < callable.params.length
  placed : Placed builder callable.offset
    (Companion.find? (Companion.requests callable described)) 0 0
    (callable.params.zip described) args plan.params
  receivers_length : (receivers callable owner).length = callable.offset
  name_eq : plan.name = callable.name
  args_eq : plan.args = receivers callable owner ++ args ++ builder.errorArgs callable
  returns_eq : plan.returns = returned.shift callable.offset

theorem exists_built_of_build {callable : Callable} {owner : Option Owner} {plan : CallPlan}
    {usage usage' : Usage} (h : builder.build callable owner usage = .ok plan usage') :
    ∃ described returned args, Built builder callable owner described returned args plan := by
  rw [build] at h
  split at h
  next =>
    obtain ⟨_, _, hthrow, _⟩ := Steps.of_bind_eq_ok h
    cases hthrow
  next =>
    obtain ⟨instanceType, _, hinstance, h⟩ := Steps.of_bind_eq_ok h
    obtain ⟨described, _, hdescribed, h⟩ := Steps.of_bind_eq_ok h
    obtain ⟨_, _, hcheck, h⟩ := Steps.of_bind_eq_ok h
    obtain ⟨returned, _, hreturned, h⟩ := Steps.of_bind_eq_ok h
    obtain ⟨_, _, _, h⟩ := Steps.of_bind_eq_ok h
    cases h
    obtain ⟨hreceivers, hoffset⟩ := of_instanceOf_eq_ok (Mapping.of_ofExcept_eq_ok hinstance)
    have hmaps := Steps.forall₂_of_mapM_eq_ok hdescribed
    have hrange := Companion.lt_of_check_eq_ok (Mapping.of_ofExcept_eq_ok hcheck)
    rw [hoffset, hreceivers]
    exact ⟨described, returned, _, {
      maps := hmaps
      returns := ⟨_, _, hreturned⟩
      inRange := fun role slot hasked =>
        hrange (slot, role) ((Companion.mem_requests hmaps).2 hasked)
      placed := placed_place ..
      receivers_length := by rw [← hreceivers, List.length_map, hoffset]
      name_eq := rfl
      args_eq := rfl
      returns_eq := rfl }⟩

namespace Built

variable {callable : Callable} {owner : Option Owner} {described : List Descriptor}
  {returned : Descriptor} {args : List CallArg} {plan : CallPlan}

theorem map_name (h : Built builder callable owner described returned args plan) :
    args.map (·.name) = callable.params.map (·.name) := by
  have hparams := List.map_fst_zip (Nat.le_of_eq h.maps.length_eq)
  calc args.map (·.name)
      = (callable.params.zip described).map (·.1.name) := h.placed.map_name
    _ = ((callable.params.zip described).map Prod.fst).map (·.name) := by
        rw [List.map_map]
        rfl
    _ = callable.params.map (·.name) := by rw [hparams]

theorem args_length (h : Built builder callable owner described returned args plan) :
    args.length = callable.params.length := by
  simpa using congrArg List.length h.map_name

/-- The argument of a parameter stands behind that of the instance. -/
theorem getElem? (h : Built builder callable owner described returned args plan) {index : Nat}
    (hparam : callable.params[index]? = some param) :
    ∃ descriptor number, builder.mapper.Maps param descriptor ∧
      args[index]? = plan.args[index + callable.offset]? ∧
      args[index]? = some (builder.argOf callable.offset
        (Companion.find? (Companion.requests callable described) index) number param
        (descriptor.shift callable.offset)) := by
  obtain ⟨descriptor, hdescriptor, hmaps⟩ := Steps.exists_getElem?_of_forall₂ h.maps hparam
  have hitem := (List.getElem?_zip_eq_some (z := (param, descriptor))).2 ⟨hparam, hdescriptor⟩
  obtain ⟨number, harg⟩ := h.placed.getElem? hitem
  rw [Nat.zero_add] at harg
  refine ⟨descriptor, number, hmaps, ?_, harg⟩
  obtain ⟨hindex, _⟩ := List.getElem?_eq_some_iff.1 harg
  rw [h.args_eq, List.append_assoc, List.getElem?_append_right (by rw [h.receivers_length]; omega),
    h.receivers_length, Nat.add_sub_cancel, List.getElem?_append_left hindex]

/-- An argument of a plan is that for the instance, that of a parameter, or that for an error. -/
theorem of_getElem? (h : Built builder callable owner described returned args plan) {native : Nat}
    {arg : CallArg} (harg : plan.args[native]? = some arg) :
    native < callable.offset ∧ arg ∈ receivers callable owner ∨
      (∃ index param descriptor number, native = index + callable.offset ∧
        callable.params[index]? = some param ∧ builder.mapper.Maps param descriptor ∧
        arg = builder.argOf callable.offset
          (Companion.find? (Companion.requests callable described) index) number param
          (descriptor.shift callable.offset)) ∨
      arg ∈ builder.errorArgs callable := by
  rw [h.args_eq, List.append_assoc] at harg
  rcases Nat.lt_or_ge native callable.offset with hless | hge
  · rw [List.getElem?_append_left (by rwa [h.receivers_length])] at harg
    exact .inl ⟨hless, List.mem_of_getElem? harg⟩
  · right
    rw [List.getElem?_append_right (by rwa [h.receivers_length]), h.receivers_length] at harg
    rcases Nat.lt_or_ge (native - callable.offset) args.length with hless | hge
    · left
      rw [List.getElem?_append_left hless] at harg
      rw [h.args_length] at hless
      have hparam := List.getElem?_eq_getElem hless
      obtain ⟨descriptor, number, hmaps, _, hfound⟩ := h.getElem? hparam
      rw [hfound, Option.some.injEq] at harg
      exact ⟨native - callable.offset, _, descriptor, number, by omega, hparam, hmaps, harg.symm⟩
    · rw [List.getElem?_append_right hge] at harg
      exact .inr (List.mem_of_getElem? harg)

/-- Whatever the caller passes is the argument of a parameter. -/
theorem of_caller (h : Built builder callable owner described returned args plan) {native : Nat}
    {arg : CallArg} (harg : plan.args[native]? = some arg) {place : Nat}
    (hsource : arg.source = .caller place) :
    ∃ index param descriptor number, native = index + callable.offset ∧
      callable.params[index]? = some param ∧ builder.mapper.Maps param descriptor ∧
      arg = builder.argOf callable.offset
        (Companion.find? (Companion.requests callable described) index) number param
        (descriptor.shift callable.offset) := by
  rcases h.of_getElem? harg with ⟨_, hreceiver⟩ | hparam | herror
  · obtain ⟨type, _, rfl⟩ := eq_of_mem_receivers hreceiver
    cases hsource
  · exact hparam
  · rw [eq_of_mem_errorArgs herror] at hsource
    cases hsource

theorem mem_args_iff (h : Built builder callable owner described returned args plan)
    {arg : CallArg} : arg ∈ plan.args ↔
      arg ∈ receivers callable owner ∨ arg ∈ args ∨ arg ∈ builder.errorArgs callable := by
  rw [h.args_eq, List.mem_append, List.mem_append, or_assoc]

theorem filterMap_caller? (h : Built builder callable owner described returned args plan) :
    plan.args.filterMap (·.source.caller?) = List.range plan.arity := by
  have hbefore : (receivers callable owner).filterMap (·.source.caller?) = [] := by
    refine List.filterMap_eq_nil_iff.2 fun arg harg => ?_
    obtain ⟨type, _, rfl⟩ := eq_of_mem_receivers harg
    rfl
  have hbehind : (builder.errorArgs callable).filterMap (·.source.caller?) = [] := by
    refine List.filterMap_eq_nil_iff.2 fun arg harg => ?_
    rw [eq_of_mem_errorArgs harg]
    rfl
  rw [h.args_eq, List.filterMap_append, List.filterMap_append, hbefore, hbehind,
    h.placed.filterMap_caller?, List.nil_append, List.append_nil, List.range_eq_range']
  rfl

theorem mem_of_caller (h : Built builder callable owner described returned args plan)
    {arg : CallArg} (hmem : arg ∈ plan.args) {number : Nat}
    (hsource : arg.source = .caller number) : arg ∈ args := by
  rcases h.mem_args_iff.1 hmem with hreceiver | harg | herror
  · obtain ⟨type, _, rfl⟩ := eq_of_mem_receivers hreceiver
    cases hsource
  · exact harg
  · rw [eq_of_mem_errorArgs herror] at hsource
    cases hsource

theorem exists_param (h : Built builder callable owner described returned args plan)
    {arg : CallArg} (hmem : arg ∈ plan.args) {number : Nat}
    (hsource : arg.source = .caller number) :
    ∃ param, plan.params[number]? = some param ∧ param.name = arg.name ∧
      param.descriptor = arg.descriptor := by
  obtain ⟨place, param, rfl, hparam, hsame⟩ :=
    h.placed.of_caller (h.mem_of_caller hmem hsource) (ArgSource.caller?_eq_some_iff.2 hsource)
  rw [Nat.zero_add]
  exact ⟨param, hparam, hsame⟩

/-- What the caller sees of a parameter is the argument that it passes. -/
theorem exists_arg (h : Built builder callable owner described returned args plan) {number : Nat}
    {shown : VisibleParam} (hshown : plan.params[number]? = some shown) :
    ∃ (native : Nat) (arg : CallArg), plan.args[native]? = some arg ∧ arg.source = .caller number ∧
      shown.descriptor = arg.descriptor := by
  obtain ⟨hnumber, _⟩ := List.getElem?_eq_some_iff.1 hshown
  have hmem : number ∈ plan.args.filterMap (·.source.caller?) := by
    rw [h.filterMap_caller?]
    exact List.mem_range.2 hnumber
  obtain ⟨arg, hmem, hcaller⟩ := List.mem_filterMap.1 hmem
  have hsource := ArgSource.caller?_eq_some_iff.1 hcaller
  obtain ⟨found, hfound, _, hdescriptor⟩ := h.exists_param hmem hsource
  obtain rfl : shown = found := Option.some.inj (hshown.symm.trans hfound)
  obtain ⟨native, harg⟩ := List.mem_iff_getElem?.1 hmem
  exact ⟨native, arg, harg, hsource, hdescriptor⟩

theorem isVisible_iff (h : Built builder callable owner described returned args plan)
    {arg : CallArg} (hmem : arg ∈ plan.args) :
    arg.isVisible = true ↔ arg.source = .receiver ∨ ∃ number, arg.source = .caller number := by
  rcases h.mem_args_iff.1 hmem with hreceiver | harg | herror
  · obtain ⟨type, _, rfl⟩ := eq_of_mem_receivers hreceiver
    exact iff_of_true rfl (.inl rfl)
  · obtain ⟨role, number, param, descriptor, rfl⟩ := h.placed.exists_eq_argOf harg
    rw [isVisible_argOf_iff, or_iff_right (source_argOf_ne rfl (by simp) (by simp))]
  · rw [eq_of_mem_errorArgs herror]
    simp [errorArg, CallArg.isVisible]

theorem mem_outputs_iff (h : Built builder callable owner described returned args plan)
    {native : Nat} : native ∈ plan.outputs ↔
      ∃ index param, callable.params[index]? = some param ∧
        (param.direction = .output ∨ param.direction = .inout) ∧
        ¬ Companion.Serves builder.mapper callable index ∧ native = index + callable.offset := by
  rw [CallPlan.mem_outputs_iff]
  constructor
  · rintro ⟨arg, harg, hresult⟩
    rcases h.of_getElem? harg with ⟨_, hreceiver⟩ |
      ⟨index, param, descriptor, number, rfl, hparam, _, rfl⟩ | herror
    · obtain ⟨type, _, rfl⟩ := eq_of_mem_receivers hreceiver
      cases hresult
    · obtain ⟨hnone, hdirection⟩ := isResult_argOf_iff.1 hresult
      exact ⟨index, param, hparam, hdirection,
        (Companion.find?_requests_eq_none_iff h.maps).1 hnone, rfl⟩
    · rw [eq_of_mem_errorArgs herror] at hresult
      cases hresult
  · rintro ⟨index, param, hparam, hdirection, hserves, rfl⟩
    obtain ⟨descriptor, number, _, hsame, harg⟩ := h.getElem? hparam
    have hnone := (Companion.find?_requests_eq_none_iff h.maps).2 hserves
    exact ⟨_, hsame ▸ harg, isResult_argOf_iff.2 ⟨hnone, hdirection⟩⟩

end Built

end CallBuilder

namespace CallPlan

/-- The arguments of a plan follow the parameters of its callable. -/
structure Follows (plan : CallPlan) (mapper : Mapper) (callable : Callable)
    (owner : Option Owner) : Prop where
  /-- The instance of a method comes first, then an argument for each parameter under its name,
  then the slot for the error of a callable that throws. -/
  args : ∃ before args behind, plan.args = before ++ args ++ behind ∧
    before.length = callable.offset ∧
    (∀ arg ∈ before, arg.source = .receiver ∧ ∃ type ∈ owner, arg.descriptor = type.descriptor) ∧
    args.map (·.name) = callable.params.map (·.name) ∧
    (∀ arg ∈ args, arg.source ≠ .receiver ∧ arg.source ≠ .errorSlot) ∧
    behind.map (·.source) = if callable.throws then [.errorSlot] else []
  /-- The caller's values are passed in order, each of them once. -/
  callers : plan.args.filterMap (·.source.caller?) = List.range plan.arity
  /-- What is shown of such a value is its argument. -/
  params : ∀ arg ∈ plan.args, ∀ number, arg.source = .caller number →
    ∃ param, plan.params[number]? = some param ∧ param.name = arg.name ∧
      param.descriptor = arg.descriptor
  visible : ∀ arg ∈ plan.args, arg.isVisible = true ↔
    arg.source = .receiver ∨ ∃ number, arg.source = .caller number
  /-- Results are the parameters that take a value out and serve no other one. -/
  outputs : plan.outputs.Pairwise (· < ·) ∧ ∀ native, native ∈ plan.outputs ↔
    ∃ index param, callable.params[index]? = some param ∧
      (param.direction = .output ∨ param.direction = .inout) ∧
      ¬ Companion.Serves mapper callable index ∧ native = index + callable.offset

/-- Every plan follows the parameters of the callable that it is built for. -/
theorem follows_of_build {builder : CallBuilder} {callable : Callable} {owner : Option Owner}
    {plan : CallPlan} {usage usage' : Usage}
    (h : builder.build callable owner usage = .ok plan usage') :
    plan.Follows builder.mapper callable owner := by
  obtain ⟨described, returned, args, hbuilt⟩ := CallBuilder.exists_built_of_build h
  constructor
  case args =>
    refine ⟨_, args, _, hbuilt.args_eq, hbuilt.receivers_length, fun arg harg => ?_,
      hbuilt.map_name, fun arg harg => ?_, ?_⟩
    · obtain ⟨type, htype, rfl⟩ := CallBuilder.eq_of_mem_receivers harg
      exact ⟨rfl, type, htype, rfl⟩
    · obtain ⟨role, number, param, descriptor, rfl⟩ := hbuilt.placed.exists_eq_argOf harg
      exact ⟨CallBuilder.source_argOf_ne rfl (by simp) (by simp),
        CallBuilder.source_argOf_ne rfl (by simp) (by simp)⟩
    · rw [CallBuilder.errorArgs]
      split <;> rfl
  case callers => exact hbuilt.filterMap_caller?
  case params => exact fun arg hmem number => hbuilt.exists_param hmem
  case visible => exact fun arg hmem => hbuilt.isVisible_iff hmem
  case outputs => exact ⟨plan.pairwise_outputs, fun native => hbuilt.mem_outputs_iff⟩

/-- A class whose instances report to a callback. -/
def watching : CallBuilder where
  mapper.platform.repo := .ofSpaces [{
    name := "N"
    classes := [{ name := "Watcher" }]
    callbacks := [{ name := "Report", params := [{ name := "data", type := .named "gpointer" }] },
      { name := "Release", params := [{ name := "data", type := .named "gpointer" }] }] }]
  mapper.platform.pointerSize := 8
  mapper.options := {}
  mapper.space := "N"
  library := "libn.so"

/-- A method with every kind of parameter. -/
def watch : Callable where
  name := "watch"
  symbol := "n_watcher_watch"
  kind := .method
  params := [
    { name := "items", type := (TypeRef.named "gint").arrayOf (.counted 1) },
    { name := "count", type := .named "guint" },
    { name := "report", type := .named "Report", closureIndex := some 3, destroyIndex := some 4 },
    { name := "data", type := .named "gpointer" },
    { name := "release", type := .named "Release" },
    { name := "total", type := .named "gint", direction := .output },
    { name := "limit", type := .named "gint", direction := .inout },
    { name := "found", type := .named "guint", direction := .output }]
  returns := (TypeRef.named "utf8").arrayOf (.counted 7)
  throws := true

/-- The plan of this method. -/
def watchPlan : CallPlan :=
  (Steps.value? (watching.build watch (watching.ownerOf? "N.Watcher") {})).getD default

theorem build_watch : ∃ usage,
    watching.build watch (watching.ownerOf? "N.Watcher") {} = .ok watchPlan usage :=
  ⟨_, Steps.eq_ok_of_isSome default (by decide +kernel)⟩

theorem watch_follows : ∃ usage,
    watching.build watch (watching.ownerOf? "N.Watcher") {} = .ok watchPlan usage ∧
      watchPlan.args.map (·.source) = [.receiver, .caller 0, .arrayLength 1, .caller 1,
        .closureData 3, .destroyNotify 3, .outSlot, .caller 2, .returnLength, .errorSlot] ∧
      watchPlan.outputs = [6, 7] ∧
      watchPlan.Follows watching.mapper watch (watching.ownerOf? "N.Watcher") := by
  obtain ⟨usage, hbuilt⟩ := build_watch
  exact ⟨usage, hbuilt, by decide +kernel, by decide +kernel, follows_of_build hbuilt⟩

end CallPlan

end Interop
