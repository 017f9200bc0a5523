import Interop.Proofs.Call.Arguments
import Interop.Proofs.Call.Moved

/-! # Arguments that name others

A hidden argument names the one that it serves, and a descriptor those that it needs. The schema
names parameters for this, a plan native arguments. Each index in a plan is that of a parameter,
moved past the instance of a method, and what is found there is the argument of this parameter.
-/

namespace Interop

open Schema

/-- What a parameter does for one that names it. -/
def SlotKind.role (index : Nat) : SlotKind → Companion
  | .length => .length (some index)
  | .userData => .closure index
  | .destroy => .destroy index

namespace Companion

variable {mapper : Mapper} {callable : Callable} {role : Companion} {slot index : Nat}

theorem Asked.of_slot? {param : Param} {kind : SlotKind}
    (hparam : callable.params[index]? = some param) (h : param.slot? kind = some slot)
    (hkind : kind = .length ∨ param.type.isCallback mapper.platform.repo mapper.space = true) :
    Asked mapper callable (kind.role index) slot := by
  cases kind with
  | length => exact .array hparam h
  | userData => exact .closure hparam (hkind.resolve_left (by simp)) h
  | destroy => exact .destroy hparam (hkind.resolve_left (by simp)) h

/-- Whoever asks for a parameter is there. -/
theorem Asked.exists_master (h : Asked mapper callable role slot)
    (hmaster : role.master? = some index) : ∃ param, callable.params[index]? = some param := by
  cases h with
  | returned => cases hmaster
  | array hparam | closure hparam | destroy hparam =>
      cases hmaster
      exact ⟨_, hparam⟩

end Companion

/-- The native argument that another one serves. -/
def ArgSource.master? : ArgSource → Option Nat
  | .arrayLength array => some array
  | .closureData callback | .destroyNotify callback => some callback
  | _ => none

theorem ArgSource.master?_source (offset : Nat) (role : Companion) :
    (role.source offset).master? = role.master?.map (· + offset) := by
  cases role with
  | length array => cases array <;> rfl
  | closure | destroy => rfl

namespace CallPlan

/-- Where a plan can name a native argument. -/
inductive Site where
  /-- In the source of an argument. -/
  | source (native : Nat)
  /-- In the descriptor of an argument. -/
  | arg (native : Nat) (kind : SlotKind)
  /-- In what the caller sees of a parameter. -/
  | param (number : Nat) (kind : SlotKind)
  | result (kind : SlotKind)
  deriving DecidableEq, Repr

/-- The native argument that is named. -/
def named? (plan : CallPlan) : Site → Option Nat
  | .source native => plan.args[native]?.bind (·.source.master?)
  | .arg native kind => plan.args[native]?.bind (·.descriptor.slot? kind)
  | .param number kind => plan.params[number]?.bind (·.descriptor.slot? kind)
  | .result kind => plan.returns.slot? kind

variable (plan : CallPlan) (mapper : Mapper) (callable : Callable)

/-- The parameter that the schema names where a plan names an argument. -/
inductive Declares : Site → Nat → Prop
  /-- A parameter serves whoever asks for it. -/
  | source {slot index : Nat} {role : Companion} {arg : CallArg}
      (hasked : Companion.Asked mapper callable role slot) (hmaster : role.master? = some index)
      (harg : plan.args[slot + callable.offset]? = some arg)
      (hsource : arg.source = role.source callable.offset) :
      Declares (.source (slot + callable.offset)) index
  | arg {own index : Nat} {kind : SlotKind} {param : Param}
      (hparam : callable.params[own]? = some param) (h : param.slot? kind = some index) :
      Declares (.arg (own + callable.offset) kind) index
  /-- The caller sees the parameter whose argument it passes. -/
  | param {own number index : Nat} {kind : SlotKind} {param : Param} {arg : CallArg}
      (hparam : callable.params[own]? = some param)
      (harg : plan.args[own + callable.offset]? = some arg) (hsource : arg.source = .caller number)
      (h : param.slot? kind = some index) : Declares (.param number kind) index
  | result {index : Nat} (h : callable.returns.lengthParam? = some index) :
      Declares (.result .length) index

/-- The native argument of an index is built from the parameter of an index. -/
def BuiltAt (builder : CallBuilder) (native index : Nat) : Prop :=
  ∃ param descriptor role number, callable.params[index]? = some param ∧
    builder.mapper.Maps param descriptor ∧ plan.args[native]? = some
      (builder.argOf callable.offset role number param (descriptor.shift callable.offset))

/-- The native argument is the one of the parameter that the schema names there. -/
structure Resolves (builder : CallBuilder) (site : Site) (native : Nat) : Prop where
  isArg : native < plan.args.length
  exists_index : ∃ index, plan.Declares builder.mapper callable site index ∧
    native = index + callable.offset ∧ plan.BuiltAt callable builder native index

end CallPlan

namespace CallBuilder

/-- Instances that a builder describes name no other argument. -/
theorem slot?_of_ownerOf? {builder : CallBuilder} {qualified : String} {owner : Owner}
    (h : builder.ownerOf? qualified = some owner) (kind : SlotKind) :
    owner.descriptor.slot? kind = none := by
  obtain ⟨resolved, _, h⟩ := Option.bind_eq_some_iff.1 h
  refine Descriptor.slot?_of_isSimple kind ?_
  cases hdecl : resolved.decl with
  | cls | interface =>
      rw [hdecl] at h
      cases h
      rfl
  | record | union =>
      rw [hdecl] at h
      dsimp only at h
      split at h <;> cases h <;> rfl
  | enum | flags | callback =>
      rw [hdecl] at h
      cases h

namespace Built

variable {builder : CallBuilder} {callable : Callable} {owner : Option Owner}
  {described : List Descriptor} {returned : Descriptor} {args : List CallArg} {plan : CallPlan}
  {site : CallPlan.Site} {native index : Nat}

/-- A parameter that is named is found where its index has been moved to. -/
theorem resolves (h : Built builder callable owner described returned args plan)
    (hdeclares : plan.Declares builder.mapper callable site index)
    (hindex : index < callable.params.length) :
    plan.Resolves callable builder site (index + callable.offset) := by
  have hparam := List.getElem?_eq_getElem hindex
  obtain ⟨descriptor, number, hmaps, hsame, harg⟩ := h.getElem? hparam
  have hnative := hsame.symm.trans harg
  obtain ⟨hless, _⟩ := List.getElem?_eq_some_iff.1 hnative
  exact ⟨hless, index, hdeclares, rfl, _, descriptor, _, number, hparam, hmaps, hnative⟩

theorem resolves_source (h : Built builder callable owner described returned args plan)
    {place : Nat} (hnamed : plan.named? (.source place) = some native) :
    plan.Resolves callable builder (.source place) native := by
  obtain ⟨arg, harg, hmaster⟩ := Option.bind_eq_some_iff.1 hnamed
  rcases h.of_getElem? harg with ⟨_, hreceiver⟩ |
    ⟨slot, param, descriptor, number, rfl, hparam, _, hbuilt⟩ | herror
  · obtain ⟨type, _, rfl⟩ := eq_of_mem_receivers hreceiver
    cases hmaster
  · -- only a parameter with a role has a master
    cases hrole : Companion.find? (Companion.requests callable described) slot with
    | none =>
        rw [hbuilt, hrole, source_argOf_none] at hmaster
        split at hmaster <;> cases hmaster
    | some role =>
        have hsource : arg.source = role.source callable.offset := by
          rw [hbuilt, hrole, source_argOf_of_role]
        obtain ⟨hasked, _, _⟩ := (Companion.find?_requests_eq_some_iff h.maps).1 hrole
        rw [hsource, ArgSource.master?_source, Option.map_eq_some_iff] at hmaster
        obtain ⟨index, hmaster, rfl⟩ := hmaster
        obtain ⟨master, hmem⟩ := hasked.exists_master hmaster
        obtain ⟨hindex, _⟩ := List.getElem?_eq_some_iff.1 hmem
        exact h.resolves (.source hasked hmaster harg hsource) hindex
  · rw [eq_of_mem_errorArgs herror] at hmaster
    cases hmaster

/-- What the argument of a parameter names is what the parameter names, and asks to serve it. -/
theorem exists_slot? {own : Nat} {kind : SlotKind} {role : Option Companion} {number : Nat}
    {param : Param} {descriptor : Descriptor} (hparam : callable.params[own]? = some param)
    (hmaps : builder.mapper.Maps param descriptor)
    (hslot : (builder.argOf callable.offset role number param
      (descriptor.shift callable.offset)).descriptor.slot? kind = some native) :
    ∃ index, param.slot? kind = some index ∧
      Companion.Asked builder.mapper callable (kind.role own) index ∧
      native = index + callable.offset := by
  have hshifted := slot?_of_slot?_argOf hslot
  rw [Descriptor.slot?_shift, Option.map_eq_some_iff] at hshifted
  obtain ⟨index, hnamed, rfl⟩ := hshifted
  obtain ⟨_, _, hmap⟩ := hmaps
  obtain ⟨hdeclared, hkind⟩ := (Mapper.of_mapParam hmap).2 kind index hnamed
  exact ⟨index, hdeclared, .of_slot? hparam hdeclared hkind, rfl⟩

theorem resolves_arg (h : Built builder callable owner described returned args plan)
    {place : Nat} {kind : SlotKind} (hnamed : plan.named? (.arg place kind) = some native) :
    plan.Resolves callable builder (.arg place kind) native ∨
      ∃ type ∈ owner, place < callable.offset ∧ type.descriptor.slot? kind = some native := by
  obtain ⟨arg, harg, hslot⟩ := Option.bind_eq_some_iff.1 hnamed
  rcases h.of_getElem? harg with ⟨hplace, hreceiver⟩ |
    ⟨own, param, descriptor, number, rfl, hparam, hmaps, rfl⟩ | herror
  · obtain ⟨type, htype, rfl⟩ := eq_of_mem_receivers hreceiver
    exact .inr ⟨type, htype, hplace, hslot⟩
  · obtain ⟨index, hdeclared, hasked, rfl⟩ := exists_slot? hparam hmaps hslot
    exact .inl (h.resolves (.arg hparam hdeclared) (h.inRange _ _ hasked))
  · rw [eq_of_mem_errorArgs herror] at hslot
    cases kind <;> cases hslot

theorem resolves_param (h : Built builder callable owner described returned args plan)
    {number : Nat} {kind : SlotKind} (hnamed : plan.named? (.param number kind) = some native) :
    plan.Resolves callable builder (.param number kind) native := by
  obtain ⟨shown, hshown, hslot⟩ := Option.bind_eq_some_iff.1 hnamed
  -- the caller's values are those of the parameters that it sees
  obtain ⟨place, arg, harg, hsource, hdescriptor⟩ := h.exists_arg hshown
  obtain ⟨own, param, descriptor, _, rfl, hparam, hmaps, rfl⟩ := h.of_caller harg hsource
  rw [hdescriptor] at hslot
  obtain ⟨index, hdeclared, hasked, rfl⟩ := exists_slot? hparam hmaps hslot
  exact h.resolves (.param hparam harg hsource hdeclared) (h.inRange _ _ hasked)

theorem resolves_result (h : Built builder callable owner described returned args plan)
    {kind : SlotKind} (hnamed : plan.named? (.result kind) = some native) :
    plan.Resolves callable builder (.result kind) native := by
  rw [CallPlan.named?, h.returns_eq, Descriptor.slot?_shift, Option.map_eq_some_iff] at hnamed
  obtain ⟨index, hnamed, rfl⟩ := hnamed
  obtain ⟨_, _, hmap⟩ := h.returns
  obtain ⟨rfl, hlength⟩ := (Mapper.of_map_returned hmap).2 kind index hnamed
  exact h.resolves (.result hlength) (h.inRange _ _ (.returned hlength))

/-- What a plan names is there, unless it is what the descriptor of the instance names. -/
theorem resolves_or_receiver (h : Built builder callable owner described returned args plan)
    {site : CallPlan.Site} (hnamed : plan.named? site = some native) :
    plan.Resolves callable builder site native ∨ ∃ type ∈ owner, ∃ kind, site = .arg 0 kind ∧
      callable.isMethod = true ∧ type.descriptor.slot? kind = some native := by
  cases site with
  | source place => exact .inl (h.resolves_source hnamed)
  | param number kind => exact .inl (h.resolves_param hnamed)
  | result kind => exact .inl (h.resolves_result hnamed)
  | arg place kind =>
      refine (h.resolves_arg hnamed).imp_right ?_
      rintro ⟨type, htype, hplace, hslot⟩
      rw [Callable.offset] at hplace
      split at hplace
      next hmethod =>
        obtain rfl : place = 0 := by omega
        exact ⟨type, htype, kind, rfl, hmethod, hslot⟩
      next => cases hplace

end Built

end CallBuilder

namespace CallPlan

/-- Whatever the plan of a member names is the argument of the parameter that the schema names
there, if the builder has made the type of its instances. -/
theorem resolves_of_makes {builder : CallBuilder} {callable : Callable} {owner : Option Owner}
    {plan : CallPlan} {usage usage' : Usage} (howner : builder.Makes owner)
    (h : builder.build callable owner usage = .ok plan usage') {site : Site} {native : Nat}
    (hnamed : plan.named? site = some native) : plan.Resolves callable builder site native := by
  obtain ⟨_, _, _, hbuilt⟩ := CallBuilder.exists_built_of_build h
  refine (hbuilt.resolves_or_receiver hnamed).resolve_right ?_
  rintro ⟨type, htype, kind, _, _, hslot⟩
  obtain ⟨qualified, hmade⟩ := howner type htype
  rw [CallBuilder.slot?_of_ownerOf? hmade] at hslot
  cases hslot

/-- Whatever a plan names is the argument of the parameter that the schema names there. The
descriptor of an instance is taken over as it is; those of the builder's own types name nothing. -/
theorem resolves_of_build {builder : CallBuilder} {callable : Callable} {owner : Option Owner}
    {plan : CallPlan} {usage usage' : Usage}
    (h : builder.build callable owner usage = .ok plan usage') {site : Site} {native : Nat}
    (hnamed : plan.named? site = some native) :
    plan.Resolves callable builder site native ∨
      ∃ type ∈ owner, ∃ kind, site = .arg 0 kind ∧ callable.isMethod = true ∧
        type.descriptor.slot? kind = some native ∧
        ∀ qualified, builder.ownerOf? qualified ≠ some type := by
  obtain ⟨_, _, _, hbuilt⟩ := CallBuilder.exists_built_of_build h
  refine (hbuilt.resolves_or_receiver hnamed).imp_right ?_
  rintro ⟨type, htype, kind, hsite, hmethod, hslot⟩
  refine ⟨type, htype, kind, hsite, hmethod, hslot, fun qualified howner => ?_⟩
  rw [CallBuilder.slot?_of_ownerOf? howner] at hslot
  cases hslot

theorem watch_resolves : ∃ usage,
    watching.build watch (watching.ownerOf? "N.Watcher") {} = .ok watchPlan usage ∧
      watchPlan.named? (.arg 3 .destroy) = some 5 ∧
      watchPlan.Resolves watch watching (.arg 3 .destroy) 5 ∧
      watchPlan.named? (.result .length) = some 8 ∧
      watchPlan.Resolves watch watching (.result .length) 8 := by
  obtain ⟨usage, hbuilt⟩ := build_watch
  have hdestroy : watchPlan.named? (.arg 3 .destroy) = some 5 := by decide +kernel
  have hlength : watchPlan.named? (.result .length) = some 8 := by decide +kernel
  refine ⟨usage, hbuilt, hdestroy, ?_, hlength, ?_⟩
  · refine (resolves_of_build hbuilt hdestroy).resolve_right ?_
    rintro ⟨_, _, _, hsite, _⟩
    cases hsite
  · refine (resolves_of_build hbuilt hlength).resolve_right ?_
    rintro ⟨_, _, _, hsite, _⟩
    cases hsite

end CallPlan

end Interop
