import Interop.Proofs.Call.Arguments
import Interop.Proofs.Call.Moved
import Interop.Proofs.Mapping.Origins

/-! # Well-formed plans

Every descriptor in the plan of a call or of a signal is well formed: those that are mapped from
the schema because mapping makes no others, and those that a plan adds by itself because each of
them is.
-/

namespace Interop

open Schema

namespace Descriptor

variable {pointerSize : Nat}

/-! ## Descriptors that are not mapped -/

theorem child?_pointer (pointerSize : Nat) (edge : Edge) :
    (ofPrimitive .pointer pointerSize).child? edge = none := by cases edge <;> rfl

theorem child?_null (edge : Edge) : null.child? edge = none := by cases edge <;> rfl

theorem wellFormed_pointer (pointerSize : Nat) :
    (ofPrimitive .pointer pointerSize).WellFormed pointerSize :=
  .of_leaf (child?_pointer pointerSize) ⟨by decide, rfl⟩ rfl

theorem wellFormed_null (pointerSize : Nat) : null.WellFormed pointerSize :=
  .of_leaf child?_null trivial rfl

/-- A managed function is well formed if its parameters and its result are. -/
theorem WellFormed.callback {trampoline : Trampoline} {params : List Descriptor}
    {result : Descriptor} {scope : CallbackScope} {userDataIndex destroyIndex : Option Nat}
    (hparams : ∀ param ∈ params, param.WellFormed pointerSize)
    (hresult : result.WellFormed pointerSize) (hcallback : result.isCallback = false)
    (hreference : result.isReference = false) :
    (callback trampoline params result scope userDataIndex destroyIndex).WellFormed
      pointerSize := by
  refine .of_children ⟨hcallback, hreference⟩ rfl fun edge part hpart => ?_
  cases edge with
  | param index => exact hparams part (List.mem_of_getElem? hpart)
  | result =>
      cases hpart
      exact hresult
  | _ => cases hpart

end Descriptor

/-- The value is made by the runtime to go with a managed function. -/
def ArgSource.isCallbackSlot : ArgSource → Bool
  | .closureData _ | .destroyNotify _ => true
  | _ => false

namespace CallBuilder

variable {builder : CallBuilder} {owner : Option Owner}

/-- How an instance of a type is described. Nobody hands it over. -/
inductive DescribesInstance (platform : Platform) (qualified : String) : Descriptor → Prop
  | object (hooks : Option RefHooks) : DescribesInstance platform qualified (.object .none hooks)
  | boxed (library : String) (getTypeFn : Option String) :
      DescribesInstance platform qualified (.boxed qualified library .none getTypeFn)
  | struct (library : String) :
      DescribesInstance platform qualified
        (.struct qualified library (platform.typeSize qualified) false .none)

namespace DescribesInstance

variable {platform : Platform} {qualified : String} {descriptor : Descriptor}

theorem child?_eq_none (h : DescribesInstance platform qualified descriptor)
    (edge : Descriptor.Edge) : descriptor.child? edge = none := by
  cases h <;> cases edge <;> rfl

theorem wellFormed (h : DescribesInstance platform qualified descriptor) (pointerSize : Nat) :
    descriptor.WellFormed pointerSize := by
  refine .of_leaf h.child?_eq_none ?_ ?_
  · cases h <;> trivial
  · cases h <;> rfl

theorem ownership?_eq (h : DescribesInstance platform qualified descriptor) :
    descriptor.ownership? = some .none := by
  cases h <;> rfl

end DescribesInstance

theorem describesInstance_of_ownerOf? {qualified : String} {type : Owner}
    (h : builder.ownerOf? qualified = some type) :
    DescribesInstance builder.mapper.platform qualified type.descriptor := by
  obtain ⟨resolved, _, h⟩ := Option.bind_eq_some_iff.1 h
  cases hdecl : resolved.decl with
  | cls | interface =>
      rw [hdecl] at h
      cases h
      exact .object _
  | record record | union record =>
      rw [hdecl] at h
      dsimp only at h
      split at h
      next =>
        cases h
        exact .boxed ..
      next =>
        rw [Calculator.typeSize_calculator] at h
        cases h
        exact .struct _
  | enum | flags | callback =>
      rw [hdecl] at h
      cases h

/-- An instance is not made of anything else. -/
theorem describesInstance_of_part? {qualified : String} {type : Owner}
    (h : builder.ownerOf? qualified = some type) {path : List Descriptor.Edge} {part : Descriptor}
    (hpart : type.descriptor.part? path = some part) :
    DescribesInstance builder.mapper.platform qualified part := by
  have hinstance := describesInstance_of_ownerOf? h
  rwa [Descriptor.eq_of_part?_of_leaf hinstance.child?_eq_none hpart]

theorem wellFormed_destroyNotify : builder.destroyNotify.WellFormed builder.pointerSize :=
  .callback (fun _ hparam => List.mem_singleton.1 hparam ▸ Descriptor.wellFormed_pointer _)
    (Descriptor.wellFormed_null _) rfl rfl

theorem wellFormed_errorArg :
    builder.errorArg.descriptor.WellFormed builder.pointerSize := by
  have hslot : Represents builder.mapper.platform builder.pointerSize .parameter (.slot .error)
      builder.mapper.errorSlot := Mapper.represents_errorSlot
  exact hslot.wellFormed (.inl rfl)

/-- The argument of a parameter is described as the parameter is, unless it only serves a managed
function. -/
theorem argOf_cases {offset number : Nat} {role : Option Companion} {param : Param}
    {descriptor : Descriptor} {arg : CallArg}
    (h : arg = builder.argOf offset role number param descriptor) :
    arg.source.isCallbackSlot = false ∧ arg.descriptor = descriptor ∨
      arg.source.isCallbackSlot = true ∧
        (arg.descriptor = .ofPrimitive .pointer builder.pointerSize ∨
          arg.descriptor = builder.destroyNotify) := by
  subst h
  cases role with
  | none =>
      rw [argOf]
      split <;> exact .inl ⟨rfl, rfl⟩
  | some role =>
      cases role with
      | length array => cases array <;> exact .inl ⟨rfl, rfl⟩
      | closure => exact .inr ⟨rfl, .inl rfl⟩
      | destroy => exact .inr ⟨rfl, .inr rfl⟩

/-- The argument of a parameter is written to as the parameter is, and described as it. -/
theorem of_output_argOf {offset number : Nat} {role : Option Companion} {param : Param}
    {descriptor : Descriptor}
    (h : (builder.argOf offset role number param descriptor).flags.output = true) :
    param.direction.isByReference = true ∧
      (builder.argOf offset role number param descriptor).descriptor = descriptor := by
  cases role with
  | none =>
      rw [argOf] at h ⊢
      split at h
      next hdirection => exact ⟨h, by rw [if_pos hdirection]⟩
      next hdirection => exact ⟨h, by rw [if_neg hdirection]⟩
  | some role =>
      cases role with
      | length array => cases array <;> exact ⟨h, rfl⟩
      | closure | destroy => cases h

theorem wellFormed_of_maps {param : Param} {descriptor : Descriptor}
    (h : builder.mapper.Maps param descriptor) : descriptor.WellFormed builder.pointerSize := by
  obtain ⟨_, _, h⟩ := h
  exact (Mapper.represents_of_mapParam h).wellFormed (.inl rfl)

end CallBuilder

namespace CallPlan

/-- Where a plan has a descriptor. -/
inductive Place where
  /-- At a native argument. -/
  | arg (native : Nat)
  /-- At a parameter that the caller sees. -/
  | param (number : Nat)
  | result
  deriving DecidableEq, Repr

def descriptor? (plan : CallPlan) : Place → Option Descriptor
  | .arg native => plan.args[native]?.map (·.descriptor)
  | .param number => plan.params[number]?.map (·.descriptor)
  | .result => some plan.returns

end CallPlan

def SignalPlan.descriptors (plan : SignalPlan) : List Descriptor :=
  plan.handler :: plan.returns :: plan.params.map (·.descriptor)

namespace CallBuilder

variable {builder : CallBuilder}

namespace Built

variable {callable : Callable} {owner : Option Owner} {described : List Descriptor}
  {returned : Descriptor} {args : List CallArg} {plan : CallPlan}

theorem wellFormed_arg (h : Built builder callable owner described returned args plan)
    {native : Nat} {arg : CallArg} (harg : plan.args[native]? = some arg)
    (howner : arg.source = .receiver → ∀ type ∈ owner,
      type.descriptor.WellFormed builder.pointerSize) :
    arg.descriptor.WellFormed builder.pointerSize := by
  rcases h.of_getElem? harg with ⟨_, hreceiver⟩ |
    ⟨index, param, descriptor, number, rfl, hparam, hmaps, hbuilt⟩ | herror
  · obtain ⟨type, htype, rfl⟩ := eq_of_mem_receivers hreceiver
    exact howner rfl type htype
  · rcases argOf_cases hbuilt with ⟨_, hdescriptor⟩ | ⟨_, hdescriptor | hdescriptor⟩
    · rw [hdescriptor]
      exact (wellFormed_of_maps hmaps).shift _
    · rw [hdescriptor]
      exact Descriptor.wellFormed_pointer _
    · rw [hdescriptor]
      exact wellFormed_destroyNotify
  · rw [eq_of_mem_errorArgs herror]
    exact wellFormed_errorArg

/-- An argument that native code writes to is described as a slot. -/
theorem exists_inner_of_output (h : Built builder callable owner described returned args plan)
    {native : Nat} {arg : CallArg} (harg : plan.args[native]? = some arg)
    (houtput : arg.flags.output = true) :
    ∃ inner, arg.descriptor = .reference inner ∧ inner.isCallback = false := by
  rcases h.of_getElem? harg with ⟨_, hreceiver⟩ |
    ⟨index, param, descriptor, number, rfl, hparam, ⟨_, _, hmaps⟩, rfl⟩ | herror
  · obtain ⟨type, _, rfl⟩ := eq_of_mem_receivers hreceiver
    cases houtput
  · obtain ⟨hdirection, hdescriptor⟩ := of_output_argOf houtput
    obtain ⟨inner, _, _, ⟨hnot, _⟩ | ⟨_, hcallback, rfl⟩⟩ := Mapper.of_mapParamWith_eq_ok hmaps
    · rw [hdirection] at hnot
      cases hnot
    · exact ⟨_, hdescriptor, Descriptor.isCallback_shift.trans hcallback⟩
  · rw [eq_of_mem_errorArgs herror]
    exact ⟨_, rfl, rfl⟩

theorem wellFormed (h : Built builder callable owner described returned args plan)
    (howner : ∀ type ∈ owner, type.descriptor.WellFormed builder.pointerSize)
    {place : CallPlan.Place} {top : Descriptor} (htop : plan.descriptor? place = some top) :
    top.WellFormed builder.pointerSize := by
  cases place with
  | arg native =>
      obtain ⟨arg, harg, rfl⟩ := Option.map_eq_some_iff.1 htop
      exact h.wellFormed_arg harg fun _ => howner
  | param number =>
      obtain ⟨shown, hshown, rfl⟩ := Option.map_eq_some_iff.1 htop
      obtain ⟨native, arg, harg, _, hdescriptor⟩ := h.exists_arg hshown
      rw [hdescriptor]
      exact h.wellFormed_arg harg fun _ => howner
  | result =>
      cases htop
      obtain ⟨_, _, hreturned⟩ := h.returns
      rw [h.returns_eq]
      exact ((Mapper.represents_of_map hreturned).wellFormed (.inr rfl)).shift _

end Built

/-- What the plan of a signal is made of. -/
theorem of_buildSignal_eq_ok {signal : Signal} {type : Owner} {plan : SignalPlan}
    {usage usage' : Usage} (h : builder.buildSignal signal type usage = .ok plan usage') :
    ∃ described returned before behind,
      List.Forall₂ builder.mapper.Maps signal.params described ∧
      builder.mapper.map .returned signal.returns before = .ok returned behind ∧
      plan.handler = .callback .closure
        (type.descriptor :: described ++ [.ofPrimitive .pointer builder.pointerSize]) returned
        .notified (some (described.length + 1)) none ∧
      plan.params.map (·.descriptor) = described ∧ plan.returns = returned := by
  obtain ⟨described, _, hdescribed, h⟩ := Steps.of_bind_eq_ok h
  obtain ⟨returned, _, hreturned, h⟩ := Steps.of_bind_eq_ok h
  obtain ⟨_, _, _, h⟩ := Steps.of_bind_eq_ok h
  obtain ⟨_, _, _, h⟩ := Steps.of_bind_eq_ok h
  cases h
  have hmaps := Steps.forall₂_of_mapM_eq_ok hdescribed
  refine ⟨described, returned, _, _, hmaps, hreturned, rfl, ?_, rfl⟩
  calc ((signal.params.zip described).map _).map _
      = (signal.params.zip described).map Prod.snd := by
        rw [List.map_map]
        rfl
    _ = described := List.map_snd_zip (Nat.le_of_eq hmaps.length_eq.symm)

theorem wellFormed_of_buildSignal {signal : Signal} {type : Owner} {plan : SignalPlan}
    {usage usage' : Usage} (h : builder.buildSignal signal type usage = .ok plan usage')
    (howner : type.descriptor.WellFormed builder.pointerSize) {top : Descriptor}
    (htop : top ∈ plan.descriptors) : top.WellFormed builder.pointerSize := by
  obtain ⟨described, returned, _, _, hmaps, hreturned, hhandler, hparams, hreturns⟩ :=
    of_buildSignal_eq_ok h
  have hresult := Mapper.represents_of_map hreturned
  have hdescribed : ∀ descriptor ∈ described, descriptor.WellFormed builder.pointerSize := by
    intro descriptor hdescriptor
    obtain ⟨index, hindex⟩ := List.mem_iff_getElem?.1 hdescriptor
    obtain ⟨param, _, hmap⟩ := Steps.exists_getElem?_of_forall₂ hmaps.flip hindex
    exact wellFormed_of_maps hmap
  rw [SignalPlan.descriptors, hhandler, hparams, hreturns, List.mem_cons, List.mem_cons] at htop
  rcases htop with rfl | rfl | htop
  · refine .callback ?_ (hresult.wellFormed (.inr rfl)) (hresult.isCallback_eq_false (by simp))
      hresult.isReference_eq_false
    intro param hparam
    rw [List.cons_append, List.mem_cons, List.mem_append, List.mem_singleton] at hparam
    rcases hparam with rfl | hparam | rfl
    · exact howner
    · exact hdescribed param hparam
    · exact Descriptor.wellFormed_pointer _
  · exact hresult.wellFormed (.inr rfl)
  · exact hdescribed top htop

/-- The descriptor is in the plan of a call or of a signal that is declared by a type. -/
inductive Plans (builder : CallBuilder) : Option Owner → Descriptor → Prop
  | call {callable : Callable} {owner : Option Owner} {plan : CallPlan} {usage usage' : Usage}
      {top : Descriptor} (h : builder.build callable owner usage = .ok plan usage')
      (place : CallPlan.Place) (htop : plan.descriptor? place = some top) : Plans builder owner top
  | signal {signal : Signal} {type : Owner} {plan : SignalPlan} {usage usage' : Usage}
      {top : Descriptor} (h : builder.buildSignal signal type usage = .ok plan usage')
      (htop : top ∈ plan.descriptors) : Plans builder (some type) top

theorem wellFormed_of_instances {owner : Option Owner} {top : Descriptor}
    (howner : ∀ type ∈ owner, type.descriptor.WellFormed builder.pointerSize)
    (h : builder.Plans owner top) : top.WellFormed builder.pointerSize := by
  cases h with
  | call hbuild place htop =>
      obtain ⟨_, _, _, hbuilt⟩ := exists_built_of_build hbuild
      exact hbuilt.wellFormed howner htop
  | signal hbuild htop => exact wellFormed_of_buildSignal hbuild (howner _ rfl) htop

/-- Every descriptor of a plan is well formed, if the builder has made the type of the instances. -/
theorem wellFormed_of_makes {owner : Option Owner} {top : Descriptor}
    (howner : builder.Makes owner) (h : builder.Plans owner top) :
    top.WellFormed builder.pointerSize := by
  refine wellFormed_of_instances (fun type htype => ?_) h
  obtain ⟨qualified, hmade⟩ := howner type htype
  exact (describesInstance_of_ownerOf? hmade).wellFormed _

/-- Every descriptor of a plan is well formed. The descriptor of an instance is taken over as it is;
those of the builder's own types are well formed too. -/
theorem wellFormed_of_plans {owner : Option Owner} {top : Descriptor}
    (h : builder.Plans owner top) :
    top.WellFormed builder.pointerSize ∨
      ∃ type ∈ owner, ¬ type.descriptor.WellFormed builder.pointerSize ∧
        ∀ qualified, builder.ownerOf? qualified ≠ some type := by
  by_cases howner : ∀ type ∈ owner, type.descriptor.WellFormed builder.pointerSize
  · exact .inl (wellFormed_of_instances howner h)
  · right
    push Not at howner
    obtain ⟨type, htype, hnot⟩ := howner
    refine ⟨type, htype, hnot, fun qualified hqualified => ?_⟩
    have hinstance := describesInstance_of_ownerOf? hqualified
    exact hnot (hinstance.wellFormed _)

end CallBuilder

namespace CallPlan

/-- What such an instance reports. -/
def watched : Signal where
  name := "watched"
  params := [{ name := "names", type := (TypeRef.named "utf8").arrayOf .terminated },
    { name := "watcher", type := .named "Watcher" }]
  returns := .named "gboolean"

/-- The plan of this signal. -/
def watchedPlan : SignalPlan :=
  let type := (watching.ownerOf? "N.Watcher").getD default
  (Steps.value? (watching.buildSignal watched type {})).getD default

theorem watching_wellFormed : ∃ type usage usage',
    watching.ownerOf? "N.Watcher" = some type ∧
      watching.build watch (some type) {} = .ok watchPlan usage ∧
      watchPlan.returns.WellFormed 8 ∧
      watching.buildSignal watched type {} = .ok watchedPlan usage' ∧
      watchedPlan.handler.WellFormed 8 := by
  have htype : watching.ownerOf? "N.Watcher" =
      some ((watching.ownerOf? "N.Watcher").getD default) := by
    obtain ⟨type, htype⟩ := Option.isSome_iff_exists.1
      (by decide +kernel : (watching.ownerOf? "N.Watcher").isSome = true)
    rw [htype, Option.getD_some]
  obtain ⟨usage, hcall⟩ := build_watch
  rw [htype] at hcall
  have hsignal := Steps.eq_ok_of_isSome default (by decide +kernel : (Steps.value?
    (watching.buildSignal watched ((watching.ownerOf? "N.Watcher").getD default) {})).isSome = true)
  have howner : ¬ ∃ type ∈ some ((watching.ownerOf? "N.Watcher").getD default),
      ¬ type.descriptor.WellFormed watching.pointerSize ∧
        ∀ qualified, watching.ownerOf? qualified ≠ some type := by
    rintro ⟨type, hmem, _, hnot⟩
    exact hnot "N.Watcher" (htype.trans hmem)
  refine ⟨_, usage, _, htype, hcall, ?_, hsignal, ?_⟩
  · exact (CallBuilder.wellFormed_of_plans (.call hcall .result rfl)).resolve_right
      howner
  · exact (CallBuilder.wellFormed_of_plans (.signal hsignal List.mem_cons_self)).resolve_right
      howner

end CallPlan

end Interop
