import Interop.Proofs.Call.Grammar

/-! # Where the parts of a plan come from

What is found at a place of a plan describes a parameter or the result of the callable, or the slot
for its error, and the parts of it describe what the same steps lead to in the schema. Only the
instance of a method and what goes with a managed function stem from nothing in the signature.
-/

namespace Interop

open Schema

namespace Descriptor

variable {descriptor part : Descriptor} {path : List Edge}

/-- Nothing in user data or in a release function is owned. -/
theorem ownership?_callbackSlot {builder : CallBuilder}
    (hslot : descriptor = .ofPrimitive .pointer builder.pointerSize ∨
      descriptor = builder.destroyNotify)
    (hpart : descriptor.part? path = some part) : part.ownership? = none := by
  rcases hslot with rfl | rfl
  · rw [eq_of_part?_of_leaf (child?_pointer _) hpart]
    rfl
  · cases path with
    | nil =>
        cases hpart
        rfl
    | cons edge rest =>
        obtain ⟨child, hchild, hrest⟩ := Option.bind_eq_some_iff.1 hpart
        cases edge with
        | param index =>
            obtain rfl := List.mem_singleton.1 (List.mem_of_getElem? hchild)
            rw [eq_of_part?_of_leaf (child?_pointer _) hrest]
            rfl
        | result =>
            cases hchild
            rw [eq_of_part?_of_leaf child?_null hrest]
            rfl
        | _ => cases hchild

end Descriptor

/-- The part describes an origin, but for the numbers of the arguments it names. -/
def Renders (platform : Platform) (pointerSize : Nat) (source : Origin) (part : Descriptor) :
    Prop :=
  ∃ context original, Represents platform pointerSize context source original ∧
    (part = original ∨ ∃ offset, part = original.shift offset)

namespace Renders

variable {platform : Platform} {pointerSize : Nat} {source : Origin} {part : Descriptor}

theorem eq_transfer (h : Renders platform pointerSize source part) {ownership : Ownership}
    (hownership : part.ownership? = some ownership) : ownership = source.transfer := by
  obtain ⟨_, original, hrepresents, rfl | ⟨_, rfl⟩⟩ := h
  · exact hrepresents.eq_transfer hownership
  · rw [Descriptor.ownership?_shift] at hownership
    exact hrepresents.eq_transfer hownership

/-- An array keeps its element and its stride when the numbers of arguments are moved. -/
theorem exists_array {element : Descriptor} {ownership : Ownership} {length : ArrayLength}
    {kind : ArrayKind} {stride : Nat}
    (h : Renders platform pointerSize source (.array element ownership length kind stride)) :
    ∃ context counted, Represents platform pointerSize context source
      (.array element ownership counted kind stride) := by
  obtain ⟨context, original, hrepresents, hsame⟩ := h
  have horiginal : ∃ counted, original = .array element ownership counted kind stride := by
    rcases hsame with rfl | ⟨offset, hshift⟩
    · exact ⟨length, rfl⟩
    · cases original with
      | array _ _ counted =>
          refine ⟨counted, ?_⟩
          cases counted <;> cases hshift <;> rfl
      | _ => cases hshift
  obtain ⟨counted, rfl⟩ := horiginal
  exact ⟨context, counted, hrepresents⟩

end Renders

/-- A part of a moved descriptor describes what the same steps lead to in its origin. -/
theorem Represents.renders_part {platform : Platform} {pointerSize offset : Nat}
    {context : UseContext} {origin : Origin} {top part : Descriptor}
    (h : Represents platform pointerSize context origin top) {path : List Descriptor.Edge}
    (hpart : (top.shift offset).part? path = some part) :
    ∃ source, origin.part? platform.repo path = some source ∧
      Renders platform pointerSize source part := by
  obtain ⟨original, horiginal, hsame⟩ := Descriptor.of_part?_shift hpart
  obtain ⟨source, hsource, hrepresents⟩ := h.part horiginal
  exact ⟨source, hsource, _, original, hrepresents, hsame.imp_right fun hshift => ⟨offset, hshift⟩⟩

namespace CallPlan

/-- What the schema has at a place of a plan. -/
inductive Stems (plan : CallPlan) (space : String) (callable : Callable) : Place → Origin → Prop
  | arg {index : Nat} {param : Param} {arg : CallArg}
      (hparam : callable.params[index]? = some param)
      (harg : plan.args[index + callable.offset]? = some arg)
      (hsource : arg.source.isCallbackSlot = false) :
      Stems plan space callable (.arg (index + callable.offset)) (.ofParam space param)
  /-- The caller sees the parameter whose argument it passes. -/
  | param {index number : Nat} {param : Param} {arg : CallArg}
      (hparam : callable.params[index]? = some param)
      (harg : plan.args[index + callable.offset]? = some arg)
      (hsource : arg.source = .caller number) :
      Stems plan space callable (.param number) (.ofParam space param)
  | result : Stems plan space callable .result (.value space callable.returns)
  | error {native : Nat} {arg : CallArg} (harg : plan.args[native]? = some arg)
      (hsource : arg.source = .errorSlot) :
      Stems plan space callable (.arg native) (.slot .error)

/-- What the schema has at a place of a plan, some steps further on. -/
def StemsAt (plan : CallPlan) (mapper : Mapper) (callable : Callable) (place : Place)
    (path : List Descriptor.Edge) (source : Origin) : Prop :=
  ∃ root, plan.Stems mapper.space callable place root ∧
    root.part? mapper.platform.repo path = some source

end CallPlan

namespace CallBuilder.Built

variable {builder : CallBuilder} {callable : Callable} {owner : Option Owner}
  {described : List Descriptor} {returned : Descriptor} {args : List CallArg} {plan : CallPlan}
  {place : CallPlan.Place} {path : List Descriptor.Edge} {part : Descriptor}

/-- The part describes what the schema has there. -/
def Stemming (builder : CallBuilder) (callable : Callable) (plan : CallPlan)
    (place : CallPlan.Place) (path : List Descriptor.Edge) (part : Descriptor) : Prop :=
  ∃ source, plan.StemsAt builder.mapper callable place path source ∧
    Renders builder.mapper.platform builder.pointerSize source part

/-- What is passed for a parameter describes it, at its argument as well as where the caller sees
it, or goes with a managed function. -/
theorem stemming_param {native index number : Nat} {role : Option Companion} {param : Param}
    {descriptor : Descriptor} {arg : CallArg}
    (hnative : native = index + callable.offset) (hparam : callable.params[index]? = some param)
    (harg : plan.args[native]? = some arg) (hmaps : builder.mapper.Maps param descriptor)
    (hbuilt : arg = builder.argOf callable.offset role number param
      (descriptor.shift callable.offset))
    (hplace : place = .arg native ∨ ∃ number, place = .param number ∧ arg.source = .caller number)
    (hpart : arg.descriptor.part? path = some part) :
    Stemming builder callable plan place path part ∨ part.ownership? = none := by
  subst hnative
  rcases argOf_cases hbuilt with ⟨hsource, hdescriptor⟩ | ⟨_, hslot⟩
  · rw [hdescriptor] at hpart
    obtain ⟨_, _, hmap⟩ := hmaps
    obtain ⟨source, hfound, hrenders⟩ := (Mapper.represents_of_mapParam hmap).renders_part hpart
    refine .inl ⟨source, ⟨.ofParam builder.mapper.space param, ?_, hfound⟩, hrenders⟩
    rcases hplace with rfl | ⟨number, rfl, hcaller⟩
    · exact .arg hparam harg hsource
    · exact .param hparam harg hcaller
  · exact .inr (Descriptor.ownership?_callbackSlot hslot hpart)

theorem stemming_error {native : Nat} (harg : plan.args[native]? = some builder.errorArg)
    (hpart : builder.errorArg.descriptor.part? path = some part) :
    Stemming builder callable plan (.arg native) path part := by
  have hslot : Represents builder.mapper.platform builder.pointerSize .parameter (.slot .error)
      builder.mapper.errorSlot := Mapper.represents_errorSlot
  obtain ⟨source, hfound, hrepresents⟩ := hslot.part hpart
  exact ⟨source, ⟨_, .error harg rfl, hfound⟩, _, part, hrepresents, .inl rfl⟩

/-- A part of a plan that somebody owns describes what the schema has there, or is the instance of
the method or a part of it. -/
theorem stemming_or_receiver (h : Built builder callable owner described returned args plan)
    {top : Descriptor} (htop : plan.descriptor? place = some top)
    (hpart : top.part? path = some part) :
    Stemming builder callable plan place path part ∨ part.ownership? = none ∨
      ∃ type ∈ owner, place = .arg 0 ∧ callable.isMethod = true ∧
        plan.args[0]? = some (receiver type) ∧ top = type.descriptor := by
  cases place with
  | arg native =>
      obtain ⟨arg, harg, rfl⟩ := Option.map_eq_some_iff.1 htop
      rcases h.of_getElem? harg with ⟨hnative, hreceiver⟩ |
        ⟨index, param, descriptor, number, hnative, hparam, hmaps, hbuilt⟩ | herror
      · obtain ⟨type, htype, rfl⟩ := eq_of_mem_receivers hreceiver
        rw [Callable.offset] at hnative
        split at hnative
        next hmethod =>
          obtain rfl : native = 0 := by omega
          exact .inr (.inr ⟨type, htype, rfl, hmethod, harg, rfl⟩)
        next => cases hnative
      · exact (stemming_param hnative hparam harg hmaps hbuilt (.inl rfl) hpart).imp_right .inl
      · obtain rfl := eq_of_mem_errorArgs herror
        exact .inl (stemming_error harg hpart)
  | param number =>
      obtain ⟨shown, hshown, rfl⟩ := Option.map_eq_some_iff.1 htop
      obtain ⟨native, arg, harg, hsource, hdescriptor⟩ := h.exists_arg hshown
      obtain ⟨index, param, descriptor, _, hnative, hparam, hmaps, hbuilt⟩ :=
        h.of_caller harg hsource
      rw [hdescriptor] at hpart
      exact (stemming_param hnative hparam harg hmaps hbuilt (.inr ⟨number, rfl, hsource⟩)
        hpart).imp_right .inl
  | result =>
      cases htop
      obtain ⟨_, _, hreturned⟩ := h.returns
      rw [h.returns_eq] at hpart
      obtain ⟨source, hfound, hrenders⟩ :=
        (Mapper.represents_of_map hreturned).renders_part hpart
      exact .inl ⟨source, ⟨_, .result, hfound⟩, hrenders⟩

end CallBuilder.Built

end Interop
