import Interop.Proofs.Call.Grammar
import Interop.Proofs.Call.Indices

/-! # What the handler of a signal names

A handler takes the emitting instance first, so the parameters of its signal stand one place further
behind, as those of a method do. Only a plan of a call moves what a descriptor names past the
instance: in a handler it is still counted as in the schema, and nothing asks if it is there.
-/

namespace Interop

open Schema

namespace SignalPlan

/-- The argument that is named by an argument or by the result of the handler. -/
def named? (plan : SignalPlan) (edge : Descriptor.Edge) (kind : SlotKind) : Option Nat :=
  (plan.handler.child? edge).bind (·.slot? kind)

/-- The parameter that the schema names where a handler names an argument. -/
inductive Declares (signal : Signal) : Descriptor.Edge → SlotKind → Nat → Prop
  | param {own index : Nat} {kind : SlotKind} {param : Param}
      (hparam : signal.params[own]? = some param) (h : param.slot? kind = some index) :
      Declares signal (.param (own + 1)) kind index
  | result {index : Nat} (h : signal.returns.lengthParam? = some index) :
      Declares signal .result .length index

/-- The handler takes the instance, the parameters of the signal, and its data. -/
structure Takes (plan : SignalPlan) (builder : CallBuilder) (signal : Signal) (owner : Owner) :
    Prop where
  emitter : plan.handler.child? (.param 0) = some owner.descriptor
  param : ∀ own param, signal.params[own]? = some param → ∃ descriptor,
    builder.mapper.Maps param descriptor ∧ plan.handler.child? (.param (own + 1)) = some descriptor
  /-- The handler itself counts the instance where it says which argument is its data. -/
  data : plan.handler.slot? .userData = some (signal.params.length + 1) ∧
    plan.handler.child? (.param (signal.params.length + 1)) =
      some (.ofPrimitive .pointer builder.pointerSize)
  isSome_iff : ∀ place, (plan.handler.child? (.param place)).isSome = true ↔
    place < signal.params.length + 2

variable {builder : CallBuilder} {signal : Signal} {owner : Owner} {plan : SignalPlan}
  {usage usage' : Usage}

theorem takes_of_buildSignal (h : builder.buildSignal signal owner usage = .ok plan usage') :
    plan.Takes builder signal owner := by
  obtain ⟨described, returned, _, _, hmaps, _, hhandler, _⟩ := CallBuilder.of_buildSignal_eq_ok h
  have hlength := hmaps.length_eq
  constructor
  case emitter =>
    rw [hhandler]
    rfl
  case param =>
    intro own param hparam
    obtain ⟨descriptor, hdescriptor, hmap⟩ := Steps.exists_getElem?_of_forall₂ hmaps hparam
    have hless := (List.getElem?_eq_some_iff.1 hdescriptor).1
    refine ⟨descriptor, hmap, ?_⟩
    rw [hhandler, Descriptor.child?, List.cons_append, List.getElem?_cons_succ,
      List.getElem?_append_left hless, hdescriptor]
  case data =>
    rw [hhandler, hlength]
    refine ⟨rfl, ?_⟩
    rw [Descriptor.child?, List.cons_append, List.getElem?_cons_succ, List.getElem?_concat_length]
  case isSome_iff =>
    intro place
    rw [hhandler, hlength, Descriptor.child?, isSome_getElem?]
    simp only [List.length_append, List.length_cons, List.length_nil, Nat.zero_add]

/-- What a handler names is what the schema names there, or what the descriptor of the instance
names. -/
theorem declares_or_emitter (h : builder.buildSignal signal owner usage = .ok plan usage')
    {edge : Descriptor.Edge} {kind : SlotKind} {index : Nat}
    (hnamed : plan.named? edge kind = some index) :
    Declares signal edge kind index ∨
      edge = .param 0 ∧ owner.descriptor.slot? kind = some index := by
  have htakes := takes_of_buildSignal h
  obtain ⟨top, htop, hslot⟩ := Option.bind_eq_some_iff.1 hnamed
  obtain ⟨_, _, _, _, _, hreturned, hhandler, _⟩ := CallBuilder.of_buildSignal_eq_ok h
  cases edge with
  | param place =>
      match place with
      | 0 =>
          obtain rfl : top = owner.descriptor := Option.some.inj (htop.symm.trans htakes.emitter)
          exact .inr ⟨rfl, hslot⟩
      | own + 1 =>
          cases hparam : signal.params[own]? with
          | some param =>
              obtain ⟨_, ⟨_, _, hmap⟩, hsame⟩ := htakes.param own param hparam
              obtain rfl := Option.some.inj (htop.symm.trans hsame)
              exact .inl (.param hparam ((Mapper.of_mapParam hmap).2 kind index hslot).1)
          | none =>
              -- only the data stands behind the parameters, and it names nothing
              have hless := (htakes.isSome_iff (own + 1)).1 (Option.isSome_of_eq_some htop)
              have hlength := List.getElem?_eq_none_iff.1 hparam
              obtain rfl : own = signal.params.length := by omega
              obtain rfl := Option.some.inj (htop.symm.trans htakes.data.2)
              rw [Descriptor.slot?_of_isSimple kind (Descriptor.isSimple_ofPrimitive ..)] at hslot
              cases hslot
  | result =>
      rw [hhandler] at htop
      cases htop
      obtain ⟨rfl, hlength⟩ := (Mapper.of_map_returned hreturned).2 kind index hslot
      exact .inl (.result hlength)
  | element | inner =>
      rw [hhandler] at htop
      cases htop

/-- If the builder has made the type of the emitting instances, a handler names what the schema
names there, so the argument of this parameter is the next one. -/
theorem declares_of_makes (howner : builder.Makes (some owner))
    (h : builder.buildSignal signal owner usage = .ok plan usage') {edge : Descriptor.Edge}
    {kind : SlotKind} {index : Nat} (hnamed : plan.named? edge kind = some index) :
    Declares signal edge kind index := by
  refine (declares_or_emitter h hnamed).resolve_right fun ⟨_, hslot⟩ => ?_
  obtain ⟨qualified, hmade⟩ := howner owner rfl
  rw [CallBuilder.slot?_of_ownerOf? hmade] at hslot
  cases hslot

/-- What a handler names is what the schema names there, so the argument of this parameter is the
next one. The descriptor of an instance is taken over as it is; those of the builder's own types
name nothing. -/
theorem declares_of_buildSignal (h : builder.buildSignal signal owner usage = .ok plan usage') :
    plan.Takes builder signal owner ∧
      ∀ edge kind index, plan.named? edge kind = some index →
        Declares signal edge kind index ∨
          edge = .param 0 ∧ owner.descriptor.slot? kind = some index ∧
            ∀ qualified, builder.ownerOf? qualified ≠ some owner := by
  refine ⟨takes_of_buildSignal h, fun edge kind index hnamed => ?_⟩
  refine (declares_or_emitter h hnamed).imp_right fun ⟨hedge, hslot⟩ => ?_
  refine ⟨hedge, hslot, fun qualified howner => ?_⟩
  rw [CallBuilder.slot?_of_ownerOf? howner] at hslot
  cases hslot

/-- The class whose instances emit it. -/
def watcher : Owner := (CallPlan.watching.ownerOf? "N.Watcher").getD default

/-- A signal with an array whose length comes next, and with a result whose length is nowhere. -/
def announced : Signal where
  name := "announced"
  params := [
    { name := "names", type := (TypeRef.named "utf8").arrayOf (.counted 1) },
    { name := "count", type := .named "guint" }]
  returns := (TypeRef.named "utf8").arrayOf (.counted 9)

/-- The plan of this signal. -/
def announcedPlan : SignalPlan :=
  (Steps.value? (CallPlan.watching.buildSignal announced watcher {})).getD default

theorem build_announced : ∃ usage,
    CallPlan.watching.buildSignal announced watcher {} = .ok announcedPlan usage :=
  ⟨_, Steps.eq_ok_of_isSome default (by decide +kernel)⟩

theorem announced_declares : ∃ usage,
    CallPlan.watching.buildSignal announced watcher {} = .ok announcedPlan usage ∧
      announcedPlan.Takes CallPlan.watching announced watcher ∧
      announcedPlan.named? (.param 1) .length = some 1 ∧
      Declares announced (.param 1) .length 1 := by
  obtain ⟨usage, hbuilt⟩ := build_announced
  have hnamed : announcedPlan.named? (.param 1) .length = some 1 := by decide +kernel
  obtain ⟨htakes, hnames⟩ := declares_of_buildSignal hbuilt
  refine ⟨usage, hbuilt, htakes, hnamed, (hnames _ _ _ hnamed).resolve_right ?_⟩
  rintro ⟨hedge, _⟩
  cases hedge

/-- The array names itself, although the schema names the parameter behind it as its length, and the
result names an argument that is not there. -/
theorem announced_names_itself : ∃ usage,
    CallPlan.watching.buildSignal announced watcher {} = .ok announcedPlan usage ∧
      Declares announced (.param 1) .length 1 ∧
      announcedPlan.named? (.param 1) .length = some 1 ∧
      (announcedPlan.handler.child? (.param 1)).map (·.kindName) = some "array" ∧
      (announcedPlan.handler.child? (.param 2)).map (·.kindName) = some "primitive" ∧
      Declares announced .result .length 9 ∧
      announcedPlan.named? .result .length = some 9 ∧
      (announcedPlan.handler.child? (.param 9)).isSome = false := by
  obtain ⟨usage, hbuilt⟩ := build_announced
  exact ⟨usage, hbuilt, .param rfl rfl, by decide +kernel, by decide +kernel, by decide +kernel,
    .result rfl, by decide +kernel, by decide +kernel⟩

end SignalPlan

end Interop
