import Interop.Proofs.Call.Indices

/-! # Slots that several parameters ask for

A callback names the slots that take its token and its release function, and an array the slot that
takes its length. The slot serves the one that names it unless a later request is for the same slot.
A request also counts if it comes from a parameter that the caller does not pass.
-/

namespace Interop

open Schema

/-- Where the slot that an argument names gets its value for it. -/
def SlotKind.source (master : Nat) : SlotKind → ArgSource
  | .length => .arrayLength master
  | .userData => .closureData master
  | .destroy => .destroyNotify master

theorem SlotKind.source_role (kind : SlotKind) (index offset : Nat) :
    (kind.role index).source offset = kind.source (index + offset) := by
  cases kind <;> rfl

theorem SlotKind.master?_role (kind : SlotKind) (index : Nat) :
    (kind.role index).master? = some index := by
  cases kind <;> rfl

namespace Companion

theorem source_injective (offset : Nat) : Function.Injective (source offset) := by
  intro role other h
  cases role with
  | length array =>
      cases other with
      | length array' => cases array <;> cases array' <;> simp_all [source]
      | _ => cases array <;> cases h
  | closure callback | destroy callback =>
      cases other with
      | length array => cases array <;> cases h
      | _ => simp_all [source]

/-- Another request for the slot comes later. -/
def Overruled (mapper : Mapper) (callable : Callable) (role : Companion) (slot : Nat) : Prop :=
  ∃ other, Asked mapper callable other slot ∧ other.master? ≠ some slot ∧ role.order < other.order

/-- Whoever asks for another parameter is served unless it is overruled. -/
theorem find?_requests_eq_some_iff_not_overruled {mapper : Mapper} {callable : Callable}
    {described : List Descriptor}
    (hdescribed : List.Forall₂ mapper.Maps callable.params described) {slot : Nat}
    {role : Companion} (hasked : Asked mapper callable role slot)
    (hother : role.master? ≠ some slot) :
    find? (requests callable described) slot = some role ↔
      ¬ Overruled mapper callable role slot := by
  rw [find?_requests_eq_some_iff hdescribed]
  constructor
  · rintro ⟨_, _, hlast⟩ ⟨other, hasked, hmaster, hless⟩
    exact Nat.not_le_of_lt hless (hlast other hasked hmaster)
  · intro hnot
    refine ⟨hasked, hother, fun other hasked hmaster => Nat.le_of_not_lt fun hless => ?_⟩
    exact hnot ⟨other, hasked, hmaster, hless⟩

end Companion

/-- The argument of a parameter gets its value as its role says. -/
theorem CallBuilder.source_argOf_eq_source_iff {builder : CallBuilder} {offset number : Nat}
    {role : Option Companion} {param : Param} {descriptor : Descriptor} {other : Companion} :
    (builder.argOf offset role number param descriptor).source = other.source offset ↔
      role = some other := by
  cases role with
  | none =>
      refine iff_of_false (fun h => ?_) (by simp)
      have hcompanion := other.isCompanion_source offset
      rw [← h, source_argOf_none] at hcompanion
      split at hcompanion <;> cases hcompanion
  | some role =>
      rw [source_argOf_of_role, (Companion.source_injective offset).eq_iff, Option.some.injEq]

namespace CallPlan

/-- The slot that an argument of the caller names serves this argument exactly if no later request
is for the slot. -/
theorem source_eq_iff_not_overruled {builder : CallBuilder} {callable : Callable}
    {owner : Option Owner} {plan : CallPlan} {usage usage' : Usage}
    (h : builder.build callable owner usage = .ok plan usage') {native number : Nat} {arg : CallArg}
    (harg : plan.args[native]? = some arg) (hcaller : arg.source = .caller number)
    {kind : SlotKind} {slot : Nat} (hslot : arg.descriptor.slot? kind = some slot)
    (hne : slot ≠ native) :
    ∃ index place other, native = index + callable.offset ∧ slot = place + callable.offset ∧
      plan.args[slot]? = some other ∧
      (other.source = kind.source native ↔
        ¬ Companion.Overruled builder.mapper callable (kind.role index) place) := by
  obtain ⟨described, returned, args, hbuilt⟩ := CallBuilder.exists_built_of_build h
  obtain ⟨index, param, descriptor, _, rfl, hparam, hmaps, rfl⟩ := hbuilt.of_caller harg hcaller
  obtain ⟨place, _, hasked, rfl⟩ := CallBuilder.Built.exists_slot? hparam hmaps hslot
  have hother : (kind.role index).master? ≠ some place := by
    rw [SlotKind.master?_role, Ne, Option.some.injEq]
    exact fun hsame => hne (hsame ▸ rfl)
  have hplace := List.getElem?_eq_getElem (hbuilt.inRange _ _ hasked)
  obtain ⟨_, _, _, hsame, hfound⟩ := hbuilt.getElem? hplace
  refine ⟨index, place, _, rfl, rfl, hsame.symm.trans hfound, ?_⟩
  rw [← SlotKind.source_role, CallBuilder.source_argOf_eq_source_iff]
  exact Companion.find?_requests_eq_some_iff_not_overruled hbuilt.maps hasked hother

theorem watch_data_eq_iff : ∃ usage arg,
    watching.build watch (watching.ownerOf? "N.Watcher") {} = .ok watchPlan usage ∧
      watchPlan.args[3]? = some arg ∧ arg.source = .caller 1 ∧
      arg.descriptor.slot? .userData = some 4 ∧
      ∃ index place other, 3 = index + watch.offset ∧ 4 = place + watch.offset ∧
        watchPlan.args[4]? = some other ∧ (other.source = .closureData 3 ↔
          ¬ Companion.Overruled watching.mapper watch (.closure index) place) := by
  obtain ⟨usage, hbuilt⟩ := build_watch
  have hnamed : watchPlan.named? (.arg 3 .userData) = some 4 := by decide +kernel
  obtain ⟨arg, harg, hslot⟩ := Option.bind_eq_some_iff.1 hnamed
  have hsource : watchPlan.args[3]?.map (·.source) = some (.caller 1) := by decide +kernel
  rw [harg, Option.map_some, Option.some.injEq] at hsource
  exact ⟨usage, arg, hbuilt, harg, hsource, hslot,
    source_eq_iff_not_overruled hbuilt harg hsource hslot (by decide)⟩

/-- A function that takes a callback with its data and its release function, where the release
function names the data too. -/
def report : Callable where
  name := "report"
  symbol := "n_report"
  params := [
    { name := "report", type := .named "Report", closureIndex := some 1, destroyIndex := some 2 },
    { name := "data", type := .named "gpointer" },
    { name := "release", type := .named "Release", closureIndex := some 1 }]

/-- The data slot of the only callback that the caller passes serves the release function, which the
caller does not pass. -/
theorem report_data_serves_release : ∃ plan usage, watching.build report none {} = .ok plan usage ∧
    plan.args.map (·.isVisible) = [true, false, false] ∧
    plan.args.map (·.descriptor.isCallback) = [true, false, true] ∧
    plan.named? (.arg 0 .userData) = some 1 ∧
    plan.args.map (·.source) = [.caller 0, .closureData 2, .destroyNotify 0] := by
  have hbuilt := Steps.eq_ok_of_isSome default
    (by decide +kernel : (Steps.value? (watching.build report none {})).isSome = true)
  exact ⟨_, _, hbuilt, by decide +kernel, by decide +kernel, by decide +kernel, by decide +kernel⟩

end CallPlan

end Interop
