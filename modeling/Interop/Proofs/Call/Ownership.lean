import Interop.Proofs.Call.Stems

/-! # Who owns what a call passes

The ownership in a plan is that of the schema: at any depth a descriptor has the transfer annotation
of the type that it was mapped from. Only the instance of a method, which is never handed over, and
errors, which always are, have no type that says so.
-/

namespace Interop

open Schema

namespace CallPlan

/-- Who owns the part of a plan that some steps from a place lead to. -/
def ownership? (plan : CallPlan) (place : Place) (path : List Descriptor.Edge) :
    Option Ownership :=
  ((plan.descriptor? place).bind (Descriptor.part? path)).bind Descriptor.ownership?

/-- The part of the schema that the steps lead to says who owns the part of the plan. -/
def Annotated (plan : CallPlan) (mapper : Mapper) (callable : Callable) (place : Place)
    (path : List Descriptor.Edge) (ownership : Ownership) : Prop :=
  ∃ source, plan.StemsAt mapper callable place path source ∧ ownership = source.transfer

/-- An ownership in a plan is the transfer annotation of the type that is described there, or it
stands in the descriptor of the instance. -/
theorem annotated_or_receiver {builder : CallBuilder} {callable : Callable} {owner : Option Owner}
    {plan : CallPlan} {usage usage' : Usage}
    (h : builder.build callable owner usage = .ok plan usage') {place : Place}
    {path : List Descriptor.Edge} {ownership : Ownership}
    (hownership : plan.ownership? place path = some ownership) :
    plan.Annotated builder.mapper callable place path ownership ∨
      ∃ type ∈ owner, place = .arg 0 ∧ callable.isMethod = true ∧
        plan.args[0]? = some (CallBuilder.receiver type) ∧
        (type.descriptor.part? path).bind Descriptor.ownership? = some ownership := by
  obtain ⟨described, returned, args, hbuilt⟩ := CallBuilder.exists_built_of_build h
  obtain ⟨part, hfound, howned⟩ := Option.bind_eq_some_iff.1 hownership
  obtain ⟨top, htop, hpart⟩ := Option.bind_eq_some_iff.1 hfound
  rcases hbuilt.stemming_or_receiver htop hpart with
    ⟨source, hstems, hrenders⟩ | hnone | ⟨type, htype, hplace, hmethod, harg, rfl⟩
  · exact .inl ⟨source, hstems, hrenders.eq_transfer howned⟩
  · rw [hnone] at howned
    cases howned
  · exact .inr ⟨type, htype, hplace, hmethod, harg, by rw [hpart]; exact howned⟩

theorem eq_none_of_ownerOf? {builder : CallBuilder} {qualified : String} {type : Owner}
    (howner : builder.ownerOf? qualified = some type) {path : List Descriptor.Edge}
    {ownership : Ownership}
    (hownership : (type.descriptor.part? path).bind Descriptor.ownership? = some ownership) :
    ownership = .none := by
  obtain ⟨part, hpart, howned⟩ := Option.bind_eq_some_iff.1 hownership
  have hinstance := CallBuilder.describesInstance_of_part? howner hpart
  exact Option.some.inj (howned.symm.trans hinstance.ownership?_eq)

/-- Every ownership in the plan of a member is the transfer annotation of the type that is described
there, or that of an error. Instances stay where they are, if the builder has made their type. -/
theorem annotated_of_makes {builder : CallBuilder} {callable : Callable} {owner : Option Owner}
    {plan : CallPlan} {usage usage' : Usage} (howner : builder.Makes owner)
    (h : builder.build callable owner usage = .ok plan usage') {place : Place}
    {path : List Descriptor.Edge} {ownership : Ownership}
    (hownership : plan.ownership? place path = some ownership) :
    plan.Annotated builder.mapper callable place path ownership ∨
      place = .arg 0 ∧ callable.isMethod = true ∧ ownership = .none := by
  refine (annotated_or_receiver h hownership).imp_right ?_
  rintro ⟨type, htype, hplace, hmethod, _, howned⟩
  obtain ⟨qualified, hmade⟩ := howner type htype
  exact ⟨hplace, hmethod, eq_none_of_ownerOf? hmade howned⟩

/-- Every ownership in a plan is the transfer annotation of the type that is described there, or
that of an error. Otherwise it is the one of the instance, which stays where it is. -/
theorem annotated_of_build {builder : CallBuilder} {callable : Callable} {owner : Option Owner}
    {plan : CallPlan} {usage usage' : Usage}
    (h : builder.build callable owner usage = .ok plan usage') {place : Place}
    {path : List Descriptor.Edge} {ownership : Ownership}
    (hownership : plan.ownership? place path = some ownership) :
    plan.Annotated builder.mapper callable place path ownership ∨
      ∃ type ∈ owner, place = .arg 0 ∧ callable.isMethod = true ∧
        plan.args[0]? = some (CallBuilder.receiver type) ∧
        ∀ qualified, builder.ownerOf? qualified = some type → ownership = .none := by
  refine (annotated_or_receiver h hownership).imp_right ?_
  rintro ⟨type, htype, hplace, hmethod, harg, howned⟩
  exact ⟨type, htype, hplace, hmethod, harg, fun _ hmade => eq_none_of_ownerOf? hmade howned⟩

/-- A namespace with a callback type that takes texts, gives one back, and can fail. -/
def walking : CallBuilder where
  mapper.platform.repo := .ofSpaces [{
    name := "N"
    callbacks := [{
      name := "Visit"
      params := [
        { name := "names"
          type := ((TypeRef.named "utf8").withTransfer .full).arrayOf .terminated },
        { name := "reply"
          type := (TypeRef.named "utf8").withTransfer .full
          direction := .output }]
      throws := true }] }]
  mapper.platform.pointerSize := 8
  mapper.options := {}
  mapper.space := "N"
  library := "libn.so"

def walk : Callable where
  name := "walk"
  symbol := "n_walk"
  params := [{ name := "visit", type := .named "Visit" }]
  returns := .named "utf8"

/-- The plan of this function. -/
def walkPlan : CallPlan := (Steps.value? (walking.build walk none {})).getD default

/-- The names are handed over, but not the array that they are in. -/
theorem walk_annotated : ∃ usage,
    walking.build walk none {} = .ok walkPlan usage ∧
      walkPlan.ownership? (.arg 0) [.param 0] = some .none ∧
      walkPlan.Annotated walking.mapper walk (.arg 0) [.param 0] .none ∧
      walkPlan.ownership? (.arg 0) [.param 0, .element] = some .full ∧
      walkPlan.Annotated walking.mapper walk (.arg 0) [.param 0, .element] .full := by
  have hbuilt := Steps.eq_ok_of_isSome default
    (by decide +kernel : (Steps.value? (walking.build walk none {})).isSome = true)
  have harray : walkPlan.ownership? (.arg 0) [.param 0] = some .none := by decide +kernel
  have hname : walkPlan.ownership? (.arg 0) [.param 0, .element] = some .full := by
    decide +kernel
  refine ⟨_, hbuilt, harray, ?_, hname, ?_⟩
  · refine (annotated_of_build hbuilt harray).resolve_right ?_
    rintro ⟨_, htype, _⟩
    cases htype
  · refine (annotated_of_build hbuilt hname).resolve_right ?_
    rintro ⟨_, htype, _⟩
    cases htype

end CallPlan

end Interop
