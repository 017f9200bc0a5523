import Interop.Call.Build
import Interop.Proofs.Mapping.Indices

/-! # Whom a parameter serves

A schema asks for a parameter as the length of an array, or as the data or the release function of
a callback. Several requests for one parameter are allowed. Of those that are not made by the
parameter itself the last one counts, in the order of the parameters that make them.
-/

namespace Interop

open Schema

/-- The last element that meets a condition is the greatest such one of an ascending list. -/
theorem find?_reverse_eq_some_iff {α : Type} {rank : α → Nat} {items : List α}
    (hascending : items.Pairwise fun a b => rank a < rank b) {p : α → Bool} {item : α} :
    items.reverse.find? p = some item ↔
      item ∈ items ∧ p item = true ∧ ∀ other ∈ items, p other = true → rank other ≤ rank item := by
  have hlast : ∀ {found}, items.reverse.find? p = some found →
      found ∈ items ∧ p found = true ∧
        ∀ other ∈ items, p other = true → other = found ∨ rank other < rank found := by
    intro found h
    obtain ⟨hp, after, before, hsplit, hafter⟩ := List.find?_eq_some_iff_append.1 h
    have hitems : items = before.reverse ++ found :: after.reverse := by
      simpa using congrArg List.reverse hsplit
    rw [hitems, List.pairwise_append] at hascending
    refine ⟨by simp [hitems], hp, fun other hother hmeets => ?_⟩
    rw [hitems, List.mem_append, List.mem_cons] at hother
    rcases hother with hbefore | rfl | hbehind
    · exact .inr (hascending.2.2 other hbefore found List.mem_cons_self)
    · exact .inl rfl
    · have hnot := hafter other (List.mem_reverse.1 hbehind)
      rw [hmeets] at hnot
      cases hnot
  constructor
  · intro h
    obtain ⟨hmem, hp, hothers⟩ := hlast h
    refine ⟨hmem, hp, fun other hother hmeets => ?_⟩
    rcases hothers other hother hmeets with rfl | hless
    · exact Nat.le_refl _
    · exact Nat.le_of_lt hless
  · rintro ⟨hmem, hp, hgreatest⟩
    cases hfind : items.reverse.find? p with
    | none => exact absurd hp (List.find?_eq_none.1 hfind item (List.mem_reverse.2 hmem))
    | some found =>
        obtain ⟨hfound, hmeets, hothers⟩ := hlast hfind
        rcases hothers item hmem hp with rfl | hless
        · rfl
        · exact absurd (hgreatest found hfound hmeets) (Nat.not_le_of_lt hless)

/-- The parameter is mapped to the descriptor, whatever has been used before. -/
def Mapper.Maps (mapper : Mapper) (param : Param) (descriptor : Descriptor) : Prop :=
  ∃ before after, mapper.mapParam param before = .ok descriptor after

namespace Companion

/-- Whom the schema asks the parameter of an index to serve. -/
inductive Asked (mapper : Mapper) (callable : Callable) : Companion → Nat → Prop
  | returned {slot : Nat} (h : callable.returns.lengthParam? = some slot) :
      Asked mapper callable (.length none) slot
  | array {index slot : Nat} {param : Param} (hparam : callable.params[index]? = some param)
      (h : param.type.lengthParam? = some slot) : Asked mapper callable (.length (some index)) slot
  | closure {index slot : Nat} {param : Param} (hparam : callable.params[index]? = some param)
      (hcallback : param.type.isCallback mapper.platform.repo mapper.space = true)
      (h : param.closureIndex = some slot) : Asked mapper callable (.closure index) slot
  | destroy {index slot : Nat} {param : Param} (hparam : callable.params[index]? = some param)
      (hcallback : param.type.isCallback mapper.platform.repo mapper.space = true)
      (h : param.destroyIndex = some slot) : Asked mapper callable (.destroy index) slot

/-- The place of a request among those of a callable: that of the result comes first, and each
parameter asks for a length, for data and for a release function in this order. -/
def order : Companion → Nat
  | length none => 0
  | length (some array) => 3 * array + 1
  | closure callback => 3 * callback + 2
  | destroy callback => 3 * callback + 3

theorem mem_request {named : Option Nat} {slot : Nat} {role given : Companion} :
    (slot, role) ∈ (named.map fun index => (index, given)).toList ↔
      role = given ∧ named = some slot := by
  cases named with
  | none => simp
  | some index => simp [and_comm, eq_comm]

theorem mem_returnServants {type : TypeRef} {slot : Nat} {role : Companion} :
    (slot, role) ∈ returnServants type ↔ role = .length none ∧ type.lengthParam? = some slot := by
  cases type with
  | plain => simp [returnServants, TypeRef.lengthParam?]
  | array => exact mem_request

theorem mem_servants {index slot : Nat} {param : Param} {descriptor : Descriptor}
    {role : Companion} :
    (slot, role) ∈ servants index param descriptor ↔
      role = .length (some index) ∧ param.type.lengthParam? = some slot ∨
        descriptor.isCallback = true ∧
          (role = .closure index ∧ param.closureIndex = some slot ∨
            role = .destroy index ∧ param.destroyIndex = some slot) := by
  unfold servants
  rw [List.mem_append]
  refine or_congr ?_ ?_
  · cases param.type with
    | plain => simp [TypeRef.lengthParam?]
    | array => exact mem_request
  · cases descriptor with
    | callback =>
        rw [List.mem_append, mem_request, mem_request]
        simp [Descriptor.isCallback]
    | _ => simp [Descriptor.isCallback]

/-- The requests of a callable are those of its schema. -/
theorem mem_requests {mapper : Mapper} {callable : Callable} {described : List Descriptor}
    (hdescribed : List.Forall₂ mapper.Maps callable.params described) {slot : Nat}
    {role : Companion} :
    (slot, role) ∈ requests callable described ↔ Asked mapper callable role slot := by
  rw [requests, List.mem_append, mem_returnServants, List.mem_flatMap]
  constructor
  · rintro (⟨rfl, hlength⟩ | ⟨⟨⟨param, descriptor⟩, index⟩, hentry, hrequest⟩)
    · exact .returned hlength
    · have hpair := List.mem_zipIdx_iff_getElem?.1 hentry
      obtain ⟨_, _, hmap⟩ := List.forall₂_zip hdescribed (List.mem_of_getElem? hpair)
      have hparam := (List.getElem?_zip_eq_some.1 hpair).1
      rcases mem_servants.1 hrequest with
        ⟨rfl, hlength⟩ | ⟨hcallback, ⟨rfl, hclosure⟩ | ⟨rfl, hdestroy⟩⟩
      · exact .array hparam hlength
      · exact .closure hparam ((Mapper.of_mapParam hmap).1 ▸ hcallback) hclosure
      · exact .destroy hparam ((Mapper.of_mapParam hmap).1 ▸ hcallback) hdestroy
  · intro hasked
    -- every parameter has a descriptor to ask with
    have hentry : ∀ {index : Nat} {param : Param}, callable.params[index]? = some param →
        ∃ descriptor, ((param, descriptor), index) ∈ (callable.params.zip described).zipIdx ∧
          descriptor.isCallback = param.type.isCallback mapper.platform.repo mapper.space := by
      intro index param hparam
      obtain ⟨descriptor, hdescriptor, _, _, hmap⟩ :=
        Steps.exists_getElem?_of_forall₂ hdescribed hparam
      have hpair := (List.getElem?_zip_eq_some (z := (param, descriptor))).2 ⟨hparam, hdescriptor⟩
      exact ⟨descriptor, List.mem_zipIdx_iff_getElem?.2 hpair, (Mapper.of_mapParam hmap).1⟩
    cases hasked with
    | returned hlength => exact .inl ⟨rfl, hlength⟩
    | array hparam hlength =>
        obtain ⟨descriptor, hmem, _⟩ := hentry hparam
        exact .inr ⟨_, hmem, mem_servants.2 (.inl ⟨rfl, hlength⟩)⟩
    | closure hparam hcallback hclosure =>
        obtain ⟨descriptor, hmem, hsame⟩ := hentry hparam
        rw [hcallback] at hsame
        exact .inr ⟨_, hmem, mem_servants.2 (.inr ⟨hsame, .inl ⟨rfl, hclosure⟩⟩)⟩
    | destroy hparam hcallback hdestroy =>
        obtain ⟨descriptor, hmem, hsame⟩ := hentry hparam
        rw [hcallback] at hsame
        exact .inr ⟨_, hmem, mem_servants.2 (.inr ⟨hsame, .inr ⟨rfl, hdestroy⟩⟩)⟩

theorem pairwise_request (named : Option Nat) (given : Companion) :
    (named.map fun index => (index, given)).toList.Pairwise fun a b => a.2.order < b.2.order := by
  cases named <;> simp

theorem order_of_mem_servants {index : Nat} {param : Param} {descriptor : Descriptor}
    {request : Nat × Companion} (h : request ∈ servants index param descriptor) :
    3 * index < request.2.order ∧ request.2.order ≤ 3 * index + 3 := by
  rcases mem_servants.1 h with ⟨hrole, _⟩ | ⟨_, ⟨hrole, _⟩ | ⟨hrole, _⟩⟩ <;>
    rw [hrole, order] <;> omega

theorem pairwise_servants (index : Nat) (param : Param) (descriptor : Descriptor) :
    (servants index param descriptor).Pairwise fun a b => a.2.order < b.2.order := by
  unfold servants
  refine List.pairwise_append.2 ⟨?_, ?_, fun request hrequest other hother => ?_⟩
  · split
    next => exact pairwise_request ..
    next => exact .nil
  · split
    next =>
      refine List.pairwise_append.2 ⟨pairwise_request .., pairwise_request .., ?_⟩
      intro request hrequest other hother
      rw [(mem_request.1 hrequest).1, (mem_request.1 hother).1]
      exact Nat.lt_succ_self _
    next => exact .nil
  · split at hrequest
    next =>
      split at hother
      next =>
        rw [(mem_request.1 hrequest).1]
        rcases List.mem_append.1 hother with hother | hother <;>
          rw [(mem_request.1 hother).1, order, order] <;> omega
      next => cases hother
    next => cases hrequest

/-- The requests of a callable are in ascending order. -/
theorem pairwise_requests (callable : Callable) (described : List Descriptor) :
    (requests callable described).Pairwise fun a b => a.2.order < b.2.order := by
  have hindices : (callable.params.zip described).zipIdx.Pairwise fun a b => a.2 < b.2 := by
    rw [← List.pairwise_map (f := Prod.snd), List.zipIdx_map_snd]
    exact List.pairwise_lt_range'
  rw [requests, List.pairwise_append, List.pairwise_flatMap]
  refine ⟨?_, ⟨fun entry _ => pairwise_servants .., ?_⟩, ?_⟩
  · unfold returnServants
    split
    next => exact pairwise_request ..
    next => exact .nil
  · refine hindices.imp fun {first second} hless request hrequest other hother => ?_
    have hfirst := order_of_mem_servants hrequest
    have hsecond := order_of_mem_servants hother
    omega
  · intro request hrequest other hother
    obtain ⟨entry, _, hmem⟩ := List.mem_flatMap.1 hother
    have hpositive := order_of_mem_servants hmem
    rw [(mem_returnServants.1 hrequest).1, order]
    omega

/-- The parameter only serves another one, or the result. -/
def Serves (mapper : Mapper) (callable : Callable) (slot : Nat) : Prop :=
  ∃ role, Asked mapper callable role slot ∧ role.master? ≠ some slot

section Find

variable {mapper : Mapper} {callable : Callable} {described : List Descriptor}
  (hdescribed : List.Forall₂ mapper.Maps callable.params described)
include hdescribed

/-- A parameter serves whoever asks for it last, itself excepted. -/
theorem find?_requests_eq_some_iff {slot : Nat} {role : Companion} :
    find? (requests callable described) slot = some role ↔
      Asked mapper callable role slot ∧ role.master? ≠ some slot ∧
        ∀ other, Asked mapper callable other slot → other.master? ≠ some slot →
          other.order ≤ role.order := by
  have hascending := pairwise_requests callable described
  rw [find?, Option.map_eq_some_iff]
  constructor
  · rintro ⟨⟨found, role⟩, hfind, rfl⟩
    obtain ⟨hmem, hmeets, hgreatest⟩ := (find?_reverse_eq_some_iff hascending).1 hfind
    obtain ⟨rfl, hmaster⟩ : found = slot ∧ role.master? ≠ some slot := by simpa using hmeets
    refine ⟨(mem_requests hdescribed).1 hmem, hmaster, fun other hasked hother => ?_⟩
    exact hgreatest (found, other) ((mem_requests hdescribed).2 hasked) (by simpa using hother)
  · rintro ⟨hasked, hmaster, hgreatest⟩
    refine ⟨(slot, role), (find?_reverse_eq_some_iff hascending).2
      ⟨(mem_requests hdescribed).2 hasked, by simpa using hmaster, ?_⟩, rfl⟩
    rintro ⟨found, other⟩ hother hmeets
    obtain ⟨rfl, hne⟩ : found = slot ∧ other.master? ≠ some slot := by simpa using hmeets
    exact hgreatest other ((mem_requests hdescribed).1 hother) hne

theorem find?_requests_eq_none_iff {slot : Nat} :
    find? (requests callable described) slot = none ↔ ¬ Serves mapper callable slot := by
  rw [find?, Option.map_eq_none_iff, List.find?_eq_none]
  constructor
  · rintro hnone ⟨role, hasked, hmaster⟩
    have hmem := List.mem_reverse.2 ((mem_requests hdescribed).2 hasked)
    exact hnone _ hmem (by simpa using hmaster)
  · rintro hnot ⟨found, role⟩ hmem hmeets
    obtain ⟨rfl, hmaster⟩ : found = slot ∧ role.master? ≠ some slot := by simpa using hmeets
    exact hnot ⟨role, (mem_requests hdescribed).1 (List.mem_reverse.1 hmem), hmaster⟩

end Find

/-- Requests that pass the check are for parameters that are there. -/
theorem lt_of_check_eq_ok {count : Nat} {requests : List (Nat × Companion)}
    (h : check count requests = .ok ()) : ∀ request ∈ requests, request.1 < count := by
  rw [check] at h
  split at h
  next => cases h
  next hnone =>
    intro request hrequest
    simpa using List.find?_eq_none.1 hnone request hrequest

end Companion

end Interop
