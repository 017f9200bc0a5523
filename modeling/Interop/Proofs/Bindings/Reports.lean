import Mathlib.Data.List.Basic
import Mathlib.Data.List.Forall2
import Interop.Bindings.Compile

/-! # What a compilation reports

A step of a compilation adds to what has been reported and never looks at it. Over a list of items,
each item is accounted for: by what it gives, and by what is reported for it.
-/

namespace Interop

open Schema

/-- What becomes of an item: an entry, a report under its name and that of its owner, or the end of
everything, if the stack overflows at some callback type. -/
inductive Outcome {β : Type} (owner : Option String) (name : String) (Entry : β → Prop)
    (Refused : SkipReason → Prop) (Endless : String → Prop) : List β → List Remark → Prop
  | entry {value : β} (h : Entry value) : Outcome owner name Entry Refused Endless [value] []
  | skipped {reason : SkipReason} (h : Refused reason) :
      Outcome owner name Entry Refused Endless [] [.skipped ⟨owner, name, reason⟩]
  | overflow {callback : String} (h : Endless callback) :
      Outcome owner name Entry Refused Endless [] [.overflow callback]

/-- What becomes of the items of a list, one after the other. -/
inductive Accounted {α β : Type} (Gives : α → List β → List Remark → Prop) :
    List α → List β → List Remark → Prop
  | nil : Accounted Gives [] [] []
  | cons {item : α} {items : List α} {entries others : List β} {remarks left : List Remark}
      (h : Gives item entries remarks) (hrest : Accounted Gives items others left) :
      Accounted Gives (item :: items) (entries ++ others) (remarks ++ left)

namespace Outcome

variable {β γ : Type} {owner : Option String} {name : String} {Entry : β → Prop}
  {Refused : SkipReason → Prop} {Endless : String → Prop} {entries : List β}
  {remarks : List Remark}

theorem imp {Entry' : β → Prop} {Refused' : SkipReason → Prop} {Endless' : String → Prop}
    (h : Outcome owner name Entry Refused Endless entries remarks)
    (hentry : ∀ value, Entry value → Entry' value)
    (hrefused : ∀ reason, Refused reason → Refused' reason)
    (hendless : ∀ callback, Endless callback → Endless' callback) :
    Outcome owner name Entry' Refused' Endless' entries remarks := by
  cases h with
  | entry h => exact .entry (hentry _ h)
  | skipped h => exact .skipped (hrefused _ h)
  | overflow h => exact .overflow (hendless _ h)

theorem map {Entry' : γ → Prop} (f : β → γ)
    (h : Outcome owner name Entry Refused Endless entries remarks)
    (hentry : ∀ value, Entry value → Entry' (f value)) :
    Outcome owner name Entry' Refused Endless (entries.map f) remarks := by
  cases h with
  | entry h => exact .entry (hentry _ h)
  | skipped h => exact .skipped h
  | overflow h => exact .overflow h

theorem endless (h : Outcome owner name Entry Refused Endless entries remarks) {callback : String}
    (hremark : .overflow callback ∈ remarks) : Endless callback := by
  cases h with
  | entry => exact absurd hremark List.not_mem_nil
  | skipped => cases List.mem_singleton.1 hremark
  | overflow h =>
      cases List.mem_singleton.1 hremark
      exact h

/-- What becomes of an item that is neither mapped nor refused. -/
theorem exists_overflow (h : Outcome owner name Entry Refused Endless entries remarks)
    (hentry : ∀ value, ¬ Entry value) (hrefused : ∀ reason, ¬ Refused reason) :
    ∃ callback, .overflow callback ∈ remarks := by
  cases h with
  | entry h => exact absurd h (hentry _)
  | skipped h => exact absurd h (hrefused _)
  | overflow => exact ⟨_, List.mem_singleton_self _⟩

end Outcome

namespace Accounted

variable {α β : Type} {Gives : α → List β → List Remark → Prop}

theorem append {items others : List α} {entries behind : List β} {remarks left : List Remark}
    (h : Accounted Gives items entries remarks) (hothers : Accounted Gives others behind left) :
    Accounted Gives (items ++ others) (entries ++ behind) (remarks ++ left) := by
  induction h with
  | nil => exact hothers
  | cons hitem _ ih =>
      rw [List.append_assoc, List.append_assoc]
      exact .cons hitem ih

theorem exists_of_remark {items : List α} {entries : List β} {remarks : List Remark}
    (h : Accounted Gives items entries remarks) {remark : Remark} (hremark : remark ∈ remarks) :
    ∃ item ∈ items, ∃ entries left, Gives item entries left ∧ remark ∈ left := by
  induction h with
  | nil => exact absurd hremark List.not_mem_nil
  | @cons item _ _ _ _ _ hitem _ ih =>
      rcases List.mem_append.1 hremark with hremark | hremark
      · exact ⟨item, List.mem_cons_self, _, _, hitem, hremark⟩
      · obtain ⟨other, hother, hgives⟩ := ih hremark
        exact ⟨other, List.mem_cons_of_mem item hother, hgives⟩

theorem exists_of_item {items : List α} {entries : List β} {remarks : List Remark}
    (h : Accounted Gives items entries remarks) {item : α} (hitem : item ∈ items) :
    ∃ entries left, Gives item entries left ∧ left ⊆ remarks := by
  induction h with
  | nil => exact absurd hitem List.not_mem_nil
  | cons hfirst _ ih =>
      rcases List.mem_cons.1 hitem with rfl | hitem
      · exact ⟨_, _, hfirst, List.subset_append_left ..⟩
      · obtain ⟨entries, left, hgives, hsubset⟩ := ih hitem
        exact ⟨entries, left, hgives, List.Subset.trans hsubset (List.subset_append_right ..)⟩

end Accounted

namespace Mapping

variable {α : Type}

def Makes (step : Mapping α) (value : α) : Prop := ∃ usage, step {} = .ok value usage

/-- The step fails, and this is why an item is left out. -/
def Fails (step : Mapping α) (reason : SkipReason) : Prop :=
  ∃ error usage, step {} = .error (.refused error) usage ∧ reason = .unsupported error

/-- The step does not come to an end, and this is the callback type that is read without one. -/
def Overflows (step : Mapping α) (callback : String) : Prop :=
  ∃ usage, step {} = .error (.overflow callback) usage

namespace Overflows

variable {step : Mapping α} {callback : String}

theorem not_makes (h : step.Overflows callback) (value : α) : ¬ step.Makes value := by
  rintro ⟨usage, hmade⟩
  obtain ⟨_, h⟩ := h
  cases h.symm.trans hmade

theorem not_fails (h : step.Overflows callback) (reason : SkipReason) : ¬ step.Fails reason := by
  rintro ⟨error, usage, hfails, _⟩
  obtain ⟨_, h⟩ := h
  cases h.symm.trans hfails

end Overflows

end Mapping

namespace Compile

variable {α β : Type}

/-- After any report the step adds to the report, and what it gives and adds meets a condition. -/
structure Reports (step : Compile α) (P : α → List Remark → Prop) : Prop where
  after : ∀ before, ∃ remarks, (step before).2.remarks = before.remarks ++ remarks ∧
    P (step before).1 remarks

theorem Reports.imp {step : Compile α} {P Q : α → List Remark → Prop} (h : Reports step P)
    (hPQ : ∀ a remarks, P a remarks → Q a remarks) : Reports step Q := by
  refine ⟨fun before => ?_⟩
  obtain ⟨remarks, hremarks, hP⟩ := h.after before
  exact ⟨remarks, hremarks, hPQ _ _ hP⟩

theorem reports_pure {a : α} {P : α → List Remark → Prop} (h : P a []) :
    Reports (pure a) P := ⟨fun _ => ⟨[], (List.append_nil _).symm, h⟩⟩

theorem Reports.bind {step : Compile α} {next : α → Compile β} {P : α → List Remark → Prop}
    {Q : β → List Remark → Prop} (h : Reports step P)
    (hnext : ∀ a first, P a first → Reports (next a) fun b second => Q b (first ++ second)) :
    Reports (step >>= next) Q := by
  refine ⟨fun before => ?_⟩
  obtain ⟨first, hfirst, hP⟩ := h.after before
  obtain ⟨second, hsecond, hQ⟩ := (hnext _ _ hP).after (step before).2
  refine ⟨first ++ second, ?_, hQ⟩
  rw [← List.append_assoc, ← hfirst, ← hsecond]
  rfl

theorem Reports.map {step : Compile α} {P : α → List Remark → Prop}
    {Q : β → List Remark → Prop} (f : α → β) (h : Reports step P)
    (hPQ : ∀ a remarks, P a remarks → Q (f a) remarks) :
    Reports (do return f (← step)) Q := by
  refine h.bind fun a remarks hP => reports_pure ?_
  rw [List.append_nil]
  exact hPQ a remarks hP

theorem reports_skip (owner : Option String) (name : String) (reason : SkipReason) :
    Reports (skip owner name reason) fun _ remarks => remarks = [.skipped ⟨owner, name, reason⟩] :=
  ⟨fun _ => ⟨_, rfl, rfl⟩⟩

theorem reports_useSize (qualified : String) :
    Reports (useSize qualified) fun _ remarks => remarks = [] :=
  ⟨fun _ => ⟨[], (List.append_nil _).symm, rfl⟩⟩

/-- An item is mapped or reported, unless its mapping does not end. -/
theorem reports_orSkip (owner : Option String) (name : String) (step : Mapping α) :
    Reports (orSkip owner name step) fun result =>
      Outcome owner name step.Makes step.Fails step.Overflows result.toList := by
  refine ⟨fun before => ?_⟩
  rw [orSkip, Mapping.finish, EStateM.run]
  cases hstep : step {} with
  | ok value usage => exact ⟨[], (List.append_nil _).symm, .entry ⟨usage, hstep⟩⟩
  | error failure usage =>
      cases failure with
      | refused error => exact ⟨_, rfl, .skipped ⟨error, usage, hstep, rfl⟩⟩
      | overflow callback => exact ⟨_, rfl, .overflow ⟨usage, hstep⟩⟩

/-- A step for each item accounts for all of them. -/
theorem reports_mapM {γ δ : Type} {step : γ → Compile δ} (entries : δ → List β)
    {R : α → γ → Prop} {Gives : α → List β → List Remark → Prop}
    (h : ∀ item arg, R item arg →
      Reports (step arg) fun result => Gives item (entries result))
    {items : List α} {args : List γ} (hargs : List.Forall₂ R items args) :
    Reports (args.mapM step) fun results => Accounted Gives items (results.flatMap entries) := by
  induction hargs with
  | nil => exact reports_pure .nil
  | cons hfirst _ ih =>
      rw [List.mapM_cons]
      exact (h _ _ hfirst).bind fun result remarks hgives =>
        ih.map (result :: ·) fun results left hrest => .cons hgives hrest

/-- So does one that gives an entry for some of the items only. -/
theorem reports_filterMap {γ : Type} {step : γ → Compile (Option β)} {R : α → γ → Prop}
    {Gives : α → List β → List Remark → Prop}
    (h : ∀ item arg, R item arg → Reports (step arg) fun result => Gives item result.toList)
    {items : List α} {args : List γ} (hargs : List.Forall₂ R items args) :
    Reports (do return (← args.mapM step).filterMap id) (Accounted Gives items) := by
  refine (reports_mapM Option.toList h hargs).map (·.filterMap id) fun results remarks hall => ?_
  rwa [List.filterMap_eq_flatMap_toList]

end Compile

end Interop
