import Mathlib.Data.List.Forall2
import Mathlib.Logic.Relation
import Interop.Lists

/-! # Steps that can fail

A sequence of steps succeeds if each of its steps does. What it does to the state is what its steps
do to it one after the other, also where it stops half way.
-/

namespace Interop

open Relation

namespace Steps

variable {ε ε' σ α β : Type}

theorem get_bind (next : σ → EStateM ε σ β) (state : σ) :
    ((get : EStateM ε σ σ) >>= next) state = next state state := rfl

/-- The value in the middle of two steps that succeed one after the other. -/
theorem of_bind_eq_ok {step : EStateM ε σ α} {next : α → EStateM ε σ β} {state after : σ} {b : β}
    (h : (step >>= next) state = .ok b after) :
    ∃ a middle, step state = .ok a middle ∧ next a middle = .ok b after := by
  cases hstep : step state with
  | ok a middle =>
      simp only [bind, EStateM.bind, hstep] at h
      exact ⟨a, middle, rfl, h⟩
  | error error middle =>
      simp only [bind, EStateM.bind, hstep] at h
      cases h

/-- Two steps fail one after the other if the first does, or the second behind it. -/
theorem of_bind_eq_error {step : EStateM ε σ α} {next : α → EStateM ε σ β} {state after : σ}
    {error : ε} (h : (step >>= next) state = .error error after) :
    step state = .error error after ∨
      ∃ a middle, step state = .ok a middle ∧ next a middle = .error error after := by
  cases hstep : step state with
  | ok a middle =>
      simp only [bind, EStateM.bind, hstep] at h
      exact .inr ⟨a, middle, rfl, h⟩
  | error error middle =>
      simp only [bind, EStateM.bind, hstep] at h
      cases h
      exact .inl rfl

theorem bind_eq_of_eq_ok {step : EStateM ε σ α} {next : α → EStateM ε σ β} {state middle : σ}
    {a : α} (h : step state = .ok a middle) : (step >>= next) state = next a middle := by
  simp only [bind, EStateM.bind, h]

theorem bind_eq_of_eq_error {step : EStateM ε σ α} {next : α → EStateM ε σ β} {state after : σ}
    {error : ε} (h : step state = .error error after) :
    (step >>= next) state = .error error after := by
  simp only [bind, EStateM.bind, h]

/-- Two steps one after the other come out alike if the first ones do, and the second ones do behind
them. -/
theorem bind_congr_of_eq {step other : EStateM ε σ α} {next next' : α → EStateM ε σ β} {state : σ}
    (h : step state = other state)
    (hnext : ∀ a middle, other state = .ok a middle → next a middle = next' a middle) :
    (step >>= next) state = (other >>= next') state := by
  cases hother : other state with
  | ok a middle =>
      rw [bind_eq_of_eq_ok (h.trans hother), bind_eq_of_eq_ok hother]
      exact hnext a middle hother
  | error error after =>
      rw [bind_eq_of_eq_error (h.trans hother), bind_eq_of_eq_error hother]

/-- A list of steps that succeeds gives what each of its steps gives. -/
theorem forall₂_of_mapM_eq_ok {step : α → EStateM ε σ β} {items : List α} {results : List β}
    {state after : σ} (h : items.mapM step state = .ok results after) :
    List.Forall₂ (fun item result => ∃ before behind, step item before = .ok result behind)
      items results := by
  induction items generalizing results state with
  | nil =>
      cases h
      exact .nil
  | cons item rest ih =>
      rw [List.mapM_cons] at h
      obtain ⟨first, middle, hfirst, h⟩ := of_bind_eq_ok h
      obtain ⟨others, last, hothers, h⟩ := of_bind_eq_ok h
      cases h
      exact .cons ⟨state, middle, hfirst⟩ (ih hothers)

/-- Related lists have related elements at every place. -/
theorem exists_getElem?_of_forall₂ {R : α → β → Prop} {left : List α} {right : List β}
    (h : List.Forall₂ R left right) {index : Nat} {a : α} (ha : left[index]? = some a) :
    ∃ b, right[index]? = some b ∧ R a b := by
  induction h generalizing index with
  | nil => cases ha
  | @cons first other left right hfirst _ ih =>
      cases index with
      | zero =>
          cases ha
          exact ⟨other, rfl, hfirst⟩
      | succ index => exact ih ha

/-- The state in which a step ends, whether it succeeds or fails. -/
def ending : EStateM.Result ε σ α → σ
  | .ok _ state | .error _ state => state

/-- What a step gives, if it succeeds. -/
def value? : EStateM.Result ε σ α → Option α
  | .ok value _ => some value
  | .error .. => none

theorem eq_ok_of_isSome {result : EStateM.Result ε σ α} (fallback : α)
    (h : (value? result).isSome = true) :
    result = .ok ((value? result).getD fallback) (ending result) := by
  cases result with
  | ok value state => rfl
  | error error state => cases h

/-- The error that a step ends with, if it fails. -/
def failure? : EStateM.Result ε σ α → Option ε
  | .ok .. => none
  | .error error _ => some error

theorem eq_error_of_failure? {result : EStateM.Result ε σ α} {error : ε}
    (h : failure? result = some error) : result = .error error (ending result) := by
  cases result with
  | ok value state => cases h
  | error error' state =>
      cases h
      rfl

/-- The step leads from any state along transitions of a relation. -/
def Within (R : σ → σ → Prop) (step : EStateM ε σ α) : Prop :=
  ∀ state, ReflTransGen R state (ending (step state))

variable {R : σ → σ → Prop} {step : EStateM ε σ α}

theorem Within.of_eq_ok (h : Within R step) {state after : σ} {a : α}
    (hok : step state = .ok a after) : ReflTransGen R state after := by
  have hends := h state
  rwa [hok] at hends

theorem Within.mono {S : σ → σ → Prop} (h : Within R step)
    (hle : ∀ state after, R state after → S state after) : Within S step :=
  fun state => ReflTransGen.mono hle _ _ (h state)

theorem same_of_run (view : σ → α) {state after : σ}
    (h : ReflTransGen (fun before behind => view behind = view before) state after) :
    view after = view state := by
  induction h with
  | refl => rfl
  | tail _ hstep ih => exact hstep.trans ih

theorem within_pure (a : α) : Within R (pure a : EStateM ε σ α) := fun _ => .refl

theorem within_throw (error : ε) : Within R (throw error : EStateM ε σ α) := fun _ => .refl

theorem within_throw_bind (error : ε) (next : α → EStateM ε σ β) :
    Within R ((throw error : EStateM ε σ α) >>= next) := fun _ => .refl

theorem within_get : Within R (get : EStateM ε σ σ) := fun _ => .refl

theorem within_ofExcept (result : Except ε α) :
    Within R (MonadExcept.ofExcept result : EStateM ε σ α) := by
  cases result with
  | ok a => exact within_pure a
  | error error => exact within_throw error

theorem Within.bind {next : α → EStateM ε σ β} (h : Within R step)
    (hnext : ∀ a, Within R (next a)) : Within R (step >>= next) := by
  intro state
  have hfirst := h state
  cases hstep : step state with
  | ok a middle =>
      rw [hstep] at hfirst
      simp only [Bind.bind, EStateM.bind, hstep]
      exact hfirst.trans (hnext a middle)
  | error error middle =>
      rw [hstep] at hfirst
      simp only [Bind.bind, EStateM.bind, hstep]
      exact hfirst

/-- What comes behind a step leads on from where the step ends. -/
theorem runs_behind {next : α → EStateM ε σ β} (hnext : ∀ a, Within R (next a)) (state : σ) :
    ReflTransGen R (ending (step state)) (ending ((step >>= next) state)) := by
  cases hstep : step state with
  | ok a middle =>
      rw [bind_eq_of_eq_ok hstep]
      exact hnext a middle
  | error error middle =>
      rw [bind_eq_of_eq_error hstep]
      exact .refl

theorem Within.forM_of_mem {step : α → EStateM ε σ PUnit} {items : List α}
    (h : ∀ item ∈ items, Within R (step item)) : Within R (items.forM step) := by
  induction items with
  | nil => exact within_pure _
  | cons item rest ih =>
      exact (h item List.mem_cons_self).bind fun _ =>
        ih fun other hother => h other (List.mem_cons_of_mem item hother)

theorem Within.forM {step : α → EStateM ε σ PUnit} (h : ∀ item, Within R (step item))
    (items : List α) : Within R (items.forM step) :=
  .forM_of_mem fun item _ => h item

theorem forM_congr_of_mem {step other : α → EStateM ε σ PUnit} {items : List α}
    (h : ∀ item ∈ items, step item = other item) : items.forM step = items.forM other := by
  induction items with
  | nil => rfl
  | cons item rest ih =>
      change (step item >>= fun _ => rest.forM step) = other item >>= fun _ => rest.forM other
      rw [h item List.mem_cons_self,
        ih fun other hother => h other (List.mem_cons_of_mem item hother)]

/-- A list of steps that succeeds takes each of them, some way behind its beginning and some way
before its end. -/
theorem exists_of_forM_eq_ok {step : α → EStateM ε σ PUnit} {items : List α} {state after : σ}
    {u : PUnit} (hsteps : ∀ item ∈ items, Within R (step item))
    (h : items.forM step state = .ok u after) {item : α} (hitem : item ∈ items) :
    ∃ before behind, ReflTransGen R state before ∧ step item before = .ok ⟨⟩ behind ∧
      ReflTransGen R behind after := by
  induction items generalizing state with
  | nil => cases hitem
  | cons first rest ih =>
      have hboth : (step first >>= fun _ => rest.forM step) state = .ok u after := h
      obtain ⟨_, middle, hfirst, hrest⟩ := of_bind_eq_ok hboth
      have hsteps' : ∀ item ∈ rest, Within R (step item) := fun other hother =>
        hsteps other (List.mem_cons_of_mem first hother)
      rcases List.mem_cons.1 hitem with rfl | hitem
      · exact ⟨state, middle, .refl, hfirst, (Within.forM_of_mem hsteps').of_eq_ok hrest⟩
      · obtain ⟨before, behind, hbefore, hstep, hbehind⟩ := ih hsteps' hrest hitem
        have hstart := (hsteps first List.mem_cons_self).of_eq_ok hfirst
        exact ⟨before, behind, hstart.trans hbefore, hstep, hbehind⟩

/-- A list of steps that succeeds goes from state to state, one step after the other. -/
theorem exists_states_of_forM_eq_ok {step : α → EStateM ε σ PUnit} {items : List α}
    {state after : σ} {u : PUnit} (h : items.forM step state = .ok u after) :
    ∃ states : Nat → σ, states 0 = state ∧ states items.length = after ∧
      ∀ (index : Nat) (item : α), items[index]? = some item →
        step item (states index) = .ok ⟨⟩ (states (index + 1)) := by
  induction items generalizing state with
  | nil =>
      cases h
      exact ⟨fun _ => after, rfl, rfl, fun _ _ hitem => by cases hitem⟩
  | cons first rest ih =>
      obtain ⟨_, middle, hfirst, hrest⟩ := of_bind_eq_ok h
      obtain ⟨states, hstart, hend, hsteps⟩ := ih hrest
      refine ⟨fun index => Nat.casesOn (motive := fun _ => σ) index state states, rfl, hend,
        fun index item hitem => ?_⟩
      cases index with
      | zero =>
          cases hitem
          change step first state = .ok ⟨⟩ (states 0)
          rw [hstart]
          exact hfirst
      | succ index => exact hsteps index item hitem

/-- A list of steps leads along transitions where each of the steps does, if all of them succeed. -/
theorem run_of_forM_eq_ok {step : α → EStateM ε σ PUnit} {items : List α}
    (hsteps : ∀ item ∈ items, ∀ before behind, step item before = .ok ⟨⟩ behind →
      ReflTransGen R before behind) {state after : σ} {u : PUnit}
    (h : items.forM step state = .ok u after) : ReflTransGen R state after := by
  induction items generalizing state with
  | nil =>
      cases h
      exact .refl
  | cons item rest ih =>
      obtain ⟨_, middle, hfirst, hrest⟩ := of_bind_eq_ok h
      exact (hsteps item List.mem_cons_self state middle hfirst).trans
        (ih (fun other hother => hsteps other (List.mem_cons_of_mem item hother)) hrest)

/-- A list of steps that fails takes some of them and fails at the next. -/
theorem exists_of_forM_eq_error {step : α → EStateM ε σ PUnit} {items : List α} {state after : σ}
    {error : ε} (h : items.forM step state = .error error after) :
    ∃ done item rest middle, items = done ++ item :: rest ∧
      done.forM step state = .ok ⟨⟩ middle ∧ step item middle = .error error after := by
  induction items generalizing state with
  | nil => cases h
  | cons first rest ih =>
      have hboth : (step first >>= fun _ => rest.forM step) state = .error error after := h
      rcases of_bind_eq_error hboth with hfirst | ⟨_, middle, hfirst, hrest⟩
      · exact ⟨[], first, rest, state, rfl, rfl, hfirst⟩
      · obtain ⟨done, item, others, last, rfl, hdone, hitem⟩ := ih hrest
        exact ⟨first :: done, item, others, last, rfl,
          (bind_eq_of_eq_ok hfirst).trans hdone, hitem⟩

theorem forM_eq_error {step : α → EStateM ε σ PUnit} {done rest : List α} {item : α}
    {state middle after : σ} {error : ε} (hdone : done.forM step state = .ok ⟨⟩ middle)
    (hitem : step item middle = .error error after) :
    (done ++ item :: rest).forM step state = .error error after := by
  induction done generalizing state with
  | nil =>
      cases hdone
      exact bind_eq_of_eq_error hitem
  | cons first others ih =>
      have hboth : (step first >>= fun _ => others.forM step) state = .ok ⟨⟩ middle := hdone
      obtain ⟨_, between, hfirst, hothers⟩ := of_bind_eq_ok hboth
      exact (bind_eq_of_eq_ok hfirst).trans (ih hothers)

/-! ## What steps uphold -/

/-- In the end the invariant holds, and if the end is a failure the error is one that is allowed. -/
def Ends (Invariant : σ → Prop) (Allowed : ε → Prop) : EStateM.Result ε σ α → Prop
  | .ok _ state => Invariant state
  | .error error state => Invariant state ∧ Allowed error

/-- The step ends well wherever the invariant holds. -/
def Upholds (Invariant : σ → Prop) (Allowed : ε → Prop) (step : EStateM ε σ α) : Prop :=
  ∀ state, Invariant state → Ends Invariant Allowed (step state)

section Upholds

variable {Invariant : σ → Prop} {Allowed : ε → Prop}

theorem Ends.ending {result : EStateM.Result ε σ α} (h : Ends Invariant Allowed result) :
    Invariant (ending result) := by
  cases result with
  | ok => exact h
  | error => exact h.1

theorem upholds_pure (a : α) : Upholds Invariant Allowed (pure a : EStateM ε σ α) := fun _ h => h

theorem upholds_throw {error : ε} (h : Allowed error) :
    Upholds Invariant Allowed (throw error : EStateM ε σ α) :=
  fun _ hstate => ⟨hstate, h⟩

theorem upholds_throw_bind {error : ε} {next : α → EStateM ε σ β} (h : Allowed error) :
    Upholds Invariant Allowed ((throw error : EStateM ε σ α) >>= next) :=
  fun _ hstate => ⟨hstate, h⟩

theorem upholds_get : Upholds Invariant Allowed (get : EStateM ε σ σ) := fun _ h => h

theorem upholds_modify {f : σ → σ} (h : ∀ state, Invariant state → Invariant (f state)) :
    Upholds Invariant Allowed (modify f : EStateM ε σ PUnit) := h

theorem Within.upholds (h : Within R step)
    (hkept : ∀ state after, R state after → Invariant state → Invariant after)
    (hallowed : ∀ state after error, step state = .error error after → Allowed error) :
    Upholds Invariant Allowed step := by
  intro state hstate
  have hends := h state
  have hkeeps : Invariant (ending (step state)) := by
    generalize ending (step state) = after at hends
    induction hends with
    | refl => exact hstate
    | tail _ hstep ih => exact hkept _ _ hstep ih
  cases hstep : step state with
  | ok a after =>
      rw [hstep] at hkeeps
      exact hkeeps
  | error error after =>
      rw [hstep] at hkeeps
      exact ⟨hkeeps, hallowed _ _ _ hstep⟩

/-- What comes behind a step need only end well where the step leads. -/
theorem Ends.bind {next : α → EStateM ε σ β} {state : σ}
    (h : Ends Invariant Allowed (step state))
    (hnext : ∀ a after, step state = .ok a after → Invariant after →
      Ends Invariant Allowed (next a after)) :
    Ends Invariant Allowed ((step >>= next) state) := by
  cases hstep : step state with
  | ok a middle =>
      rw [hstep] at h
      rw [bind_eq_of_eq_ok hstep]
      exact hnext a middle hstep h
  | error error middle =>
      rw [hstep] at h
      rw [bind_eq_of_eq_error hstep]
      exact h

theorem Upholds.bind_of_ok {next : α → EStateM ε σ β} (h : Upholds Invariant Allowed step)
    (hnext : ∀ state a after, Invariant state → step state = .ok a after → Invariant after →
      Ends Invariant Allowed (next a after)) : Upholds Invariant Allowed (step >>= next) :=
  fun state hstate => (h state hstate).bind fun a after => hnext state a after hstate

theorem Upholds.bind {next : α → EStateM ε σ β} (h : Upholds Invariant Allowed step)
    (hnext : ∀ a, Upholds Invariant Allowed (next a)) :
    Upholds Invariant Allowed (step >>= next) :=
  h.bind_of_ok fun _ a after _ _ => hnext a after

theorem Upholds.forM {step : α → EStateM ε σ PUnit}
    (h : ∀ item, Upholds Invariant Allowed (step item)) (items : List α) :
    Upholds Invariant Allowed (items.forM step) := by
  induction items with
  | nil => exact upholds_pure _
  | cons item rest ih => exact (h item).bind fun _ => ih

end Upholds

/-! ## Steps that come out alike -/

/-- From every state the steps give the same and lead to the same state, or both fail. -/
def Agree (step other : EStateM ε σ α) : Prop :=
  ∀ state, step state = other state ∨
    (failure? (step state)).isSome = true ∧ (failure? (other state)).isSome = true

theorem agree_of_eq {step other : EStateM ε σ α} (h : step = other) : Agree step other :=
  fun state => .inl (congrFun h state)

theorem Agree.bind {step other : EStateM ε σ α} {next next' : α → EStateM ε σ β}
    (h : Agree step other) (hnext : ∀ a, Agree (next a) (next' a)) :
    Agree (step >>= next) (other >>= next') := by
  intro state
  rcases h state with hsame | ⟨hfails, hfails'⟩
  · cases hstep : other state with
    | ok a middle =>
        rw [bind_eq_of_eq_ok (hsame.trans hstep), bind_eq_of_eq_ok hstep]
        exact hnext a middle
    | error error after =>
        rw [bind_eq_of_eq_error (hsame.trans hstep), bind_eq_of_eq_error hstep]
        exact .inl rfl
  · obtain ⟨error, herror⟩ := Option.isSome_iff_exists.1 hfails
    obtain ⟨error', herror'⟩ := Option.isSome_iff_exists.1 hfails'
    rw [bind_eq_of_eq_error (eq_error_of_failure? herror),
      bind_eq_of_eq_error (eq_error_of_failure? herror')]
    exact .inr ⟨rfl, rfl⟩

/-! ## Steps that cannot fail -/

/-- The step, which cannot fail, leads from any state along transitions of a relation. -/
def Leads (R : σ → σ → Prop) (step : StateM σ α) : Prop :=
  ∀ state, ReflTransGen R state (step state).2

theorem leads_pure (a : α) : Leads R (pure a : StateM σ α) := fun _ => .refl

theorem get_bind_apply (next : σ → StateM σ α) (state : σ) :
    (get >>= next : StateM σ α) state = next state state := rfl

theorem Leads.of_get {next : σ → StateM σ α} {state : σ}
    (h : ReflTransGen R state (next state state).2) :
    ReflTransGen R state ((get >>= next : StateM σ α) state).2 := h

theorem Leads.bind {step : StateM σ α} {next : α → StateM σ β} (h : Leads R step)
    (hnext : ∀ a, Leads R (next a)) : Leads R (step >>= next) :=
  fun state => (h state).trans (hnext _ _)

theorem Leads.mapM {step : α → StateM σ β} (h : ∀ item, Leads R (step item)) (items : List α) :
    Leads R (items.mapM step) := by
  induction items with
  | nil => exact leads_pure _
  | cons item rest ih =>
      rw [List.mapM_cons]
      exact (h item).bind fun _ => ih.bind fun _ => leads_pure _

end Steps

end Interop
