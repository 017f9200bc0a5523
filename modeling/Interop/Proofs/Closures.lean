import Mathlib.Data.List.Induction
import Mathlib.Data.Set.Card
import Interop.Closures
import Interop.Proofs.Keys

/-! # The tokens of live callbacks

Tokens are handed out one after the other and taken back in any order, by the bridge or by native
code that is done with a callback. A token is live from when it is handed out to when it is first
taken back, whatever happens to others and however often it is taken back after that. Callbacks of
scope `async` use tokens up without ever being live.
-/

namespace Interop

open Schema

namespace ClosureTable

variable {Fn : Type} {table : ClosureTable Fn} {token : Nat} {callback : Fn}

/-- The live tokens, the last one that was handed out first. -/
def tokens (table : ClosureTable Fn) : List Nat := table.live.map (·.1)

/-- The tables that there are: they begin empty, and tokens are handed out and taken back. -/
inductive Made : ClosureTable Fn → Prop
  | empty : Made {}
  | register {table : ClosureTable Fn} (h : Made table) (callback : Fn) (scope : CallbackScope) :
      Made (table.register callback scope).2
  | remove {table : ClosureTable Fn} (h : Made table) (token : Nat) : Made (table.remove token)

theorem tokens_register (table : ClosureTable Fn) (callback : Fn) (scope : CallbackScope) :
    (table.register callback scope).2.tokens =
      if scope = .async then table.tokens else table.next :: table.tokens := by
  rw [register, tokens]
  dsimp only
  split <;> rfl

theorem tokens_remove (table : ClosureTable Fn) (token : Nat) :
    (table.remove token).tokens = table.tokens.filter (· ≠ token) := by
  rw [tokens, tokens, remove, List.filter_map]
  refine congrArg _ (List.filter_congr fun entry _ => ?_)
  by_cases hsame : entry.1 = token <;> simp [hsame]

theorem notMem_tokens_of_get?_eq_none {token : Nat} (h : table.get? token = none) :
    token ∉ table.tokens := by
  intro hmem
  obtain ⟨entry, hentry, rfl⟩ := List.mem_map.1 hmem
  exact absurd (List.lookup_eq_none_iff.1 h entry hentry) (by simp)

/-- A live token was handed out before. -/
theorem Made.lt_next (h : table.Made) {token : Nat} (hmem : token ∈ table.tokens) :
    token < table.next := by
  induction h with
  | empty => cases hmem
  | @register table _ callback scope ih =>
      rw [tokens_register] at hmem
      have hnext : (table.register callback scope).2.next = table.next + 1 := rfl
      rw [hnext]
      split at hmem
      next => exact Nat.lt_succ_of_lt (ih hmem)
      next =>
        rcases List.mem_cons.1 hmem with rfl | hold
        · exact Nat.lt_succ_self _
        · exact Nat.lt_succ_of_lt (ih hold)
  | remove _ token ih =>
      rw [tokens_remove] at hmem
      exact ih (List.mem_of_mem_filter hmem)

/-- A token is live once. -/
theorem Made.nodup_tokens (h : table.Made) : table.tokens.Nodup := by
  induction h with
  | empty => exact List.nodup_nil
  | @register table hmade callback scope ih =>
      rw [tokens_register]
      split
      next => exact ih
      next => exact List.nodup_cons.2 ⟨fun hold => Nat.lt_irrefl _ (hmade.lt_next hold), ih⟩
  | remove _ token ih =>
      rw [tokens_remove]
      exact ih.filter _

/-! ## Looking a token up -/

theorem get?_register (table : ClosureTable Fn) (callback : Fn) (scope : CallbackScope)
    (token : Nat) : (table.register callback scope).2.get? token =
      if token = table.next ∧ scope ≠ .async then some callback else table.get? token := by
  by_cases hscope : scope = .async
  · simp [register, get?, hscope]
  · by_cases hnew : token = table.next
    · simp [register, get?, hscope, hnew]
    · have hother : (token == table.next) = false := by simpa using hnew
      simp [register, get?, hscope, hnew, List.lookup_cons, hother]

/-- What is taken back is gone, and nothing else is. -/
theorem get?_remove (table : ClosureTable Fn) (gone token : Nat) :
    (table.remove gone).get? token = if token = gone then none else table.get? token :=
  lookup_filter_ne table.live gone token

theorem get?_eq_some_iff_mem (h : table.Made) :
    table.get? token = some callback ↔ (token, callback) ∈ table.live :=
  lookup_eq_some_iff_mem h.nodup_tokens

/-! ## Runs -/

/-- What can be done to a table. Both the bridge and native code may take a token back, early, late
and more than once. -/
inductive Action (Fn : Type) where
  | register (callback : Fn) (scope : CallbackScope)
  /-- The bridge takes a token back. -/
  | remove (token : Nat)
  /-- Native code invokes the release function that it got for a token. -/
  | notify (token : Nat)

namespace Action

def apply (table : ClosureTable Fn) : Action Fn → ClosureTable Fn
  | .register callback scope => (table.register callback scope).2
  | .remove token | .notify token => table.remove token

/-- The token that an action hands out. -/
def given? (table : ClosureTable Fn) : Action Fn → Option Nat
  | .register callback scope => some (table.register callback scope).1
  | .remove _ | .notify _ => none

/-- The token that an action takes back. -/
def taken? : Action Fn → Option Nat
  | .register .. => none
  | .remove token | .notify token => some token

end Action

/-- The table that actions one after the other leave. -/
def run (table : ClosureTable Fn) (actions : List (Action Fn)) : ClosureTable Fn :=
  actions.foldl Action.apply table

/-- The tokens that actions one after the other hand out. -/
def given (table : ClosureTable Fn) : List (Action Fn) → List Nat
  | [] => []
  | action :: rest => (action.given? table).toList ++ (action.apply table).given rest

/-- The callback was registered under the token, for longer than until native code invokes it, and
the token was not taken back since. -/
def Holds (actions : List (Action Fn)) (token : Nat) (callback : Fn) : Prop :=
  ∃ before scope since, actions = before ++ .register callback scope :: since ∧ scope ≠ .async ∧
    (Action.register callback scope).given? (run {} before) = some token ∧
    ∀ action ∈ since, action.taken? ≠ some token

theorem run_append (table : ClosureTable Fn) (actions others : List (Action Fn)) :
    table.run (actions ++ others) = (table.run actions).run others :=
  List.foldl_append

theorem Made.apply (h : table.Made) (action : Action Fn) : (action.apply table).Made := by
  cases action with
  | register callback scope => exact h.register callback scope
  | remove token => exact h.remove token
  | notify token => exact h.remove token

theorem Made.run (h : table.Made) (actions : List (Action Fn)) : (table.run actions).Made := by
  induction actions generalizing table with
  | nil => exact h
  | cons action rest ih => exact ih (h.apply action)

/-- Tokens are numbers one behind the other. -/
theorem given_eq_range' (table : ClosureTable Fn) (actions : List (Action Fn)) :
    ∃ count, table.given actions = List.range' table.next count := by
  induction actions generalizing table with
  | nil => exact ⟨0, rfl⟩
  | cons action rest ih =>
      obtain ⟨count, hrest⟩ := ih (action.apply table)
      rw [given, hrest]
      cases action with
      | register callback scope => exact ⟨count + 1, rfl⟩
      | remove token => exact ⟨count, rfl⟩
      | notify token => exact ⟨count, rfl⟩

theorem holds_concat {actions : List (Action Fn)} {action : Action Fn} :
    Holds (actions ++ [action]) token callback ↔
      (∃ scope, action = .register callback scope ∧ scope ≠ .async ∧
        token = (run {} actions).next) ∨
      action.taken? ≠ some token ∧ Holds actions token callback := by
  constructor
  · rintro ⟨before, scope, since, hactions, hscope, htoken, hsince⟩
    rcases List.eq_nil_or_concat since with rfl | ⟨since, last, rfl⟩
    · obtain ⟨rfl, hlast⟩ := List.append_inj' hactions rfl
      exact .inl ⟨scope, List.singleton_inj.1 hlast, hscope, (Option.some.inj htoken).symm⟩
    · rw [List.concat_eq_append, ← List.cons_append, ← List.append_assoc] at hactions
      obtain ⟨rfl, hlast⟩ := List.append_inj' hactions rfl
      obtain rfl := List.singleton_inj.1 hlast
      refine .inr ⟨hsince action (by simp), before, scope, since, rfl, hscope, htoken, ?_⟩
      exact fun other hother => hsince other (by simp [hother])
  · rintro (⟨scope, rfl, hscope, rfl⟩ | ⟨htaken, before, scope, since, rfl, hscope, htoken, hsince⟩)
    · exact ⟨actions, scope, [], rfl, hscope, rfl, fun _ hother => absurd hother List.not_mem_nil⟩
    · refine ⟨before, scope, since ++ [action], by simp, hscope, htoken, fun other hother => ?_⟩
      rcases List.mem_append.1 hother with hold | hnew
      · exact hsince other hold
      · exact List.mem_singleton.1 hnew ▸ htaken

/-- By induction over the actions from their end: the last one adds a callback under a token that is
not live, takes a token back, or changes nothing. -/
theorem get?_run_eq_some_iff (actions : List (Action Fn)) :
    (run {} actions).get? token = some callback ↔ Holds actions token callback := by
  induction actions using List.reverseRecOn generalizing token callback with
  | nil =>
      refine ⟨fun h => (by cases h), fun ⟨before, _, _, hactions, _⟩ => ?_⟩
      cases before <;> cases hactions
  | append_singleton actions action ih =>
      -- the token that comes next has not been given out before
      have hnew : ¬ Holds actions (run {} actions).next callback := by
        intro hholds
        have hlive := (get?_eq_some_iff_mem (Made.empty.run actions)).1 (ih.2 hholds)
        exact Nat.lt_irrefl _ ((Made.empty.run actions).lt_next (List.mem_map_of_mem hlive))
      rw [run_append, holds_concat]
      cases action with
      | register other scope =>
          have hstep := get?_register (run {} actions) other scope token
          rw [run, List.foldl_cons, List.foldl_nil, Action.apply, hstep]
          by_cases hfresh : token = (run {} actions).next ∧ scope ≠ .async
          · obtain ⟨rfl, hscope⟩ := hfresh
            simp only [hscope, hnew, ne_eq, not_false_eq_true, and_self, if_true,
              Option.some.injEq, and_false, or_false, Action.register.injEq, and_true]
            exact ⟨fun h => ⟨scope, ⟨h, rfl⟩, hscope⟩, fun ⟨_, ⟨h, _⟩, _⟩ => h⟩
          · rw [if_neg hfresh, ih]
            refine ⟨fun hold => .inr ⟨by simp [Action.taken?], hold⟩, ?_⟩
            rintro (⟨other, hsame, hscope, htoken⟩ | ⟨_, hold⟩)
            · cases hsame
              exact absurd ⟨htoken, hscope⟩ hfresh
            · exact hold
      | remove gone | notify gone =>
          have hstep := get?_remove (run {} actions) gone token
          rw [run, List.foldl_cons, List.foldl_nil, Action.apply, hstep]
          by_cases hgone : token = gone
          · simp [hgone, Action.taken?]
          · simp [hgone, Ne.symm hgone, Action.taken?, ih]

/-! ## One action more or less -/

/-- Two tables hand out the same tokens from now on, and what is live in them differs in one token
at most. -/
structure Beside (token : Nat) (table other : ClosureTable Fn) : Prop where
  next : table.next = other.next
  get? : ∀ kept, kept ≠ token → table.get? kept = other.get? kept

theorem beside_remove (table : ClosureTable Fn) (token : Nat) :
    Beside token (table.remove token) table :=
  ⟨rfl, fun kept hkept => by rw [get?_remove, if_neg hkept]⟩

theorem Beside.apply {other : ClosureTable Fn} (h : Beside token table other)
    (action : Action Fn) : Beside token (action.apply table) (action.apply other) := by
  cases action with
  | register callback scope =>
      refine ⟨congrArg (· + 1) h.next, fun kept hkept => ?_⟩
      rw [Action.apply, Action.apply, get?_register, get?_register, h.next, h.get? kept hkept]
  | remove gone | notify gone =>
      refine ⟨h.next, fun kept hkept => ?_⟩
      rw [Action.apply, Action.apply, get?_remove, get?_remove, h.get? kept hkept]

theorem Beside.run {other : ClosureTable Fn} (h : Beside token table other)
    (actions : List (Action Fn)) : Beside token (table.run actions) (other.run actions) := by
  induction actions generalizing table other with
  | nil => exact h
  | cons action rest ih => exact ih (h.apply action)

theorem Beside.given_eq {other : ClosureTable Fn} (h : Beside token table other)
    (actions : List (Action Fn)) : table.given actions = other.given actions := by
  induction actions generalizing table other with
  | nil => rfl
  | cons action rest ih =>
      rw [given, given, ih (h.apply action)]
      cases action with
      | register callback scope => exact congrArg (fun next => [next] ++ _) h.next
      | remove | notify => rfl

/-! ## What a table is good for -/

/-- What whoever passes callbacks to native code relies on. -/
structure Reliable (actions : List (Action Fn)) : Prop where
  /-- Zero is no token. -/
  pos : ∀ token ∈ given {} actions, token ≠ 0
  /-- No token is handed out twice. -/
  nodup : (given {} actions).Nodup
  get?_eq_some_iff : ∀ token callback,
    (run {} actions).get? token = some callback ↔ Holds actions token callback
  contains_iff : ∀ token,
    (run {} actions).contains token = true ↔ ∃ callback, Holds actions token callback
  size_eq : (run {} actions).size = {token | ∃ callback, Holds actions token callback}.ncard
  /-- Had native code not released a token at some point, what all other tokens stand for would be
  the same, and so would the tokens that are handed out. -/
  notify : ∀ before token since, actions = before ++ .notify token :: since →
    (∀ other, other ≠ token → (run {} actions).get? other = (run {} (before ++ since)).get? other) ∧
      given {} actions = given {} (before ++ since)

theorem given_append (table : ClosureTable Fn) (actions others : List (Action Fn)) :
    table.given (actions ++ others) = table.given actions ++ (table.run actions).given others := by
  induction actions generalizing table with
  | nil => rfl
  | cons action rest ih =>
      rw [List.cons_append, given, given, ih, List.append_assoc]
      rfl

theorem contains_run_iff (actions : List (Action Fn)) (token : Nat) :
    (run {} actions).contains token = true ↔ ∃ callback, Holds actions token callback := by
  rw [contains, Option.isSome_iff_exists]
  exact exists_congr fun callback => get?_run_eq_some_iff actions

theorem Made.size_eq (h : table.Made) :
    table.size = {token | table.contains token = true}.ncard := by
  have hlive : {token | table.contains token = true} = table.tokens.toFinset := by
    ext token
    simp only [Set.mem_ofPred_eq, contains, Option.isSome_iff_exists, get?_eq_some_iff_mem h,
      List.coe_toFinset, tokens, List.mem_map, Prod.exists, exists_and_right, exists_eq_right]
  rw [hlive, Set.ncard_coe_finset, List.toFinset_card_of_nodup h.nodup_tokens, size, tokens,
    List.length_map]

/-- However callbacks are registered and their tokens taken back, the tokens that are handed out are
different and not zero, those are live that were registered to stay and not taken back since, each
with its callback, and a release by native code leaves all other tokens alone. -/
theorem reliable_run (actions : List (Action Fn)) : Reliable actions := by
  obtain ⟨count, hgiven⟩ := given_eq_range' {} actions
  refine ⟨fun token htoken => ?_, hgiven ▸ List.nodup_range',
    fun _ _ => get?_run_eq_some_iff actions, contains_run_iff actions, ?_, ?_⟩
  · rw [hgiven] at htoken
    exact Nat.ne_of_gt (List.mem_range'_1.1 htoken).1
  · rw [(Made.empty.run actions).size_eq]
    simp only [contains_run_iff]
  · rintro before token since rfl
    have hbeside := beside_remove (run {} before) token
    constructor
    · intro other hother
      rw [run_append, run_append]
      exact (hbeside.run since).get? other hother
    · rw [given_append, given_append]
      exact congrArg _ (hbeside.given_eq since)

/-- The number that an async callback uses up stays unused, and a late release changes nothing. -/
example : (run {} [.register 'a' .notified, .register 'b' .async, .notify 1, .remove 2,
    .register 'c' .call, .notify 1]).live = [(3, 'c')] := by
  decide

end ClosureTable

end Interop
