import Interop.Proofs.Registry.Ledger

/-! # No reference is lost

A reference that comes in with a handle is taken over by a wrapper that owns none, or it is given
back; a wrapper that owns one gives it back when it dies. So the references of a handle that came in
are those that were given back and those that live wrappers own, whatever is done in between.
Giving a reference back is the last thing an action does, so an action that is set going by it is
one that comes later.
-/

namespace Interop

theorem Ownership.transfersReference_iff {ownership : Ownership} :
    ownership.transfersReference = true ↔ ownership = .full := by
  cases ownership <;> decide

/-- The wrapper is live and owns a reference of the handle. -/
def Wrapper.holds (wrapper : Wrapper) (handle : Handle) : Bool :=
  wrapper.isLive && wrapper.owned && wrapper.handle == handle

theorem Wrapper.holds_of_isLive {wrapper : Wrapper} (h : wrapper.isLive = true) (handle : Handle) :
    wrapper.holds handle = (wrapper.owned && wrapper.handle == handle) := by
  rw [holds, h, Bool.true_and]

theorem Wrapper.holds_of_dead {wrapper : Wrapper} (h : wrapper.isLive = false) (handle : Handle) :
    wrapper.holds handle = false := by
  rw [holds, h, Bool.false_and, Bool.false_and]

namespace Registry

variable {registry : Registry} {id : WrapperId} {wrapper new : Wrapper}

theorem ite_eq_toNat (b : Bool) : (if b = true then 1 else 0) = b.toNat := by
  cases b <;> rfl

/-- How many live wrappers own a reference of a handle. -/
def held (registry : Registry) (handle : Handle) : Nat :=
  registry.wrappers.countP (·.holds handle)

theorem held_replace (h : registry.wrapper? id = some wrapper) (new : Wrapper) (handle : Handle) :
    (registry.replace id new).held handle + (wrapper.holds handle).toNat =
      registry.held handle + (new.holds handle).toNat := by
  obtain ⟨hbound, hwrapper⟩ := Array.getElem?_eq_some_iff.1 h
  have hset : (registry.replace id new).wrappers = registry.wrappers.set id.index new hbound :=
    dif_pos hbound
  have hcount : (wrapper.holds handle).toNat ≤ registry.held handle := by
    cases hholds : wrapper.holds handle with
    | false => exact Nat.zero_le _
    | true => exact Array.countP_pos_iff.2 ⟨wrapper, Array.mem_of_getElem? h, hholds⟩
  rw [held, hset, Array.countP_set, hwrapper, ite_eq_toNat, ite_eq_toNat, ← held]
  omega

/-- Nothing changes as long as the same wrappers own references. -/
theorem held_replace_eq (h : registry.wrapper? id = some wrapper) {handle : Handle}
    (hholds : new.holds handle = wrapper.holds handle) :
    (registry.replace id new).held handle = registry.held handle := by
  have hheld := held_replace h new handle
  rw [hholds] at hheld
  exact Nat.add_right_cancel hheld

theorem held_create (registry : Registry) (handle : Handle) (cls : NativeClass)
    (ownership : Ownership) (found : Handle) :
    (registry.create handle cls ownership).2.held found =
      registry.held found + ((Wrapper.made handle cls ownership).holds found).toNat := by
  rw [held, wrappers_create, Array.countP_push, ite_eq_toNat, held]

theorem held_sweep (registry : Registry) (handle found : Handle) :
    (registry.sweep handle).held found = registry.held found := by
  unfold sweep
  split <;> rfl

end Registry

namespace Ledger

open Registry

/-- How many references of a handle were given back. -/
def releasedOf (ledger : Ledger) (handle : Handle) : Nat :=
  ledger.released.countP fun due => due.handle == handle

/-- How many times a handle was wrapped together with a reference. -/
def transferredOf (ledger : Ledger) (handle : Handle) : Nat := ledger.transferred.count handle

/-- The references of a handle that came in are those that were given back and those that live
wrappers own. References are given back at all. -/
structure Balanced (ledger : Ledger) (handle : Handle) : Prop where
  releases : ledger.registry.releases = true
  balance : ledger.releasedOf handle + ledger.registry.held handle = ledger.transferredOf handle

variable {ledger ledger' : Ledger} {handle : Handle}

theorem balanced_empty (handle : Handle) :
    ({ registry := { releases := true } } : Ledger).Balanced handle := ⟨rfl, rfl⟩

/-- What a release counts for a handle. -/
theorem countP_toList_release {registry : Registry} (hreleases : registry.releases = true)
    (owned : Bool) (wrapper : Wrapper) (handle : Handle) :
    (if owned then registry.release? wrapper else none).toList.countP
        (fun due => due.handle == handle) = (owned && wrapper.handle == handle).toNat := by
  cases owned with
  | false => rfl
  | true =>
      simp only [release?, hreleases, if_true, Bool.true_and]
      cases hsame : wrapper.handle == handle <;> simp [hsame]

/-- A reference that comes in is counted once, as one that was given back or as one that is
owned. -/
theorem balance_wrapped {registry : Registry} {found : Handle} {ownership : Ownership}
    {result : Wrapped}
    (h : ledger.releasedOf handle + ledger.registry.held handle = ledger.transferredOf handle)
    (hcount : result.release.toList.countP (fun due => due.handle == handle) +
      registry.held handle =
        ledger.registry.held handle + (ownership.transfersReference && found == handle).toNat) :
    (ledger.wrapped registry found ownership result).releasedOf handle + registry.held handle =
      (ledger.wrapped registry found ownership result).transferredOf handle := by
  have htransferred : (ledger.wrapped registry found ownership result).transferredOf handle =
      ledger.transferredOf handle + (ownership.transfersReference && found == handle).toNat := by
    unfold wrapped transferredOf
    cases ownership.transfersReference with
    | false => rfl
    | true =>
        rw [if_pos rfl, List.count_append, List.count_singleton, Bool.true_and]
        cases found == handle <;> rfl
  have hreleased : (ledger.wrapped registry found ownership result).releasedOf handle =
      ledger.releasedOf handle +
        result.release.toList.countP (fun due => due.handle == handle) := by
    rw [releasedOf, releasedOf, wrapped, List.countP_append]
  omega

/-- A wrapper that is wrapped again takes a reference over, or it is given back. -/
theorem holds_rewrapped {wrapper : Wrapper} (hlive : wrapper.isLive = true)
    (ownership : Ownership) (handle : Handle) :
    (ownership.transfersReference && wrapper.owned && wrapper.handle == handle).toNat +
        ((wrapper.rewrapped ownership).holds handle).toNat =
      (wrapper.holds handle).toNat +
        (ownership.transfersReference && wrapper.handle == handle).toNat := by
  rw [Wrapper.holds_of_isLive hlive, Wrapper.holds_of_isLive (Wrapper.isLive_rewrapped _ _)]
  simp only [Wrapper.rewrapped]
  cases ownership.transfersReference <;> cases wrapper.owned <;>
    cases wrapper.handle == handle <;> rfl

theorem Step.balanced (hstep : ledger.Step ledger') (hnull : handle.isNull = false)
    (h : ledger.Balanced handle) : ledger'.Balanced handle := by
  obtain ⟨hreleases, hbalance⟩ := h
  cases hstep with
  | idle => exact ⟨hreleases, hbalance⟩
  | register classes => exact ⟨hreleases, hbalance⟩
  | @empty found ownership hfound =>
      refine ⟨hreleases, balance_wrapped hbalance ?_⟩
      have hne : (found == handle) = false := by
        rw [beq_eq_false_iff_ne]
        rintro rfl
        exact Bool.false_ne_true (hnull.symm.trans hfound)
      simp [hne]
  | @found id wrapper ownership hwrapper hlive =>
      refine ⟨hreleases, balance_wrapped hbalance ?_⟩
      have hheld := held_replace hwrapper (wrapper.rewrapped ownership) handle
      have hholds := holds_rewrapped hlive ownership handle
      rw [surplus?, countP_toList_release hreleases]
      omega
  | @made found cls ownership =>
      refine ⟨(releases_create ..).trans hreleases, balance_wrapped hbalance ?_⟩
      rw [held_create, Wrapper.holds_of_isLive (Wrapper.isLive_made ..), Option.toList_none,
        List.countP_nil, Nat.zero_add]
      rfl
  | @clone id wrapper hwrapper hlive =>
      refine ⟨hreleases, ?_⟩
      have hholds : wrapper.cloned.holds handle = wrapper.holds handle := by
        rw [Wrapper.holds_of_isLive hlive, Wrapper.holds_of_isLive (Wrapper.isLive_cloned _)]
        rfl
      rwa [held_replace_eq hwrapper hholds]
  | @shared id wrapper hwrapper hmore =>
      refine ⟨hreleases, ?_⟩
      have hlive := Wrapper.isLive_iff.2 (Nat.ne_zero_of_lt hmore)
      have hholds : wrapper.dropped.holds handle = wrapper.holds handle := by
        rw [Wrapper.holds_of_isLive hlive, Wrapper.holds_of_isLive (Wrapper.isLive_dropped hmore)]
        rfl
      rwa [held_replace_eq hwrapper hholds]
  | @last id wrapper hwrapper hlast =>
      refine ⟨(releases_sweep ..).trans hreleases, ?_⟩
      have hheld := held_replace hwrapper wrapper.dropped handle
      have hlive := Wrapper.isLive_iff.2 (hlast.trans_ne Nat.one_ne_zero)
      have hdead := Wrapper.isLive_dropped_last hlast
      rw [Wrapper.holds_of_isLive hlive, Wrapper.holds_of_dead hdead, Bool.toNat_false,
        Nat.add_zero] at hheld
      -- what the wrapper owned has gone from those that are owned to those that were given back
      rw [← hheld] at hbalance
      rw [releasedOf, List.countP_append, countP_toList_release hreleases, held_sweep]
      rw [releasedOf, transferredOf] at hbalance
      rw [transferredOf, ← hbalance]
      omega

theorem balanced_performAll (hnull : handle.isNull = false) (actions : List Action) :
    (performAll true actions).Balanced handle := by
  suffices hrun : ∀ ledger : Ledger, ledger.registry.Consistent → ledger.Balanced handle →
      (actions.foldl perform ledger).Balanced handle from
    hrun _ (consistent_empty true) (balanced_empty handle)
  induction actions with
  | nil => exact fun _ _ h => h
  | cons action rest ih =>
      intro ledger hconsistent h
      have hstep := step_perform hconsistent action
      exact ih _ (hstep.consistent hconsistent) (hstep.balanced hnull h)

/-- A handle is counted as transferred only where it is wrapped together with a reference. -/
theorem mem_transferred_perform {action : Action}
    (h : handle ∈ (ledger.perform action).transferred) :
    handle ∈ ledger.transferred ∨
      ∃ known target, action = .wrap known handle target .full := by
  cases action with
  | register cls =>
      simp only [perform] at h
      split at h <;> exact .inl h
  | wrap known found target ownership =>
      simp only [perform] at h
      split at h
      next =>
        rw [wrapped] at h
        split at h
        next htransfers =>
          rcases List.mem_append.1 h with hold | hnew
          · exact .inl hold
          · obtain rfl := List.mem_singleton.1 hnew
            obtain rfl := Ownership.transfersReference_iff.1 htransfers
            exact .inr ⟨known, target, rfl⟩
        next => exact .inl h
      next => exact .inl h
  | clone id =>
      simp only [perform] at h
      split at h <;> exact .inl h
  | drop id =>
      simp only [perform] at h
      split at h <;> exact .inl h

theorem mem_transferred_foldl {actions : List Action}
    (h : handle ∈ (actions.foldl perform ledger).transferred) :
    handle ∈ ledger.transferred ∨
      ∃ known target, Action.wrap known handle target .full ∈ actions := by
  induction actions generalizing ledger with
  | nil => exact .inl h
  | cons action rest ih =>
      rcases ih h with hnow | ⟨known, target, hlater⟩
      · rcases mem_transferred_perform hnow with hbefore | ⟨known, target, rfl⟩
        · exact .inl hbefore
        · exact .inr ⟨known, target, List.mem_cons_self⟩
      · exact .inr ⟨known, target, List.mem_cons_of_mem _ hlater⟩

/-- The references of a handle that were given back and those that live wrappers own are as many as
were transferred. Without a live wrapper each of them has been given back once, and none is given
back of a handle that was never wrapped together with a reference. -/
theorem released_add_held_eq_transferred (handle : Handle) (hnull : handle.isNull = false)
    (actions : List Action) :
    let ledger := performAll true actions
    ledger.releasedOf handle + ledger.registry.held handle = ledger.transferredOf handle ∧
      ((∀ id wrapper, ledger.registry.wrapper? id = some wrapper → wrapper.handle = handle →
          wrapper.isLive = false) →
        ledger.releasedOf handle = ledger.transferredOf handle) ∧
      ((∀ known target, Action.wrap known handle target .full ∉ actions) →
        ledger.releasedOf handle = 0) := by
  intro ledger
  have hbalance : ledger.releasedOf handle + ledger.registry.held handle =
      ledger.transferredOf handle := (balanced_performAll hnull actions).balance
  refine ⟨hbalance, fun hdead => ?_, fun hnever => ?_⟩
  · have hheld : ledger.registry.held handle = 0 := by
      refine Array.countP_eq_zero.2 fun wrapper hmem hholds => ?_
      obtain ⟨index, hwrapper⟩ := Array.mem_iff_getElem?.1 hmem
      simp only [Wrapper.holds, Bool.and_eq_true, beq_iff_eq] at hholds
      have hlive := hdead ⟨index⟩ wrapper hwrapper hholds.2
      exact Bool.false_ne_true (hlive.symm.trans hholds.1.1)
    rw [← hbalance, hheld, Nat.add_zero]
  · have hnone : ledger.transferredOf handle = 0 := by
      refine List.count_eq_zero.2 fun hmem => ?_
      rcases mem_transferred_foldl hmem with hstart | ⟨known, target, hwrap⟩
      · exact absurd hstart List.not_mem_nil
      · exact hnever known target hwrap
    omega

/-- Of two references the wrapper keeps one until it dies, which is when its last clone is dropped,
and none is given back of a handle that is only borrowed. -/
theorem second_reference_given_back :
    let owned := Handle.ofNat 0x1000
    let borrowed := Handle.ofNat 0x2000
    let actions : List Action := [.register (.named "A" .gobject),
      .wrap .blind owned (some "A") .full, .wrap .blind owned none .full,
      .wrap .blind borrowed (some "A") .borrowed, .drop ⟨1⟩, .drop ⟨0⟩]
    let ledger := performAll true actions
    let last := performAll true (actions ++ [.drop ⟨0⟩])
    owned.isNull = false ∧ borrowed.isNull = false ∧
      ledger.releasedOf owned + ledger.registry.held owned = ledger.transferredOf owned ∧
      ledger.releasedOf owned = 1 ∧ ledger.registry.held owned = 1 ∧
      ledger.releasedOf borrowed = 0 ∧
      last.releasedOf owned = last.transferredOf owned ∧ last.releasedOf owned = 2 ∧
      last.releasedOf borrowed = 0 := by
  intro owned borrowed actions ledger last
  have hnever : ∀ known target, Action.wrap known borrowed target .full ∉ actions := by
    intro known target hmem
    have hother : Handle.ofNat 0x2000 ≠ Handle.ofNat 0x1000 := by decide
    simp [actions, owned, borrowed, hother] at hmem
  have hstill : ∀ known target,
      Action.wrap known borrowed target .full ∉ actions ++ [.drop ⟨0⟩] := by
    intro known target hmem
    rcases List.mem_append.1 hmem with hbefore | hlast
    · exact hnever known target hbefore
    · cases List.mem_singleton.1 hlast
  have hdead : ∀ id wrapper, last.registry.wrapper? id = some wrapper → wrapper.handle = owned →
      wrapper.isLive = false := by
    have hall : last.registry.wrappers.all (fun wrapper => !wrapper.isLive) = true := by
      decide +kernel
    intro id wrapper hwrapper _
    simpa using Array.all_eq_true'.1 hall wrapper (Array.mem_of_getElem? hwrapper)
  obtain ⟨_, hgiven, _⟩ := released_add_held_eq_transferred owned rfl (actions ++ [.drop ⟨0⟩])
  obtain ⟨_, _, hnone⟩ := released_add_held_eq_transferred borrowed rfl (actions ++ [.drop ⟨0⟩])
  exact ⟨rfl, rfl, (released_add_held_eq_transferred owned rfl actions).1, by decide +kernel,
    by decide +kernel, (released_add_held_eq_transferred borrowed rfl actions).2.2 hnever,
    hgiven hdead, by decide +kernel, hnone hstill⟩

end Ledger

end Interop
