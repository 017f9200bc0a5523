import Interop.Proofs.Registry.Identities

/-! # Using a registry

Classes are registered, handles wrapped, and wrappers cloned and dropped in any order, also where it
fails. What each of these comes to is said once; that the table of identities stays consistent
follows from it, and what is true of references as well.
-/

namespace Interop

open Registry

/-- A registry with what has come in and gone out through it. -/
structure Ledger where
  registry : Registry
  /-- The references that were given back. -/
  released : List Release := []
  /-- The handles that were wrapped together with a reference. -/
  transferred : List Handle := []

namespace Ledger

/-- What users of a registry do. They can clone and drop only the wrappers that they have. -/
inductive Action where
  | register (cls : NativeClass)
  | wrap (known : Registry.Introspection) (handle : Handle) (target : Option String)
      (ownership : Ownership)
  | clone (id : WrapperId)
  | drop (id : WrapperId)

/-- What has come in after a wrap that succeeded. A reference that is not needed is given back at
the end of the wrap: whatever is done on that occasion is done after the wrap. -/
def wrapped (ledger : Ledger) (registry : Registry) (handle : Handle) (ownership : Ownership)
    (result : Registry.Wrapped) : Ledger where
  registry := registry
  released := ledger.released ++ result.release.toList
  transferred :=
    if ownership.transfersReference then ledger.transferred ++ [handle] else ledger.transferred

/-- The state after an action, whether it succeeds or fails. -/
def perform (ledger : Ledger) : Action → Ledger
  | .register cls =>
    match ledger.registry.registerClass cls with
    | .ok registry => { ledger with registry }
    | .error _ => ledger
  | .wrap known handle target ownership =>
    match ledger.registry.wrap known handle target ownership with
    | (.ok result, registry) => ledger.wrapped registry handle ownership result
    | (.error _, registry) => { ledger with registry }
  | .clone id =>
    if ledger.registry.isLive id then { ledger with registry := ledger.registry.retain id }
    else ledger
  | .drop id =>
    if ledger.registry.isLive id then
      let (due, registry) := ledger.registry.drop id
      { ledger with registry, released := ledger.released ++ due.toList }
    else ledger

/-- The state after actions on a registry without classes and wrappers. -/
def performAll (releases : Bool) (actions : List Action) : Ledger :=
  actions.foldl perform { registry := { releases } }

/-! ## What an action comes to -/

/-- What can happen to a ledger whose table of identities is consistent. -/
inductive Step (ledger : Ledger) : Ledger → Prop
  | idle : Step ledger ledger
  | register (classes : ClassTable) :
      Step ledger { ledger with registry := { ledger.registry with classes } }
  /-- The null handle has been wrapped. -/
  | empty {handle : Handle} {ownership : Ownership} (hnull : handle.isNull = true) :
      Step ledger (ledger.wrapped ledger.registry handle ownership { id := none })
  /-- A handle has been wrapped again. -/
  | found {id : WrapperId} {wrapper : Wrapper} {ownership : Ownership}
      (hwrapper : ledger.registry.wrapper? id = some wrapper) (hlive : wrapper.isLive = true) :
      Step ledger (ledger.wrapped (ledger.registry.replace id (wrapper.rewrapped ownership))
        wrapper.handle ownership
        { id := some id, release := ledger.registry.surplus? wrapper ownership })
  /-- A handle has been wrapped for the first time, or is wrapped without identity. -/
  | made {handle : Handle} {cls : NativeClass} {ownership : Ownership}
      (hnull : handle.isNull = false)
      (hfree : cls.kind ≠ .struct → ledger.registry.identities.lookup handle = none) :
      Step ledger (ledger.wrapped (ledger.registry.create handle cls ownership).2 handle ownership
        { id := some (ledger.registry.create handle cls ownership).1 })
  | clone {id : WrapperId} {wrapper : Wrapper}
      (hwrapper : ledger.registry.wrapper? id = some wrapper) (hlive : wrapper.isLive = true) :
      Step ledger { ledger with registry := ledger.registry.replace id wrapper.cloned }
  /-- A clone has been dropped that was not the last one. -/
  | shared {id : WrapperId} {wrapper : Wrapper}
      (hwrapper : ledger.registry.wrapper? id = some wrapper) (hmore : 1 < wrapper.strong) :
      Step ledger { ledger with registry := ledger.registry.replace id wrapper.dropped }
  /-- The last clone has been dropped. -/
  | last {id : WrapperId} {wrapper : Wrapper}
      (hwrapper : ledger.registry.wrapper? id = some wrapper) (hlast : wrapper.strong = 1) :
      Step ledger { ledger with
        registry := (ledger.registry.replace id wrapper.dropped).sweep wrapper.handle
        released := ledger.released ++
          (if wrapper.owned then ledger.registry.release? wrapper else none).toList }

variable {ledger ledger' : Ledger}

theorem step_wrap (h : ledger.registry.Consistent) (known : Introspection) (handle : Handle)
    (targetName : Option String) (ownership : Ownership) :
    ledger.Step (ledger.perform (.wrap known handle targetName ownership)) := by
  have hkept : ∀ swept, (swept = ledger.registry ∨ swept = ledger.registry.sweep handle) →
      swept = ledger.registry := by
    rintro swept (rfl | rfl)
    · rfl
    · exact h.sweep_eq handle
  have hcase := wrap_cases ledger.registry known handle targetName ownership
  simp only [perform]
  generalize ledger.registry.wrap known handle targetName ownership = outcome at hcase
  cases hcase with
  | null hnull => exact .empty hnull
  | failed hswept =>
      rw [hkept _ hswept]
      exact .idle
  | found hnull hentry hwrapper hlive htarget =>
      -- the entry of a handle is a wrapper of this handle
      obtain ⟨_, hsame, _, _, rfl⟩ := h.lookup_eq_some_iff.1 hentry
      rw [hwrapper] at hsame
      cases hsame
      exact .found hwrapper hlive
  | made hnull hswept hfree htarget =>
      obtain rfl := hkept _ hswept
      exact .made hnull hfree

theorem step_drop (h : ledger.registry.Consistent) {id : WrapperId}
    (hlive : ledger.registry.isLive id = true) : ledger.Step (ledger.perform (.drop id)) := by
  obtain ⟨wrapper, hwrapper, halive⟩ := (Option.any_eq_true _ _).1 hlive
  have hcase := drop_cases hwrapper
  simp only [perform, hlive, if_true]
  generalize ledger.registry.drop id = outcome at hcase
  cases hcase with
  | shared hshared =>
      have hown := (h.own id wrapper hwrapper).1
      have hmore : wrapper.strong ≠ 1 := hshared.resolve_right (by simp [hown])
      have hpos := Wrapper.isLive_iff.1 halive
      simp only [Option.toList_none, List.append_nil]
      exact .shared hwrapper (by omega)
  | last hlast _ => exact .last hwrapper hlast

theorem step_perform (h : ledger.registry.Consistent) (action : Action) :
    ledger.Step (ledger.perform action) := by
  cases action with
  | register cls =>
      simp only [perform]
      cases hregister : ledger.registry.registerClass cls with
      | error error => exact .idle
      | ok registry =>
          obtain ⟨classes, _, rfl⟩ := of_registerClass_eq_ok hregister
          exact .register classes
  | wrap known handle target ownership => exact step_wrap h known handle target ownership
  | clone id =>
      simp only [perform]
      split
      next hlive =>
        obtain ⟨wrapper, hwrapper, halive⟩ := (Option.any_eq_true _ _).1 hlive
        rw [retain_eq hwrapper]
        exact .clone hwrapper halive
      next => exact .idle
  | drop id =>
      by_cases hlive : ledger.registry.isLive id = true
      · exact step_drop h hlive
      · simp only [perform, hlive]
        exact .idle

/-! ## Runs -/

theorem Step.consistent (hstep : ledger.Step ledger') (h : ledger.registry.Consistent) :
    ledger'.registry.Consistent := by
  cases hstep with
  | idle => exact h
  | register classes => exact h.of_eq rfl rfl
  | empty => exact h
  | found hwrapper hlive =>
      exact h.replace hwrapper rfl rfl ((Wrapper.isLive_rewrapped _ _).trans hlive.symm) rfl
  | made hnull hfree => exact h.create hnull hfree
  | clone hwrapper hlive =>
      exact h.replace hwrapper rfl rfl ((Wrapper.isLive_cloned _).trans hlive.symm) rfl
  | shared hwrapper hmore =>
      have hlive := Wrapper.isLive_iff.2 (Nat.ne_zero_of_lt hmore)
      exact h.replace hwrapper rfl rfl ((Wrapper.isLive_dropped hmore).trans hlive.symm) rfl
  | last hwrapper hlast =>
      refine h.die hwrapper (Wrapper.isLive_dropped_last hlast) rfl rfl ?_
      rw [Wrapper.isLive_iff, hlast]
      exact Nat.one_ne_zero

end Ledger

end Interop
