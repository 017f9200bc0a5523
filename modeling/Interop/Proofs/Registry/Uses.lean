import Interop.Proofs.Registry.Ledger

/-! # Using a registry while it is used

While a handle is wrapped, code from outside may be asked for the class of the handle and for what
the new wrapper carries along. This code may use the registry as well, and so may what is run for
it. A handle still has one face, at every moment, unless code that is run for a wrap of the handle
wraps it too.
-/

namespace Interop

open Registry

/-- What users of a registry do. They can clone and drop only the wrappers that they have. -/
inductive Use where
  | register (cls : NativeClass)
  /-- The class of the handle is the `answer` after the uses `asked`; what the wrapper carries along
  is made with the uses `built`. -/
  | wrap (handle : Handle) (target : Option String) (ownership : Ownership)
      (answer : Registry → Except IdentityError NativeClass) (asked built : List Use)
  | clone (id : WrapperId)
  | drop (id : WrapperId)

namespace Registry

/-- The code that is run for a wrap leaves the registry changed. -/
def Interlude.using (answer : Registry → Except IdentityError NativeClass)
    (ask build : Registry → Registry) : Interlude where
  classOf registry := (answer (ask registry), ask registry)
  payload := build

end Registry

namespace Use

/-- A wrap during which the registry is not used. -/
def plain (known : Introspection) (handle : Handle) (target : Option String)
    (ownership : Ownership) : Use :=
  .wrap handle target ownership (fun registry => registry.classOf known handle) [] []

mutual

/-- The state after a use, whether it succeeds or fails. -/
def perform : Use → Registry → Registry
  | .register cls, registry =>
    match registry.registerClass cls with
    | .ok registry => registry
    | .error _ => registry
  | .wrap handle target ownership answer asked built, registry =>
    (registry.wrapAmid handle target ownership
      (.using answer (performAll asked) (performAll built))).2
  | .clone id, registry => if registry.isLive id then registry.retain id else registry
  | .drop id, registry => if registry.isLive id then (registry.drop id).2 else registry

def performAll : List Use → Registry → Registry
  | [], registry => registry
  | use :: rest, registry => performAll rest (use.perform registry)

end

mutual

/-- Whether a handle is wrapped, be it by code that is run for another wrap. -/
def wraps (handle : Handle) : Use → Bool
  | .wrap other _ _ _ asked built => other == handle || (wrapsAny handle asked ||
    wrapsAny handle built)
  | .register _ | .clone _ | .drop _ => false

def wrapsAny (handle : Handle) : List Use → Bool
  | [] => false
  | use :: rest => use.wraps handle || wrapsAny handle rest

end

mutual

/-- Whether the code that is run for a wrap never wraps the same handle. -/
def discreet : Use → Bool
  | .wrap handle _ _ _ asked built =>
    !wrapsAny handle asked && !wrapsAny handle built && allDiscreet asked && allDiscreet built
  | .register _ | .clone _ | .drop _ => true

def allDiscreet : List Use → Bool
  | [] => true
  | use :: rest => use.discreet && allDiscreet rest

end

/-- The states that are seen while a registry is used: between any two uses, and by the code that is
run for a wrap. -/
inductive Reaches : List Use → Registry → Registry → Prop
  | here (uses : List Use) (registry : Registry) : Reaches uses registry registry
  | after {use : Use} {rest : List Use} {registry found : Registry}
      (h : Reaches rest (use.perform registry) found) : Reaches (use :: rest) registry found
  | asking {handle : Handle} {target : Option String} {ownership : Ownership}
      {answer : Registry → Except IdentityError NativeClass} {asked built rest : List Use}
      {registry found : Registry} (h : Reaches asked (registry.sweep handle) found) :
      Reaches (.wrap handle target ownership answer asked built :: rest) registry found
  /-- The class has been given with the handle, or has been asked for. -/
  | building {handle : Handle} {target : Option String} {ownership : Ownership}
      {answer : Registry → Except IdentityError NativeClass} {asked built rest : List Use}
      {registry before found : Registry}
      (hbefore : before = registry ∨ before = registry.sweep handle ∨
        before = performAll asked (registry.sweep handle))
      (h : Reaches built before found) :
      Reaches (.wrap handle target ownership answer asked built :: rest) registry found

theorem reaches_performAll (uses : List Use) (registry : Registry) :
    Reaches uses registry (performAll uses registry) := by
  induction uses generalizing registry with
  | nil => exact .here [] registry
  | cons use rest ih => exact .after (ih (use.perform registry))

/-- What is done while the registry is not used otherwise. -/
def ofAction : Ledger.Action → Use
  | .register cls => .register cls
  | .wrap known handle target ownership => plain known handle target ownership
  | .clone id => .clone id
  | .drop id => .drop id

theorem registry_perform (ledger : Ledger) (action : Ledger.Action) :
    (ledger.perform action).registry = (ofAction action).perform ledger.registry := by
  cases action with
  | register cls =>
      simp only [Ledger.perform, ofAction, perform]
      cases ledger.registry.registerClass cls <;> rfl
  | wrap known handle target ownership =>
      change _ = (ledger.registry.wrap known handle target ownership).2
      simp only [Ledger.perform]
      split
      next hwrap => rw [hwrap, Ledger.wrapped]
      next hwrap => rw [hwrap]
  | clone id =>
      simp only [Ledger.perform, ofAction, perform]
      split <;> rfl
  | drop id =>
      simp only [Ledger.perform, ofAction, perform]
      split <;> rfl

theorem registry_foldl_perform (ledger : Ledger) (actions : List Ledger.Action) :
    (actions.foldl Ledger.perform ledger).registry =
      performAll (actions.map ofAction) ledger.registry := by
  induction actions generalizing ledger with
  | nil => rfl
  | cons action rest ih =>
      rw [List.foldl_cons, ih, registry_perform]
      rfl

theorem allDiscreet_map_ofAction (actions : List Ledger.Action) :
    allDiscreet (actions.map ofAction) = true := by
  induction actions with
  | nil => rfl
  | cons action rest ih =>
      rw [List.map_cons, allDiscreet, ih, Bool.and_true]
      cases action <;> rfl

/-- The states of a ledger are reached by uses one after the other, and these are discreet. -/
theorem exists_reaches_ledger (releases : Bool) (actions : List Ledger.Action) :
    ∃ uses, allDiscreet uses = true ∧
      Reaches uses { releases } (Ledger.performAll releases actions).registry := by
  refine ⟨actions.map ofAction, allDiscreet_map_ofAction actions, ?_⟩
  rw [Ledger.performAll, registry_foldl_perform]
  exact reaches_performAll _ _

end Use

namespace Registry

/-- These are all the states that code run for a wrap sees. -/
theorem wrapAmid_congr {registry : Registry} {handle : Handle} {target : Option String}
    {ownership : Ownership} {amid other : Interlude}
    (hasked : amid.classOf (registry.sweep handle) = other.classOf (registry.sweep handle))
    (hbuilt : ∀ before, before = registry ∨ before = registry.sweep handle ∨
      before = (amid.classOf (registry.sweep handle)).2 →
        amid.payload before = other.payload before) :
    registry.wrapAmid handle target ownership amid =
      registry.wrapAmid handle target ownership other := by
  unfold wrapAmid
  split
  next => rfl
  split
  next => rfl
  next class? _ =>
    cases hkeeps : class?.all fun cls => cls.kind.usesIdentityTable with
    | false =>
        cases class? with
        | none => cases hkeeps
        | some cls => simp [hbuilt registry (.inl rfl)]
    | true =>
        rcases lookup_cases registry handle with ⟨id, _, _, _, _, hlookup⟩ | ⟨_, hlookup⟩
        · simp only [hlookup, if_true]
        · cases class? with
          | none =>
              simp only [hlookup, if_true, Option.elim_none, ← hasked]
              split
              next => rfl
              next asked hanswer => simp only [hbuilt asked (.inr (.inr (by rw [hanswer])))]
          | some cls => simp [hlookup, hbuilt _ (.inr (.inl rfl))]

variable {registry registry' registry'' : Registry} {handle : Handle} {id : WrapperId}
  {target : Option String} {ownership : Ownership} {amid : Interlude}

/-! ## What uses keep -/

/-- The table of identities stays consistent, and handles that are not wrapped get no faces. -/
structure Sound (wraps : Handle → Bool) (registry registry' : Registry) : Prop where
  consistent : registry'.Consistent
  faceless : ∀ handle, wraps handle = false → (∀ id, ¬ registry.Face handle id) →
    ∀ id, ¬ registry'.Face handle id

theorem Sound.refl {wraps : Handle → Bool} (h : registry.Consistent) :
    Sound wraps registry registry :=
  ⟨h, fun _ _ hnone => hnone⟩

theorem Sound.trans {first second : Handle → Bool} (h : Sound first registry registry')
    (h' : Sound second registry' registry'') :
    Sound (fun handle => first handle || second handle) registry registry'' := by
  refine ⟨h'.consistent, fun handle hwraps hnone => ?_⟩
  obtain ⟨hfirst, hsecond⟩ := Bool.or_eq_false_iff.1 hwraps
  exact h'.faceless handle hsecond (h.faceless handle hfirst hnone)

theorem Sound.mono {some all : Handle → Bool} (h : Sound some registry registry')
    (hle : ∀ handle, all handle = false → some handle = false) : Sound all registry registry' :=
  ⟨h.consistent, fun handle hwraps => h.faceless handle (hle handle hwraps)⟩

/-- No face comes about. -/
theorem Sound.of_face {wraps : Handle → Bool} (h : registry'.Consistent)
    (hface : ∀ handle id, registry'.Face handle id → registry.Face handle id) :
    Sound wraps registry registry' :=
  ⟨h, fun handle _ hnone id hmade => hnone id (hface handle id hmade)⟩

theorem Sound.registerClass {wraps : Handle → Bool} (h : registry.Consistent) {cls : NativeClass}
    (hregister : registry.registerClass cls = .ok registry') : Sound wraps registry registry' := by
  obtain ⟨classes, _, rfl⟩ := of_registerClass_eq_ok hregister
  exact .of_face (h.of_eq rfl rfl) fun _ _ hface => hface

/-- A wrapper that stays alive makes no face. -/
theorem Sound.replace {wraps : Handle → Bool} {wrapper new : Wrapper} (h : registry.Consistent)
    (hwrapper : registry.wrapper? id = some wrapper) (hhandle : new.handle = wrapper.handle)
    (hcls : new.cls = wrapper.cls) (hlive : new.isLive = wrapper.isLive)
    (hforeign : new.foreign = wrapper.foreign) :
    Sound wraps registry (registry.replace id new) :=
  .of_face (h.replace hwrapper hhandle hcls hlive hforeign) fun _ _ =>
    (face_replace_iff hwrapper hhandle hcls hlive).1

theorem Sound.retain {wraps : Handle → Bool} (h : registry.Consistent)
    (hlive : registry.isLive id = true) : Sound wraps registry (registry.retain id) := by
  obtain ⟨wrapper, hwrapper, halive⟩ := (Option.any_eq_true _ _).1 hlive
  rw [retain_eq hwrapper]
  exact .replace h hwrapper rfl rfl ((Wrapper.isLive_cloned wrapper).trans halive.symm) rfl

theorem face_sweep_iff {found : Handle} :
    (registry.sweep handle).Face found id ↔ registry.Face found id := by
  obtain ⟨identities, hsweep⟩ := registry.exists_sweep_eq handle
  rw [hsweep]
  exact Iff.rfl

theorem Sound.drop {wraps : Handle → Bool} (h : registry.Consistent)
    (hlive : registry.isLive id = true) : Sound wraps registry (registry.drop id).2 := by
  obtain ⟨wrapper, hwrapper, halive⟩ := (Option.any_eq_true _ _).1 hlive
  have hcase := drop_cases hwrapper
  generalize registry.drop id = outcome at hcase
  cases hcase with
  | shared hshared =>
      have hone : wrapper.strong ≠ 1 := hshared.resolve_right (by simp [(h.own _ _ hwrapper).1])
      have hpos := Wrapper.isLive_iff.1 halive
      have hdropped := @Wrapper.isLive_dropped wrapper (by omega)
      exact .replace h hwrapper rfl rfl (hdropped.trans halive.symm) rfl
  | last hlast =>
      have hdead := Wrapper.isLive_dropped_last hlast
      refine .of_face (h.die hwrapper hdead rfl rfl halive) fun handle other hface => ?_
      exact ((face_replace_iff_of_dead hwrapper hdead).1 (face_sweep_iff.1 hface)).2

/-- A handle without a face has none after code has been run for its wrap, so that its new wrapper
becomes its only face. -/
theorem Sound.wrapAmid {ask build : Handle → Bool} (h : registry.Consistent)
    (hask : Sound ask registry (amid.classOf registry).2)
    (hbuild : ∀ asked, asked.Consistent → Sound build asked (amid.payload asked))
    (hasks : ask handle = false) (hbuilds : build handle = false) :
    Sound (fun other => handle == other || (ask other || build other)) registry
      (registry.wrapAmid handle target ownership amid).2 := by
  have hcase := registry.wrapAmid_cases handle target ownership amid
  generalize registry.wrapAmid handle target ownership amid = outcome at hcase
  cases hcase with
  | null => exact .refl h
  | untried => exact .refl h
  | failed hasked =>
      rw [h.sweep_eq] at hasked
      rw [hasked] at hask
      refine hask.mono fun other hwraps => ?_
      exact (Bool.or_eq_false_iff.1 (Bool.or_eq_false_iff.1 hwraps).2).1
  | @found id wrapper hnull hentry hwrapper hlive =>
      exact .replace h hwrapper rfl rfl ((wrapper.isLive_rewrapped _).trans hlive.symm) rfl
  | @made cls swept asked built hnull hswept hfree hasked hbuilt =>
      obtain rfl : swept = registry := hswept.elim id fun hswept => hswept.trans (h.sweep_eq handle)
      have hasked : Sound ask swept asked := by
        rcases hasked with rfl | hasked
        · exact .refl h
        · rwa [hasked] at hask
      have hbuilt : Sound build asked built := by
        rcases hbuilt with rfl | rfl
        · exact .refl hasked.consistent
        · exact hbuild asked hasked.consistent
      have hmeanwhile := hasked.trans hbuilt
      have hfree : cls.kind ≠ .struct → built.identities.lookup handle = none := by
        intro hkind
        rw [Option.eq_none_iff_forall_ne_some]
        intro id hentry
        refine hmeanwhile.faceless handle (by simp [hasks, hbuilds]) (fun other hface => ?_) id
          (hmeanwhile.consistent.lookup_eq_some_iff.1 hentry)
        have hfound := h.lookup_eq_some_iff.2 hface
        rw [hfree hkind] at hfound
        cases hfound
      refine ⟨hmeanwhile.consistent.create hnull hfree, fun other hwraps hnone id hface => ?_⟩
      obtain ⟨hother, hwraps⟩ := Bool.or_eq_false_iff.1 hwraps
      rcases face_create_iff.1 hface with ⟨_, hsame, _⟩ | hbefore
      · exact ne_of_beq_false hother hsame
      · exact hmeanwhile.faceless other hwraps hnone id hbefore

end Registry

namespace Use

variable {registry found : Registry}

mutual

theorem sound_perform : ∀ (use : Use) (registry : Registry), registry.Consistent →
    use.discreet = true → Sound use.wraps registry (use.perform registry)
  | .register cls, registry, h, _ => by
    rw [perform]
    split
    next hregister => exact .registerClass h hregister
    next => exact .refl h
  | .wrap handle target ownership answer asked built, registry, h, hdiscreet => by
    simp only [discreet, Bool.and_eq_true, Bool.not_eq_true'] at hdiscreet
    obtain ⟨⟨⟨hasks, hbuilds⟩, hasked⟩, hbuilt⟩ := hdiscreet
    exact .wrapAmid h (sound_performAll asked registry h hasked)
      (fun registry h => sound_performAll built registry h hbuilt) hasks hbuilds
  | .clone id, registry, h, _ => by
    rw [perform]
    split
    next hlive => exact .retain h hlive
    next => exact .refl h
  | .drop id, registry, h, _ => by
    rw [perform]
    split
    next hlive => exact .drop h hlive
    next => exact .refl h

theorem sound_performAll : ∀ (uses : List Use) (registry : Registry), registry.Consistent →
    allDiscreet uses = true → Sound (wrapsAny · uses) registry (performAll uses registry)
  | [], registry, h, _ => .refl h
  | use :: rest, registry, h, hdiscreet => by
    simp only [allDiscreet, Bool.and_eq_true] at hdiscreet
    have huse := sound_perform use registry h hdiscreet.1
    have hrest := sound_performAll rest (use.perform registry) huse.consistent hdiscreet.2
    exact huse.trans hrest

end

/-- A native that is wrapped while its own label is made has two faces. -/
example :
    let handle := Handle.ofNat 0x1000
    let again : Use := .plain .blind handle (some "A") .none
    let registry := performAll [.register { NativeClass.named "A" .gobject with
        payload := some fun _ => "label" },
      .wrap handle (some "A") .none (fun _ => .error (.unknownClass "A")) [] [again]] {}
    registry.Face handle ⟨0⟩ ∧ registry.Face handle ⟨1⟩ := by
  decide +kernel

end Use

end Interop
