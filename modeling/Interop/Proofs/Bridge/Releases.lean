import Interop.Proofs.Bridge.Leftovers
import Interop.Proofs.Bridge.Records

/-! # What is left of a call

However a call ends, the blocks that its frame knows of are given back: those that serve the call
only in any case, and the records for the native side to fill unless the native function was entered
and reported no error. If nobody else takes a reference to them, they are gone then.
-/

namespace Interop

open Schema Relation Steps

variable {H : Host}

namespace Bridge

variable {env : Env H} {R : Bridge H → Bridge H → Prop} {bridge bridge' : Bridge H}
  {handle : Handle}

/-! ## Nobody takes references -/

/-- What happens to a bridge while nobody takes further references to blocks. -/
def Unshared (env : Env H) (bridge bridge' : Bridge H) : Prop :=
  Change env bridge bridge' ∧ ReflTransGen Heap.Own bridge.heap bridge'.heap

theorem permits_unshared (env : Env H) : Permits env (Unshared env) :=
  { shares_of_indifferent fun _ _ _ => ⟨.other rfl rfl rfl, .refl⟩ with
    heap := fun h => ⟨.heap h.step, .single h⟩
    register := fun h => ⟨.register h, .refl⟩
    registerClass := fun _ _ h => ⟨.registerClass h, .refl⟩
    link := fun _ _ => ⟨.other rfl rfl rfl, .refl⟩
    wrap := fun bridge handle target ownership => ⟨.wrap bridge handle target ownership, .refl⟩
    retain := fun bridge id => ⟨.retain bridge id, .refl⟩
    drop := fun bridge id => ⟨.drop bridge id, .refl⟩
    other := fun h => ⟨.other h.heap h.registry h.namespaces, h.heap ▸ .refl⟩ }

theorem changes_of_unshared (h : ReflTransGen (Unshared env) bridge bridge') :
    ReflTransGen (Change env) bridge bridge' :=
  ReflTransGen.mono (fun _ _ => And.left) _ _ h

theorem heap_of_unshared (h : ReflTransGen (Unshared env) bridge bridge') :
    ReflTransGen Heap.Own bridge.heap bridge'.heap := by
  induction h with
  | refl => exact .refl
  | tail _ hstep ih => exact ih.trans hstep.2

theorem next_le_of_unshared (h : ReflTransGen (Unshared env) bridge bridge') :
    bridge.heap.next ≤ bridge'.heap.next :=
  Heap.next_le_of_reflTransGen (Heap.steps_of_own (heap_of_unshared h))

theorem Governs.changes (h : Governs env (Unshared env)) : Governs env (Change env) :=
  { permits_change env with
    native := fun fn call => (h.native fn call).mono fun _ _ => And.left
    effect := fun fn call => (h.effect fn call).mono fun _ _ => And.left
    managed := fun fn captured args bridge =>
      changes_of_unshared (h.managed fn captured args bridge) }

/-! ## Giving blocks back -/

/-- A block is given back, or there is none and nothing happens. -/
theorem attempt_release_cases (env : Env H) (handle : Handle) (bridge : Bridge H) :
    (∃ heap, bridge.heap.unref handle = .ok heap ∧
        attempt (release env handle none) bridge = { bridge with heap }) ∨
      ∃ error, bridge.heap.unref handle = .error error ∧
        attempt (release env handle none) bridge = bridge := by
  unfold attempt release
  rw [get_bind]
  dsimp only [Option.bind_none]
  cases hunref : bridge.heap.unref handle with
  | ok heap => exact .inl ⟨heap, rfl, rfl⟩
  | error error => exact .inr ⟨error, rfl, rfl⟩

/-- A block with a single reference is gone once that is given back. -/
theorem free_release (hlone : bridge.heap.Lone handle.toNat) :
    (attempt (release env handle none) bridge).heap.Free handle.toNat := by
  rcases attempt_release_cases env handle bridge with ⟨heap, hunref, hafter⟩ | ⟨_, hunref, hafter⟩
  · rw [hafter]
    exact Heap.free_unref hlone hunref
  · rw [hafter]
    exact Heap.free_of_unref_eq_error hunref

/-- What is free stays free, though the heap has come past it. -/
theorem free_of_run {addr : Nat} (hfree : bridge.heap.Free addr) (hspaced : bridge.heap.Spaced)
    (hbound : addr < bridge.heap.next) (hrun : ReflTransGen (Change env) bridge bridge') :
    bridge'.heap.Free addr :=
  hfree.of_run hspaced (heap_of_changes hrun) hbound

/-- Gives back one reference to each of the blocks. -/
def releaseAll (env : Env H) (handles : List Handle) (bridge : Bridge H) : Bridge H :=
  handles.foldl (fun bridge handle => attempt (release env handle none) bridge) bridge

theorem discardRecords_eq (env : Env H) (frame : Frame) (bridge : Bridge H) :
    bridge.discardRecords env frame = bridge.releaseAll env (frame.records.map (·.2)) := by
  rw [discardRecords, releaseAll, List.foldl_map]

theorem releaseFrame_eq (env : Env H) (frame : Frame) (bridge : Bridge H) :
    bridge.releaseFrame env frame =
      ((frame.callTokens.foldl (fun bridge token => (bridge.removeClosure env token).2)
        bridge).releaseAll env frame.scratch.toList).drop env frame.held := by
  rw [releaseFrame, releaseAll, Array.foldl_toList]

/-- Giving up values that keep nothing alive changes nothing. -/
theorem drop_eq_of_sharesOf_eq_nil {values : List Value} (h : Value.sharesOf values = []) :
    bridge.drop env values = bridge := by
  rw [drop, h, giveUp]
  exact Nat.succ_ne_zero _

theorem registry_releaseAll (env : Env H) (handles : List Handle) (bridge : Bridge H) :
    (bridge.releaseAll env handles).registry = bridge.registry := by
  induction handles generalizing bridge with
  | nil => rfl
  | cons first rest ih =>
      refine (ih (attempt (release env first none) bridge)).trans ?_
      rcases attempt_release_cases env first bridge with ⟨heap, _, hafter⟩ | ⟨_, _, hafter⟩ <;>
        rw [hafter]

theorem Settles.releaseAll (h : Settles env R) (handles : List Handle) (bridge : Bridge H) :
    ReflTransGen R bridge (bridge.releaseAll env handles) :=
  foldl_runs (fun bridge handle => h.attempt_release handle none bridge) handles bridge

/-- No block comes to lie at an address while others are given back. -/
theorem free_releaseAll_of_free {addr : Nat} (hfree : bridge.heap.Free addr)
    (handles : List Handle) : (bridge.releaseAll env handles).heap.Free addr := by
  induction handles generalizing bridge with
  | nil => exact hfree
  | cons first rest ih =>
      have hkept : (attempt (release env first none) bridge).heap.Free addr := by
        rcases attempt_release_cases env first bridge with ⟨heap, hunref, hafter⟩ | ⟨_, _, hafter⟩
        · rw [hafter]
          exact hfree.of_unref_eq_ok hunref
        · rwa [hafter]
      exact ih hkept

/-- By induction over the blocks that are given back one after the other. -/
theorem free_releaseAll {handles : List Handle} (hlone : bridge.heap.Lone handle.toNat)
    (hmem : handle ∈ handles) : (bridge.releaseAll env handles).heap.Free handle.toNat := by
  induction handles generalizing bridge with
  | nil => cases hmem
  | cons first rest ih =>
      rcases List.mem_cons.1 hmem with rfl | hrest
      · exact free_releaseAll_of_free (free_release hlone) rest
      · have hkept : (attempt (release env first none) bridge).heap.Lone handle.toNat := by
          rcases attempt_release_cases env first bridge with ⟨heap, hunref, hafter⟩ | ⟨_, _, hafter⟩
          · rw [hafter]
            exact hlone.of_unref_eq_ok hunref
          · rwa [hafter]
        exact ih hkept hrest

theorem free_discardRecords {frame : Frame} (hlone : bridge.heap.Lone handle.toNat)
    (hmem : handle ∈ frame.records.map (·.2)) :
    (bridge.discardRecords env frame).heap.Free handle.toNat := by
  rw [discardRecords_eq]
  exact free_releaseAll hlone hmem

theorem free_releaseFrame {start : Nat} {frame : Frame} (hgoverns : Governs env (Unshared env))
    (h : bridge.heap.Fresh start) (hstart : start ≤ handle.toNat)
    (hbound : handle.toNat < bridge.heap.next) (hmem : handle ∈ frame.scratch) :
    (bridge.releaseFrame env frame).heap.Free handle.toNat := by
  rw [releaseFrame_eq]
  have hclosed := hgoverns.closes.removeClosures frame.callTokens bridge
  generalize frame.callTokens.foldl (fun bridge token => (bridge.removeClosure env token).2)
    bridge = closed at hclosed
  have hfresh := h.of_run (heap_of_unshared hclosed)
  have hreleased := hgoverns.serves.releaseAll frame.scratch.toList closed
  have hfree : (closed.releaseAll env frame.scratch.toList).heap.Free handle.toNat :=
    free_releaseAll (hfresh.single.lone hstart) (Array.mem_toList_iff.2 hmem)
  exact free_of_run hfree (hfresh.of_run (heap_of_unshared hreleased)).spaced
    (Nat.lt_of_lt_of_le hbound (next_le_of_unshared (hclosed.trans hreleased)))
    (hgoverns.changes.serves.dropAll _ _)

/-! ## How a call ends -/

variable {plan : CallPlan} {receiver : Option Value}
  {values : List Value}

/-- The state in which the native arguments are made, or in which that stops. -/
def lowered (env : Env H) (plan : CallPlan) (receiver : Option Value) (values : List Value)
    (bridge : Bridge H) : Calling H :=
  ending (Lowering.lower env plan receiver values ⟨bridge, {}⟩)

theorem lower_eq_ok_of_isSome
    (h : (value? (Lowering.lower env plan receiver values ⟨bridge, {}⟩)).isSome = true) :
    Lowering.lower env plan receiver values ⟨bridge, {}⟩ =
      .ok ⟨⟩ ⟨(lowered env plan receiver values bridge).bridge,
        (lowered env plan receiver values bridge).frame⟩ :=
  eq_ok_of_isSome ⟨⟩ h

/-- The native function was entered and came back without an error. -/
def Answered (env : Env H) (plan : CallPlan) (receiver : Option Value) (values : List Value)
    (bridge : Bridge H) : Prop :=
  ∃ raw calling, enterPlan env plan receiver values ⟨bridge, {}⟩ = .ok raw calling ∧
    ∀ error after, pendingError env plan calling.frame calling.bridge ≠ .ok (some error) after

/-- What a call comes to whose native arguments are made up to a state: the values are refused, the
native function does not come back, what comes back cannot be converted, or it can. -/
inductive InvokeCase (env : Env H) (R : Bridge H → Bridge H → Prop) (plan : CallPlan)
    (receiver : Option Value) (values : List Value) (bridge : Bridge H) (calling : Calling H) :
    EStateM.Result BindError (Bridge H) CallResult → Prop
  | refused (error : BindError) :
      InvokeCase env R plan receiver values bridge calling (.error error bridge)
  | abandoned {reached : Bridge H} (error : BindError)
      (hrun : ReflTransGen R calling.bridge reached)
      (hentered : enterPlan env plan receiver values ⟨bridge, {}⟩ =
        .error error ⟨reached, calling.frame⟩) :
      InvokeCase env R plan receiver values bridge calling
        (.error error ((reached.abandon env calling.frame).releaseFrame env calling.frame))
  | failed {reached after : Bridge H} {raw : Value} {error : BindError}
      (hrun : ReflTransGen R calling.bridge reached)
      (hentered : enterPlan env plan receiver values ⟨bridge, {}⟩ =
        .ok raw ⟨reached, calling.frame⟩)
      (hcomplete : complete env plan calling.frame raw reached = .error error after) :
      InvokeCase env R plan receiver values bridge calling
        (.error error (after.releaseFrame env calling.frame))
  | completed {reached after : Bridge H} {raw : Value} {result : CallResult}
      (hrun : ReflTransGen R calling.bridge reached)
      (hlisted : Lowering.Listed env plan.args calling.frame)
      (hentered : enterPlan env plan receiver values ⟨bridge, {}⟩ =
        .ok raw ⟨reached, calling.frame⟩)
      (hcomplete : complete env plan calling.frame raw reached = .ok result after) :
      InvokeCase env R plan receiver values bridge calling
        (.ok result (after.releaseFrame env calling.frame))

theorem onBridge_cases {α : Type} (step : Run H α) (calling : Calling H) :
    (∃ value, Lowering.onBridge step calling =
        .ok value { calling with bridge := ending (step calling.bridge) }) ∨
      ∃ error, Lowering.onBridge step calling =
        .error error { calling with bridge := ending (step calling.bridge) } := by
  unfold Lowering.onBridge
  cases step calling.bridge with
  | ok value after => exact .inl ⟨value, rfl⟩
  | error error after => exact .inr ⟨error, rfl⟩

/-- Native code is entered when its arguments have been made. -/
theorem of_enterPlan_eq_ok
    (h : enterPlan env plan receiver values ⟨bridge, {}⟩ = .ok raw ⟨returned, frame⟩) :
    ∃ made, Lowering.lower env plan receiver values ⟨bridge, {}⟩ = .ok ⟨⟩ ⟨made, frame⟩ ∧
      enter env plan.library (plan.nativeCall frame) made = .ok raw returned := by
  obtain ⟨_, calling, hlower, hrest⟩ := of_bind_eq_ok h
  have hget : (get : Lowering H (Calling H)) calling = .ok calling calling := rfl
  rw [bind_eq_of_eq_ok hget] at hrest
  have hframe : calling.frame = frame := by
    rcases onBridge_cases _ calling with ⟨_, hends⟩ | ⟨_, hends⟩
    · cases hrest.symm.trans hends
      rfl
    · cases hrest.symm.trans hends
  subst hframe
  exact ⟨calling.bridge, hlower, of_inCall_eq_ok (Lowering.of_onBridge_eq_ok hrest)⟩

/-- Once the arguments are made native code is entered with them, and the frame stays as it is. -/
theorem enterPlan_eq_of_lower_eq_ok {calling : Calling H} {u : Unit}
    (hlower : Lowering.lower env plan receiver values ⟨bridge, {}⟩ = .ok u calling) :
    enterPlan env plan receiver values ⟨bridge, {}⟩ =
      Lowering.onBridge (inCall (enter env plan.library (plan.nativeCall calling.frame))) calling :=
  bind_eq_of_eq_ok hlower

theorem enterPlan_eq_ok {made : Bridge H}
    (hlower : Lowering.lower env plan receiver values ⟨bridge, {}⟩ = .ok ⟨⟩ ⟨made, frame⟩)
    (henter : enter env plan.library (plan.nativeCall frame) made = .ok raw returned) :
    enterPlan env plan receiver values ⟨bridge, {}⟩ = .ok raw ⟨returned, frame⟩ := by
  rw [enterPlan_eq_of_lower_eq_ok hlower]
  unfold Lowering.onBridge inCall
  rw [henter]

/-- A function of the host that is found under the plan's symbol is entered with the arguments that
have been made. -/
theorem enter_eq_ok_of_native_eq_ok {made ready : Bridge H} {fn : H.Native} {u : Unit}
    (hlower : Lowering.lower env plan receiver values ⟨bridge, {}⟩ = .ok u ⟨made, frame⟩)
    (hfind : bridge.symbols.find plan.library plan.symbol = .ok (.host fn))
    (hnative : env.native fn (plan.nativeCall frame) made = .ok raw ready) :
    ∃ given, enter env plan.library (plan.nativeCall frame) made =
      .ok given (if plan.returns.isNull then ready.drop env [raw] else ready) := by
  have hfound : made.symbols.find plan.library plan.symbol = .ok (.host fn) := by
    rw [Lowering.symbols_of_lower_eq_ok hlower]
    exact hfind
  have hrun : (NativeFn.host fn).run env (plan.nativeCall frame) made = .ok raw ready := hnative
  exact enter_eq_ok hrun hfound

/-- Entering native code leaves the frame alone. -/
theorem enterPlan_cases (h : Governs env R) (plan : CallPlan) (receiver : Option Value)
    (values : List Value) (bridge : Bridge H) :
    ∃ reached, ReflTransGen R (lowered env plan receiver values bridge).bridge reached ∧
      ((∃ error, enterPlan env plan receiver values ⟨bridge, {}⟩ =
          .error error ⟨reached, (lowered env plan receiver values bridge).frame⟩) ∨
        ∃ raw, enterPlan env plan receiver values ⟨bridge, {}⟩ =
          .ok raw ⟨reached, (lowered env plan receiver values bridge).frame⟩ ∧
          Lowering.Listed env plan.args (lowered env plan receiver values bridge).frame) := by
  unfold lowered
  cases hlower : Lowering.lower env plan receiver values ⟨bridge, {}⟩ with
  | error error calling =>
      exact ⟨calling.bridge, .refl, .inl ⟨error, bind_eq_of_eq_error hlower⟩⟩
  | ok u calling =>
      have hlisted := Lowering.listed_of_lower_eq_ok hlower
      have henter := enterPlan_eq_of_lower_eq_ok hlower
      have hrun := within_inCall (h.within_enter plan.library (plan.nativeCall calling.frame))
        calling.bridge
      rw [henter]
      refine ⟨_, hrun, ?_⟩
      rcases onBridge_cases (inCall (enter env plan.library (plan.nativeCall calling.frame)))
        calling with ⟨raw, hok⟩ | ⟨error, herror⟩
      · exact .inr ⟨raw, hok, hlisted⟩
      · exact .inl ⟨error, herror⟩

theorem invoke_eq_of_refused {error : BindError}
    (h : checkArity plan.name plan.params values bridge = .error error bridge) :
    invoke env plan receiver values bridge = .error error bridge :=
  bind_eq_of_eq_error h

theorem invoke_eq_of_accepted
    (h : checkArity plan.name plan.params values bridge = .ok ⟨⟩ bridge) :
    invoke env plan receiver values bridge =
      match enterPlan env plan receiver values ⟨bridge, {}⟩ with
      | .error error ⟨bridge, frame⟩ =>
        .error error ((bridge.abandon env frame).releaseFrame env frame)
      | .ok raw ⟨bridge, frame⟩ =>
        match complete env plan frame raw bridge with
        | .ok result bridge => .ok result (bridge.releaseFrame env frame)
        | .error error bridge => .error error (bridge.releaseFrame env frame) :=
  bind_eq_of_eq_ok h

theorem invoke_cases (h : Governs env R) (plan : CallPlan) (receiver : Option Value)
    (values : List Value) (bridge : Bridge H) :
    InvokeCase env R plan receiver values bridge (lowered env plan receiver values bridge)
      (invoke env plan receiver values bridge) := by
  rcases checkArity_accepts_or_refuses plan.name plan.params values bridge with
    haccepted | ⟨error, hrefused⟩
  · rw [invoke_eq_of_accepted haccepted]
    obtain ⟨reached, hrun, ⟨error, hentered⟩ | ⟨raw, hentered, hlisted⟩⟩ :=
      enterPlan_cases h plan receiver values bridge
    · rw [hentered]
      exact .abandoned error hrun hentered
    · rw [hentered]
      dsimp only
      cases hcomplete : complete env plan (lowered env plan receiver values bridge).frame raw
          reached with
      | ok result done => exact .completed hrun hlisted hentered hcomplete
      | error error done => exact .failed hrun hentered hcomplete
  · rw [invoke_eq_of_refused hrefused]
    exact .refused error

/-! ## What a call gives back -/

/-- A native error takes the records with it. -/
theorem complete_eq_of_pendingError {frame : Frame} {raw : Value} {error : NativeError}
    {after : Bridge H} (h : pendingError env plan frame bridge = .ok (some error) after) :
    complete env plan frame raw bridge =
      .error (.native error) ((after.discardRecords env frame).drop env [raw]) := by
  have hpending : orDrop env [raw] (inCall (pendingError env plan frame)) bridge =
      .ok (some error) after := by
    unfold orDrop inCall
    rw [h]
  exact bind_eq_of_eq_ok hpending

namespace InvokeCase

variable {calling : Calling H} {outcome : EStateM.Result BindError (Bridge H) CallResult}

/-- Unless the values are refused, the frame is released at last. -/
theorem exists_releaseFrame (hcase : InvokeCase env R plan receiver values bridge calling outcome)
    (h : Governs env R) : ending outcome = bridge ∨ ∃ reached,
      ReflTransGen R calling.bridge reached ∧
        ending outcome = reached.releaseFrame env calling.frame := by
  cases hcase with
  | refused error => exact .inl rfl
  | abandoned error hrun hentered =>
      exact .inr ⟨_, hrun.trans (h.closes.abandon calling.frame _), rfl⟩
  | @failed reached after raw error hrun hentered hcomplete =>
      have hcompleted := h.serves.within_complete plan calling.frame raw reached
      rw [hcomplete] at hcompleted
      exact .inr ⟨_, hrun.trans hcompleted, rfl⟩
  | completed hrun hlisted hentered hcomplete =>
      exact .inr
        ⟨_, hrun.trans ((h.serves.within_complete plan calling.frame _).of_eq_ok hcomplete), rfl⟩

/-- If the native function does not come back, or reports an error, the records are discarded. -/
theorem exists_discardRecords
    (hcase : InvokeCase env R plan receiver values bridge calling outcome) (h : Governs env R)
    (hanswered : ¬ Answered env plan receiver values bridge) :
    ending outcome = bridge ∨ ∃ reached, ReflTransGen R calling.bridge reached ∧
      ReflTransGen R (reached.discardRecords env calling.frame) (ending outcome) := by
  have hreports : ∀ raw reached,
      enterPlan env plan receiver values ⟨bridge, {}⟩ = .ok raw ⟨reached, calling.frame⟩ →
      ∃ error after, pendingError env plan calling.frame reached = .ok (some error) after := by
    intro raw reached hentered
    by_contra hnone
    exact hanswered ⟨raw, _, hentered, fun error after hpending => hnone ⟨error, after, hpending⟩⟩
  cases hcase with
  | refused error => exact .inl rfl
  | @abandoned reached error hrun hentered =>
      exact .inr ⟨_, hrun.trans (h.closes.removeClosures calling.frame.lastingTokens reached),
        h.closes.releaseFrame _ _⟩
  | @failed reached after raw error hrun hentered hcomplete =>
      obtain ⟨native, pending, hpending⟩ := hreports raw reached hentered
      rw [complete_eq_of_pendingError hpending] at hcomplete
      cases hcomplete
      refine .inr ⟨pending, hrun.trans ((h.serves.within_pendingError plan _).of_eq_ok hpending), ?_⟩
      exact (h.serves.dropAll [raw] _).trans (h.closes.releaseFrame _ _)
  | @completed reached after raw result hrun hlisted hentered hcomplete =>
      obtain ⟨native, pending, hpending⟩ := hreports raw reached hentered
      rw [complete_eq_of_pendingError hpending] at hcomplete
      cases hcomplete

section Left

variable (hcase : InvokeCase env (Unshared env) plan receiver values bridge calling outcome)
  (h : Governs env (Unshared env)) (hspaced : bridge.heap.Spaced)
include hcase h hspaced

/-- What is left of the blocks that have been made is some of them. -/
theorem left_sublist {made : List (Nat × Nat)}
    (hmade : calling.bridge.heap.entries = made.reverse ++ bridge.heap.entries) :
    ((ending outcome).heap.between bridge.heap.next calling.bridge.heap.next).Sublist made := by
  rcases hcase.exists_releaseFrame h with hsame | ⟨reached, hreached, hends⟩
  · rw [hsame, hspaced.between_next]
    exact List.nil_sublist made
  · have hreleased := hreached.trans (h.closes.releaseFrame calling.frame reached)
    rw [← hends] at hreleased
    exact Heap.between_sublist hspaced hmade (Heap.steps_of_own (heap_of_unshared hreleased))

omit hcase h in
/-- In every state behind, what was made for the call lies behind all that was there before. -/
theorem fresh_of_made (hrun : ReflTransGen (Unshared env) bridge calling.bridge)
    (hfits : calling.bridge.heap.next ≤ twoPow 64) {heap : Heap} {entry : Nat × Nat}
    (hmade : entry ∈ heap.between bridge.heap.next calling.bridge.heap.next) {reached : Bridge H}
    (hreached : ReflTransGen (Unshared env) calling.bridge reached) :
    (Handle.ofNat entry.1).toNat = entry.1 ∧ reached.heap.Fresh bridge.heap.next ∧
      bridge.heap.next ≤ (Handle.ofNat entry.1).toNat ∧
      (Handle.ofNat entry.1).toNat < reached.heap.next := by
  obtain ⟨_, hstart, hstop⟩ := Heap.mem_between_iff.1 hmade
  have haddr := Handle.toNat_ofNat_of_lt (Nat.lt_of_lt_of_le hstop hfits)
  have hfresh := (Heap.fresh_of_spaced hspaced).of_run (heap_of_unshared (hrun.trans hreached))
  rw [haddr]
  exact ⟨rfl, hfresh, hstart, Nat.lt_of_lt_of_le hstop (next_le_of_unshared hreached)⟩

variable (hrun : ReflTransGen (Unshared env) bridge calling.bridge)
  (hfits : calling.bridge.heap.next ≤ twoPow 64) {entry : Nat × Nat}
  (hleft : entry ∈ (ending outcome).heap.between bridge.heap.next calling.bridge.heap.next)
include hrun hfits hleft

/-- Nothing is left that serves the call only. -/
theorem notMem_scratch : Handle.ofNat entry.1 ∉ calling.frame.scratch := by
  intro hscratch
  rcases hcase.exists_releaseFrame h with hsame | ⟨reached, hreached, hends⟩
  · rw [hsame, hspaced.between_next] at hleft
    cases hleft
  · obtain ⟨haddr, hfresh, hstart, hbound⟩ := fresh_of_made hspaced hrun hfits hleft hreached
    have hfree := free_releaseFrame h hfresh hstart hbound hscratch
    rw [haddr, ← hends] at hfree
    exact hfree.notMem_between hleft

/-- A record is left only of a native function that came back and reported no error. -/
theorem answered_of_record (hrecord : Handle.ofNat entry.1 ∈ calling.frame.records.map (·.2)) :
    Answered env plan receiver values bridge := by
  by_contra hanswered
  rcases hcase.exists_discardRecords h hanswered with hsame | ⟨reached, hreached, hends⟩
  · rw [hsame, hspaced.between_next] at hleft
    cases hleft
  · obtain ⟨haddr, hfresh, hstart, hbound⟩ := fresh_of_made hspaced hrun hfits hleft hreached
    have hdiscarded := h.serves.discardRecords calling.frame reached
    have hfree := free_of_run
      (free_discardRecords (hfresh.single.lone hstart) hrecord)
      (hfresh.of_run (heap_of_unshared hdiscarded)).spaced
      (Nat.lt_of_lt_of_le hbound (next_le_of_unshared hdiscarded)) (changes_of_unshared hends)
    rw [haddr] at hfree
    exact hfree.notMem_between hleft

end Left

end InvokeCase

theorem HandsOver.of_run {result : CallResult} {after after' : Bridge H}
    (h : HandsOver result after handle) (hrun : ReflTransGen (Change env) after after') :
    HandsOver result after' handle := by
  obtain ⟨id, hmem, howns⟩ := h
  exact ⟨id, hmem, owns_of_run hrun howns⟩

/-- If a call succeeds, it hands over the records that the caller made. -/
theorem InvokeCase.handsOver {calling : Calling H} {result : CallResult} {after : Bridge H}
    (hcase : InvokeCase env (Unshared env) plan receiver values bridge calling (.ok result after))
    (h : Governs env (Unshared env)) (hattained : Attained env calling.bridge)
    (houtputs : ∀ (index : Nat) (arg : CallArg), plan.args[index]? = some arg →
      arg.source = .outSlot → index ∈ plan.outputs)
    (hrecord : handle ∈ calling.frame.records.map (·.2)) (hnull : handle.isNull = false) :
    HandsOver result after handle := by
  obtain ⟨record, hmem, rfl⟩ := List.mem_map.1 hrecord
  cases hcase with
  | completed hrun hlisted hentered hcomplete =>
      have hreached := hattained.trans (changes_of_unshared hrun)
      have hhands := handsOver_of_complete_eq_ok h.changes hreached hlisted houtputs hcomplete
        hmem hnull
      exact hhands.of_run (h.changes.closes.releaseFrame _ _)

/-- However a call of a plan that was built ends, of the blocks that were made for it there are left
at most those of arrays that are given away, those of texts that are stored in arrays and slots, and
records for the native side to fill. A record is left only if the native function came back and
reported no error, and if the call succeeds it is handed over with its reference. Addresses are
assumed to fit into 64 bits. -/
theorem left_of_invoke {builder : CallBuilder} {callable : Callable} {owner : Option Owner}
    {usage usage' : Usage} (h : Governs env (Unshared env)) (hattained : Attained env bridge)
    (hbuilt : builder.build callable owner usage = .ok plan usage')
    (hfits : (lowered env plan receiver values bridge).bridge.heap.next ≤ twoPow 64) :
    let calling := lowered env plan receiver values bridge
    let outcome := invoke env plan receiver values bridge
    let left := (ending outcome).heap.between bridge.heap.next calling.bridge.heap.next
    ((left.filter fun entry => .ofNat entry.1 ∉ calling.frame.records.map (·.2)).map (·.2)).Sublist
        (plan.lasting values) ∧
      ∀ entry ∈ left, .ofNat entry.1 ∈ calling.frame.records.map (·.2) →
        Answered env plan receiver values bridge ∧
          ∀ result after, outcome = .ok result after → HandsOver result after (.ofNat entry.1) := by
  intro calling outcome left
  have hspaced := hattained.spaced
  have hcase : InvokeCase env (Unshared env) plan receiver values bridge calling outcome :=
    invoke_cases h plan receiver values bridge
  have hrun : ReflTransGen (Unshared env) bridge calling.bridge :=
    Lowering.runs_of_follows (Lowering.within_lower h.toPermits plan receiver values ⟨bridge, {}⟩)
  obtain ⟨made, hmade, hsizes⟩ :=
    (Lowering.leaving_lower env plan receiver values ⟨bridge, {}⟩).made
  have hleft : left.Sublist made := hcase.left_sublist h hspaced hmade
  constructor
  -- what is noted to serve the call is gone, so only records are left of what is noted
  · have hunnoted : left.filter (fun entry => .ofNat entry.1 ∉ calling.frame.records.map (·.2)) =
        calling.unnoted left := by
      apply List.filter_congr
      intro entry hentry
      have hscratch := hcase.notMem_scratch h hspaced hrun hfits hentry
      rw [← Array.mem_toList_iff] at hscratch
      rw [decide_eq_decide, Calling.noted, List.mem_append, not_or]
      exact ⟨fun hrecord => ⟨hscratch, hrecord⟩, And.right⟩
    rw [hunnoted]
    exact ((hleft.filter _).map _).trans hsizes
  · intro entry hentry hrecord
    refine ⟨hcase.answered_of_record h hspaced hrun hfits hentry hrecord, ?_⟩
    intro result after hok
    obtain ⟨_, hstart, hstop⟩ := Heap.mem_between_iff.1 hentry
    obtain ⟨_, _, _, hbuilt⟩ := CallBuilder.exists_built_of_build hbuilt
    rw [hok] at hcase
    apply hcase.handsOver h (hattained.trans (changes_of_unshared hrun)) ?_ hrecord
    · rw [Handle.isNull_eq_false_iff, Handle.toNat_ofNat_of_lt (Nat.lt_of_lt_of_le hstop hfits)]
      have hlowest := hspaced.next_placed.2
      have hpos : 0 < Heap.lowest := by decide
      omega
    · intro index arg harg hsource
      exact hbuilt.mem_outputs_of_outSlot harg hsource

/-! ## Guests -/

/-- A program with one native function, which does nothing. -/
def greeter : Host := ⟨Unit, Empty, Unit⟩

def welcome : Namespace where
  name := "N"
  libraries := ["libn.so"]
  records := [{ name := "Guest", fields := [.shown "age" (.named "gint32")] }]

def greeterEnv : Env greeter where
  compiler := .ofRepository (.ofSpaces [welcome]) {}
  native _ _ := return .null
  effect _ _ := return ⟨⟩
  managed := nofun

theorem governs_greeterEnv : Governs greeterEnv (Unshared greeterEnv) :=
  { permits_unshared greeterEnv with
    native := fun _ _ => within_pure _
    effect := fun _ _ => within_pure _
    managed := nofun }

def guestNames : Param where
  name := "names"
  type := (TypeRef.named "utf8").arrayOf .terminated

/-- A function that takes names. -/
def greet : Callable := { name := "greet", symbol := "n_greet", params := [guestNames] }

/-- One that also fills a record. -/
def invite : Callable where
  name := "invite"
  symbol := "n_greet"
  params := [guestNames,
    { name := "guest", type := .named "Guest", direction := .output, callerAllocates := true }]

def guestPlan (callable : Callable) : CallPlan :=
  (value? ((greeterEnv.compiler.builder welcome).build callable none {})).getD default

theorem exists_build_guestPlan (callable : Callable)
    (h : (value? ((greeterEnv.compiler.builder welcome).build callable none {})).isSome = true) :
    ∃ usage, (greeterEnv.compiler.builder welcome).build callable none {} =
      .ok (guestPlan callable) usage :=
  ⟨_, eq_ok_of_isSome default h⟩

/-- The state in which there is the native function. -/
def greeterBridge : Bridge greeter :=
  { (start () : Bridge greeter) with
    symbols := (start () : Bridge greeter).symbols.define "libn.so" "n_greet" (.host ()) }

theorem attained_greeterBridge : Attained greeterEnv greeterBridge :=
  ⟨(), .single (.other rfl rfl rfl)⟩

def guests : List Value := [.array [.string "a", .string "bc"]]

/-- The state in which the arguments of a call with these names are made. -/
def greeting (callable : Callable) : Calling greeter :=
  lowered greeterEnv (guestPlan callable) none guests greeterBridge

/-- What such a call comes to. -/
def greeted (callable : Callable) : EStateM.Result BindError (Bridge greeter) CallResult :=
  invoke greeterEnv (guestPlan callable) none guests greeterBridge

/-- The record is handed over. Besides it two texts are left, and no array or slot. -/
theorem guest_handed_over :
    (greeting invite).bridge.heap.next ≤ twoPow 64 ∧
      (guestPlan invite).lasting guests = [2, 3] ∧
      ∃ result after, greeted invite = .ok result after ∧
        after.heap.between greeterBridge.heap.next (greeting invite).bridge.heap.next =
          [(4144, 2), (4176, 3), (4208, 4)] ∧
        Answered greeterEnv (guestPlan invite) none guests greeterBridge ∧
        HandsOver result after (.ofNat 4208) := by
  obtain ⟨usage, hbuilt⟩ := exists_build_guestPlan invite (by decide +kernel)
  have hfits : (greeting invite).bridge.heap.next ≤ twoPow 64 := by decide +kernel
  have hsome : (value? (greeted invite)).isSome = true := by decide +kernel
  have hleft : (ending (greeted invite)).heap.between greeterBridge.heap.next
      (greeting invite).bridge.heap.next = [(4144, 2), (4176, 3), (4208, 4)] := by decide +kernel
  obtain ⟨_, hrecords⟩ :=
    @left_of_invoke _ _ _ _ none guests _ _ _ _ _ governs_greeterEnv attained_greeterBridge hbuilt
      hfits
  have hmem : (4208, 4) ∈ (ending (greeted invite)).heap.between greeterBridge.heap.next
      (greeting invite).bridge.heap.next := by
    rw [hleft]
    simp
  obtain ⟨hanswered, hhands⟩ := hrecords (4208, 4) hmem (by decide +kernel)
  have hok := eq_ok_of_isSome default hsome
  exact ⟨hfits, by decide +kernel, _, _, hok, hleft, hanswered, hhands _ _ hok⟩

/-- A call succeeds whose native function leaves the heap alone, that gives no array away and makes
no record, and two blocks that were made for it are left. -/
theorem greeted_texts_left :
    (∃ usage, (greeterEnv.compiler.builder welcome).build greet none {} =
        .ok (guestPlan greet) usage) ∧
      (∀ fn call bridge, (ending (greeterEnv.native fn call bridge)).heap = bridge.heap) ∧
      (guestPlan greet).args.map (·.descriptor.ownership?) = [some .none] ∧
      (greeting greet).frame.records = [] ∧
      failure? (greeted greet) = none ∧
      greeterBridge.heap.entries = [] ∧
      (greeting greet).bridge.heap.entries = [(4176, 3), (4144, 2), (4096, 24)] ∧
      (ending (greeted greet)).heap.entries = [(4176, 3), (4144, 2)] := by
  refine ⟨exists_build_guestPlan greet (by decide +kernel), fun _ _ _ => rfl, ?_⟩
  decide +kernel

end Bridge

end Interop
