import Interop.Bridge.Async
import Interop.Bridge.Callback
import Interop.Proofs.Bridge.Changes
import Interop.Proofs.Bridge.Lowering

/-! # Calls, callbacks and asynchronous operations

A call lowers its arguments, enters native code, lifts what comes back and gives up what it made on
the way. All of that is a run of permitted changes, wherever the call fails, and so is invoking a
callback and starting or finishing an asynchronous operation, and whatever users of a bridge do one
after the other.
-/

namespace Interop

open Schema Relation Steps

variable {H : Host}

/-- The call that native code gets. -/
def CallPlan.nativeCall (plan : CallPlan) (frame : Frame) : NativeCall where
  symbol := plan.symbol
  args := frame.args.toList
  returns := plan.returns

namespace Bridge

variable {env : Env H} {R : Bridge H → Bridge H → Prop} {α : Type}

/-! ## Tokens and completions -/

theorem Closes.removeClosure (h : Closes env R) (token : Nat) (bridge : Bridge H) :
    ReflTransGen R bridge (removeClosure env token bridge).2 := by
  unfold Bridge.removeClosure
  split
  next => exact .refl
  next callback _ =>
    have hremoved : ReflTransGen R bridge
        { bridge with closures := bridge.closures.remove token } :=
      .single (h.other ⟨rfl, rfl, rfl, rfl, rfl, rfl, rfl⟩)
    exact hremoved.trans (h.dropAll [.callback callback] _)

theorem modifyCompletion_eq {bridge : Bridge H} {id : CompletionId} {completion : Completion}
    {f : Completion → Completion}
    (h : ∀ old, bridge.completions[id.index]? = some old → f old = completion) :
    bridge.modifyCompletion id f =
      { bridge with completions := bridge.completions.setIfInBounds id.index completion } := by
  have hset : bridge.completions.modify id.index f =
      bridge.completions.setIfInBounds id.index completion := by
    apply Array.ext_getElem?
    intro index
    rw [Array.getElem?_modify, Array.getElem?_setIfInBounds]
    grind
  rw [modifyCompletion, hset]

theorem behaviour?_modifyCallback (bridge : Bridge H) (id other : CallbackId)
    {f : CallbackCell H → CallbackCell H} (hf : ∀ cell, (f cell).behaviour = cell.behaviour) :
    (bridge.modifyCallback id f).behaviour? other = bridge.behaviour? other := by
  simp only [behaviour?, modifyCallback, Array.getElem?_modify]
  split
  next => simp [Option.map_map, Function.comp_def, hf]
  next => rfl

theorem behaviour?_retain (value : Value) (bridge : Bridge H) (id : CallbackId) :
    (retain value bridge).behaviour? id = bridge.behaviour? id := by
  unfold retain
  induction value.shares generalizing bridge with
  | nil => rfl
  | cons share rest ih =>
      rw [List.foldl_cons, ih]
      cases share with
      | wrapper => rfl
      | callback other => exact behaviour?_modifyCallback bridge other id fun _ => rfl

theorem modifyCompletion_eq_self {bridge : Bridge H} {id : CompletionId}
    {f : Completion → Completion}
    (h : ∀ old, bridge.completions[id.index]? = some old → f old = old) :
    bridge.modifyCompletion id f = bridge := by
  have hsame : bridge.completions.modify id.index f = bridge.completions := by
    apply Array.ext_getElem?
    intro index
    rw [Array.getElem?_modify]
    grind
  rw [modifyCompletion, hsame]

/-- A token is kept by a completion that waits, and given up by any other. -/
theorem deliver_eq (env : Env H) (id : CompletionId) (token : Value) (bridge : Bridge H) :
    bridge.deliver env id token = bridge.modifyCompletion id (.accept token) ∨
      bridge.deliver env id token =
        (bridge.modifyCompletion id (.accept token)).drop env [token] := by
  unfold Bridge.deliver
  split
  next hwaiting =>
    refine .inl (modifyCompletion_eq fun old hold => ?_).symm
    rw [hwaiting] at hold
    cases hold
    rfl
  next hother =>
    refine .inr (congrArg _ (modifyCompletion_eq_self fun old hold => ?_).symm)
    cases old with
    | waiting => exact absurd hold hother
    | _ => rfl

theorem Settles.deliver (h : Settles env R) {ready : CallbackId} {id : CompletionId}
    {bridge : Bridge H} (hready : bridge.behaviour? ready = some (.ready id)) (token : Value) :
    ReflTransGen R bridge (deliver env id token bridge) := by
  have haccepted : ReflTransGen R bridge (bridge.modifyCompletion id (.accept token)) :=
    .single (h.accept hready token)
  rcases deliver_eq env id token bridge with hkept | hdropped
  · rwa [hkept]
  · rw [hdropped]
    exact haccepted.trans (h.dropAll _ _)

theorem Settles.closeCompletion (h : Settles env R) (id : CompletionId) (bridge : Bridge H) :
    ReflTransGen R bridge (closeCompletion env id bridge) := by
  have hclosed : ReflTransGen R bridge (bridge.modifyCompletion id fun _ => .closed) :=
    .single (h.close bridge id)
  unfold Bridge.closeCompletion
  dsimp only
  split
  next => exact hclosed.trans (h.dropAll _ _)
  next => exact hclosed

/-! ## Results -/

theorem Settles.within_orDrop (h : Settles env R) (values : List Value) {step : Run H α}
    (hstep : Within R step) : Within R (orDrop env values step) := by
  intro bridge
  have hends := hstep bridge
  unfold orDrop
  cases hresult : step bridge with
  | ok value after =>
      rw [hresult] at hends
      exact hends
  | error error after =>
      rw [hresult] at hends
      exact ReflTransGen.trans hends (h.dropAll values after)

theorem Settles.within_thenDrop (h : Settles env R) (values : List Value) {step : Run H α}
    (hstep : Within R step) : Within R (thenDrop env values step) := by
  intro bridge
  have hends := hstep bridge
  unfold thenDrop
  cases hresult : step bridge with
  | ok value after | error error after =>
      rw [hresult] at hends
      exact ReflTransGen.trans hends (h.dropAll values after)

theorem Counts.within_keep (h : Counts env R) (value : Value) :
    Within R (keep value : Run H Value) :=
  (within_modify (h.retainAll value)).bind fun _ => within_pure _

theorem Settles.within_liftRecord (h : Settles env R) (innerType : String) (ownership : Ownership)
    (raw : Value) : Within R (liftRecord env innerType ownership raw) := by
  unfold liftRecord
  split
  next => exact h.within_wrapAs _ _ _
  next => exact h.within_keep _

theorem Settles.within_copyRecord (h : Settles env R) (element : Descriptor) (innerType : String)
    (size : Nat) (base : Handle) (offset : Nat) :
    Within R (copyRecord env element innerType size base offset) := by
  unfold copyRecord
  split
  next source _ =>
    intro bridge
    -- the copy's block is made in every state, so making and filling it are looked at as one
    have hmade : inCall (alloc size (some (schemaTypeName (repo env) innerType)) none) bridge =
      .ok _ _ := rfl
    rw [bind_eq_of_eq_ok hmade]
    have hcopy := h.copy size (some (schemaTypeName (repo env) innerType)) element source bridge
    exact hcopy.trans (ending_inCall (H := H) _ _ ▸ runs_behind (fun _ => h.within_wrapAs _ _ _) _)
  next => exact within_throw _

theorem within_lengthAt (args : Array NativeArg) (index : Nat) :
    Within R (lengthAt args index : Run H Nat) := by
  unfold lengthAt
  split
  next =>
    dsimp only
    split
    next =>
      split
      next => exact (within_inCall (within_read _ _ _)).bind fun _ => within_pure _
      next => exact (within_pure _).bind fun _ => within_pure _
    next => exact (within_pure _).bind fun _ => within_pure _
  next => exact within_throw _

theorem within_findEnd (base : Handle) (element : Descriptor) (elementSize index bound : Nat) :
    Within R (findEnd base element elementSize index bound : Native H Nat) := by
  induction bound generalizing index with
  | zero => exact within_throw _
  | succ bound ih =>
      refine (within_read _ _ _).bind fun value => ?_
      split
      next => exact within_pure _
      next => exact ih _

theorem within_terminatedLength (base : Handle) (element : Descriptor) (elementSize : Nat) :
    Within R (terminatedLength base element elementSize : Native H Nat) := by
  unfold terminatedLength
  extract_lets isRecord rest
  split
  next => exact within_throw_bind _ _
  next => exact within_get.bind fun _ => within_findEnd _ _ _ _ _

theorem within_elementCount (args : Array NativeArg) (base : Handle) (element : Descriptor)
    (elementSize : Nat) (length : ArrayLength) :
    Within R (elementCount args base element elementSize length : Run H Nat) := by
  cases length with
  | fixed count => exact within_pure _
  | param index => exact within_lengthAt _ _
  | zeroTerminated => exact within_inCall (within_terminatedLength _ _ _)
  | container => exact within_throw _

/-- What is left when an array has been read: if it was given away it is freed. -/
def spent (env : Env H) (ownership : Ownership) (base : Handle) (bridge : Bridge H) : Bridge H :=
  if ownership = .full then attempt (release env base none) bridge else bridge

theorem Settles.within_spent (h : Settles env R) (ownership : Ownership) (base : Handle)
    (bridge : Bridge H) : ReflTransGen R bridge (bridge.spent env ownership base) := by
  unfold spent
  split
  · exact h.attempt_release base none bridge
  · exact .refl

/-- By induction over the descriptor: items and what a reference points at have smaller ones. -/
theorem Settles.within_lift (h : Settles env R) (args : Array NativeArg) (descriptor : Descriptor)
    (raw : Value) : Within R (lift env args descriptor raw) := by
  induction descriptor, raw using lift.induct with
  | case1 raw => exact within_pure _
  | case2 ownership hooks raw handle hhandle =>
      rw [lift, hhandle]
      exact h.within_wrap _ _ _
  | case3 ownership hooks raw hhandle =>
      rw [lift, hhandle]
      exact h.within_keep _
  | case4 => exact h.within_liftRecord _ _ _
  | case5 => exact h.within_liftRecord _ _ _
  | case6 element ownership length kind elementSize raw base hbase ih =>
      rw [lift, hbase]
      refine (within_elementCount _ _ _ _ _).bind fun count => ?_
      refine (h.within_collect (fun index => ?_) count).bind fun items => ?_
      · split
        next => exact h.within_copyRecord _ _ _ _ _
        next => exact (within_inCall (within_read _ _ _)).bind ih
      · dsimp only
        split
        next =>
          exact (within_modify (h.attempt_release base none)).bind fun _ => within_pure _
        next => exact within_pure _
  | case7 element ownership length kind elementSize raw hbase =>
      rw [lift]
      split
      next base hsome => exact absurd hsome (hbase base)
      next => exact within_pure _
  | case8 inner raw slot hslot ih =>
      rw [lift, hslot]
      exact (within_inCall (within_read _ _ _)).bind ih
  | case9 inner raw hslot =>
      rw [lift]
      split
      next slot hsome => exact absurd hsome (hslot slot)
      next => exact within_pure _
  | case10 | case11 | case12 => exact h.within_keep _

/-- An array of records that is returned is counted, copied record by record, and freed behind that
if it was given away. -/
theorem of_lift_records_eq_ok {args : Array NativeArg} {qualified library : String} {size : Nat}
    {own ownership : Ownership} {length : ArrayLength} {kind : ArrayKind} {stride : Nat}
    {raw value : Value} {base : Handle} {bridge after : Bridge H}
    (hbase : raw.nonNull? = some base)
    (h : lift env args (.array (.struct qualified library size true own) ownership length kind
      stride) raw bridge = .ok value after) :
    ∃ (count : Nat) (items : List Value) (copied : Bridge H),
      elementCount args base (.struct qualified library size true own) stride length bridge =
        .ok count bridge ∧
      collect env (fun index => copyRecord env (.struct qualified library size true own) qualified
        size base (index * stride)) count bridge = .ok items copied ∧
      value = .array items ∧ after = copied.spent env ownership base := by
  rw [lift, hbase] at h
  obtain ⟨count, counted, hcount, hrest⟩ := of_bind_eq_ok h
  obtain ⟨items, copied, hcollect, hend⟩ := of_bind_eq_ok hrest
  have hsame := same_of_run id ((within_elementCount args base _ stride length).of_eq_ok hcount)
  subst hsame
  refine ⟨count, items, copied, hcount, hcollect, ?_⟩
  split at hend
  next hfull =>
    cases hend
    exact ⟨rfl, (if_pos hfull).symm⟩
  next hkept =>
    cases hend
    exact ⟨rfl, (if_neg hkept).symm⟩

/-! ## Calls -/

/-- Entering the function that is found for a symbol, and dropping what it gives if that is nothing
to the caller. -/
theorem Settles.enter (h : Settles env R) {library : String} {call : NativeCall} {bridge : Bridge H}
    (hnative : ∀ fn, bridge.symbols.find library call.symbol = .ok (.host fn) →
      Within R (env.native fn call)) :
    ReflTransGen R bridge (ending (enter env library call bridge)) := by
  unfold Bridge.enter
  rw [get_bind]
  cases hfound : bridge.symbols.find library call.symbol with
  | error error => exact .refl
  | ok fn =>
      have hrun : Within R (fn.run env call) :=
        h.within_run fun host hhost => hnative host (hhost ▸ hfound)
      refine Within.bind (R := R) hrun (fun value => ?_) bridge
      split
      next => exact (within_modify (h.dropAll [value])).bind fun _ => within_pure _
      next => exact within_pure _

/-- A native function gives what it gives, unless that is nothing to the caller. -/
theorem of_enter_eq_ok {library : String} {call : NativeCall}
    (hreturns : call.returns.isNull = false)
    (h : enter env library call bridge = .ok raw after) :
    ∃ fn, bridge.symbols.find library call.symbol = .ok fn ∧
      fn.run env call bridge = .ok raw after := by
  have hget : (get : Native H (Bridge H)) bridge = .ok bridge bridge := rfl
  unfold enter at h
  rw [bind_eq_of_eq_ok hget] at h
  cases hfind : bridge.symbols.find library call.symbol with
  | error error =>
      rw [hfind] at h
      cases h
  | ok fn =>
      have hfound : (MonadExcept.ofExcept (.ok fn) : Native H (NativeFn H)) bridge =
        .ok fn bridge := rfl
      rw [hfind, bind_eq_of_eq_ok hfound] at h
      obtain ⟨value, behind, hrun, hlast⟩ := of_bind_eq_ok h
      rw [hreturns] at hlast
      cases hlast
      exact ⟨fn, rfl, hrun⟩

/-- A native function runs, and what it gives is given up if that is nothing to the caller. -/
theorem enter_eq_ok {library : String} {call : NativeCall} {bridge after : Bridge H}
    {fn : NativeFn H} {raw : Value}
    (hrun : fn.run env call bridge = .ok raw after)
    (hfind : bridge.symbols.find library call.symbol = .ok fn) :
    ∃ given, enter env library call bridge =
      .ok given (if call.returns.isNull then after.drop env [raw] else after) := by
  have hfound : (MonadExcept.ofExcept (bridge.symbols.find library call.symbol) :
      Native H (NativeFn H)) bridge = .ok fn bridge := by
    rw [hfind]
    rfl
  rw [enter, get_bind, bind_eq_of_eq_ok hfound, bind_eq_of_eq_ok hrun]
  split
  next => exact ⟨.null, rfl⟩
  next => exact ⟨raw, rfl⟩

/-! An error is taken over by running the function that names its domain and giving up what it
takes room in, if each of that leads along transitions. -/

section TakeError

variable
  (henter : ∀ (library : String) (call : NativeCall), call.symbol = quarkNamer →
    Within R (Bridge.enter env library call))
  (hdrop : ∀ (values : List Value) (bridge : Bridge H),
    ReflTransGen R bridge (bridge.drop env values))
include henter hdrop

theorem within_domainName_of (quark : Value) : Within R (domainName env quark) := by
  intro bridge
  unfold domainName
  dsimp only
  have hends := henter (errorLibrary env) {
    symbol := quarkNamer
    args := [{ descriptor := .ofPrimitive .uint32 Heap.pointerSize, value := quark }]
    returns := .string .none } rfl bridge
  split
  next hresult =>
    rw [hresult] at hends
    exact hends
  next hresult =>
    rw [hresult] at hends
    exact ReflTransGen.trans hends (hdrop _ _)
  next hresult =>
    rw [hresult] at hends
    exact hends

variable (hrelease : ∀ (handle : Handle) (bridge : Bridge H),
  ReflTransGen R bridge (attempt (release env handle none) bridge))
include hrelease

theorem within_takeError_of (handle : Handle) : Within R (takeError env handle) :=
  (within_read _ _ _).bind fun _ => (within_read _ _ _).bind fun _ =>
    (within_read _ _ _).bind fun _ => (within_domainName_of henter hdrop _).bind fun _ =>
      (within_modify (hrelease handle)).bind fun _ => within_pure _

theorem within_pendingError_of (plan : CallPlan) (frame : Frame) :
    Within R (pendingError env plan frame) := by
  unfold pendingError
  split
  next =>
    split
    next =>
      split
      next =>
        refine (within_read _ _ _).bind fun value => ?_
        split
        next => exact (within_takeError_of henter hdrop hrelease _).bind fun _ => within_pure _
        next => exact within_pure _
      next => exact within_pure _
    next => exact within_pure _
  next => exact within_pure _

end TakeError

theorem Serves.within_pendingError (h : Serves env R) (plan : CallPlan) (frame : Frame) :
    Within R (pendingError env plan frame) :=
  within_pendingError_of (fun _ _ hsymbol _ => h.enter fun fn _ => h.naming fn hsymbol) h.dropAll
    (fun handle => h.attempt_release handle none) plan frame

theorem Settles.discardRecords (h : Settles env R) (frame : Frame) (bridge : Bridge H) :
    ReflTransGen R bridge (discardRecords env frame bridge) := by
  unfold Bridge.discardRecords
  exact foldl_runs (fun bridge (record : Nat × Handle) =>
    h.attempt_release record.2 none bridge) _ _

theorem Settles.within_liftOutput (h : Settles env R) (frame : Frame) (index : Nat) :
    Within R (liftOutput env frame index) := by
  unfold liftOutput
  split
  next =>
    split
    next => exact h.within_wrapAs _ _ _
    next => exact h.within_wrapAs _ _ _
    next =>
      split
      next => exact (within_inCall (within_read _ _ _)).bind fun _ => h.within_lift _ _ _
      next => exact within_pure _
    next => exact h.within_lift _ _ _
  next => exact within_pure _

theorem Serves.within_complete (h : Serves env R) (plan : CallPlan) (frame : Frame)
    (raw : Value) : Within R (complete env plan frame raw) := by
  refine (h.within_orDrop _ (within_inCall (h.within_pendingError plan frame))).bind
    fun pending => ?_
  cases pending with
  | some error =>
      refine (within_modify fun bridge => ?_).bind fun _ => within_throw_bind _ _
      exact (h.discardRecords frame bridge).trans (h.dropAll _ _)
  | none =>
      refine (h.within_thenDrop _ (h.within_lift _ _ _)).bind fun value => ?_
      refine (h.within_orDrop _ (h.within_collect (fun index => ?_) _)).bind fun _ =>
        within_pure _
      exact h.within_liftOutput _ _

theorem Closes.removeClosures (h : Closes env R) (tokens : List Nat) (bridge : Bridge H) :
    ReflTransGen R bridge
      (tokens.foldl (fun bridge token => (bridge.removeClosure env token).2) bridge) :=
  foldl_runs (fun bridge token => h.removeClosure token bridge) _ _

theorem Closes.abandon (h : Closes env R) (frame : Frame) (bridge : Bridge H) :
    ReflTransGen R bridge (abandon env frame bridge) :=
  (h.removeClosures _ _).trans (h.discardRecords _ _)

theorem Closes.releaseFrame (h : Closes env R) (frame : Frame) (bridge : Bridge H) :
    ReflTransGen R bridge (releaseFrame env frame bridge) := by
  refine ((h.removeClosures frame.callTokens bridge).trans ?_).trans (h.dropAll _ _)
  rw [← Array.foldl_toList]
  exact foldl_runs (fun bridge handle => h.attempt_release handle none bridge) _ _

theorem Governs.within_enter (h : Governs env R) (library : String) (call : NativeCall) :
    Within R (enter env library call) :=
  fun _ => h.serves.enter fun fn _ => h.native fn call

theorem Governs.within_enterPlan (h : Governs env R) (plan : CallPlan) (receiver : Option Value)
    (values : List Value) :
    Within (Calling.Follows R) (enterPlan env plan receiver values) :=
  (Lowering.within_lower h.toPermits plan receiver values).bind fun _ => within_get.bind
    fun _ => Lowering.within_onBridge (Lowering.lowers_follows R).makes
      (within_inCall (h.within_enter _ _))

/-- Native code has been entered. -/
theorem Governs.run_of_enterPlan_eq_ok (h : Governs env R) {plan : CallPlan}
    {receiver : Option Value} {values : List Value} {raw : Value} {bridge returned : Bridge H}
    {frame : Frame}
    (hentered : enterPlan env plan receiver values ⟨bridge, {}⟩ = .ok raw ⟨returned, frame⟩) :
    ReflTransGen R bridge returned :=
  Lowering.runs_of_follows ((h.within_enterPlan plan receiver values).of_eq_ok hentered)

theorem within_checkArity (callable : String) (params : List VisibleParam) (values : List Value) :
    Within R (checkArity callable params values : Run H Unit) := by
  unfold checkArity
  extract_lets rest
  have hrest : Within R (rest ()) := by
    unfold rest
    split
    next => exact within_throw _
    next => exact within_pure _
  split
  next => exact within_throw_bind _ _
  next => exact hrest

theorem of_checkArity_eq_ok {callable : String} {params : List VisibleParam} {values : List Value}
    {bridge after : Bridge H} {u : Unit}
    (h : checkArity callable params values bridge = .ok u after) : after = bridge :=
  same_of_run id ((within_checkArity callable params values).of_eq_ok h)

/-- Values are accepted or refused, and nothing is done about them. -/
theorem checkArity_accepts_or_refuses (callable : String) (params : List VisibleParam)
    (values : List Value) (bridge : Bridge H) :
    checkArity callable params values bridge = .ok ⟨⟩ bridge ∨
      ∃ error, checkArity callable params values bridge = .error error bridge := by
  have hsame : ending (checkArity callable params values bridge) = bridge :=
    same_of_run id (within_checkArity callable params values bridge)
  cases hresult : checkArity callable params values bridge with
  | ok u after =>
      obtain rfl := of_checkArity_eq_ok hresult
      exact .inl rfl
  | error error after =>
      rw [hresult] at hsame
      obtain rfl : after = bridge := hsame
      exact .inr ⟨error, rfl⟩

/-- Whatever the outcome of a call, what was made for it is given up afterwards. -/
theorem Governs.within_invoke (h : Governs env R) (plan : CallPlan) (receiver : Option Value)
    (values : List Value) : Within R (invoke env plan receiver values) := by
  refine (within_checkArity _ _ _).bind fun _ bridge => ?_
  have hentered := Lowering.runs_of_follows (h.within_enterPlan plan receiver values ⟨bridge, {}⟩)
  generalize enterPlan env plan receiver values ⟨bridge, {}⟩ = entered at hentered
  cases entered with
  | error error calling =>
      exact (hentered.trans (h.closes.abandon _ _)).trans (h.closes.releaseFrame _ _)
  | ok raw calling =>
      have hcompleted := h.serves.within_complete plan calling.frame raw calling.bridge
      dsimp only
      generalize complete env plan calling.frame raw calling.bridge = completed at hcompleted
      cases completed with
      | ok result after | error error after =>
          exact (hentered.trans hcompleted).trans (h.closes.releaseFrame _ _)

theorem Governs.within_callFunction (h : Governs env R) (space name : String)
    (values : List Value) : Within R (callFunction env space name values) := by
  refine (h.serves.within_registerWithin _ _).bind fun space => ?_
  split
  next => exact h.within_invoke _ _ _
  next => exact within_throw _

theorem Registers.within_callables (h : Registers env R) (owner : String) :
    Within R (callables env owner) := by
  refine (h.enrols.within_namespaceOf owner).bind fun space => ?_
  split
  next => exact within_pure _
  next => exact within_pure _
  next => exact within_throw _

theorem within_planOf (owner name : String) (plans : List CallPlan) :
    Within R (planOf owner name plans : Run H CallPlan) := by
  unfold planOf
  split
  next => exact within_pure _
  next => exact within_throw _

theorem Governs.within_callMethod (h : Governs env R) (owner name : String)
    (receiver : Option Value) (values : List Value) :
    Within R (callMethod env owner name receiver values) :=
  (h.within_callables owner).bind fun _ => (within_planOf _ _ _).bind fun _ =>
    h.within_invoke _ _ _

theorem Governs.within_construct (h : Governs env R) (owner name : String)
    (values : List Value) : Within R (construct env owner name values) :=
  (h.within_callables owner).bind fun _ => (within_planOf _ _ _).bind fun _ =>
    (h.within_invoke _ _ _).bind fun result =>
      (within_modify (h.serves.dropAll result.outputs)).bind fun _ => within_pure _

/-! ## Asynchronous operations -/

theorem Governs.within_startPlan (h : Governs env R) (plan : AsyncPlan)
    (receiver : Option Value) (values : List Value) :
    Within R (startPlan env plan receiver values) := by
  refine (within_checkArity _ _ _).bind fun _ bridge => ?_
  have hready : ReflTransGen R bridge bridge.newReady.2.2 := .single (h.newReady bridge)
  have hstarted := hready.trans (h.within_invoke plan.start receiver
    (startValues plan bridge.newReady.2.1 values) bridge.newReady.2.2)
  dsimp only
  split
  next hresult =>
    rw [hresult] at hstarted
    exact hstarted.trans (h.serves.dropAll _ _)
  next hresult =>
    rw [hresult] at hstarted
    exact (hstarted.trans (h.serves.dropAll _ _)).trans (h.serves.closeCompletion _ _)

theorem Governs.within_startMethod (h : Governs env R) (owner name : String)
    (receiver : Option Value) (values : List Value) :
    Within R (startMethod env owner name receiver values) := by
  refine (h.serves.within_namespaceOf owner).bind fun space => ?_
  split
  next => exact h.within_startPlan _ _ _
  next => exact within_throw _

theorem Governs.within_outcome? (h : Governs env R) (operation : Operation)
    (receiver : Option Value) : Within R (outcome? env operation receiver) := by
  refine within_get.bind fun bridge => ?_
  split
  next => exact within_pure _
  next token _ =>
    refine (within_modify fun bridge => ?_).bind fun _ => ?_
    · rw [← modifyCompletion_eq fun _ _ => rfl]
      exact .single (h.close bridge operation.completion)
    refine (h.serves.within_thenDrop _ ?_).bind fun _ => within_pure _
    split
    next => exact within_throw _
    next => exact h.within_invoke _ _ _
  next => exact within_throw _

/-! ## Invoking callbacks -/

theorem Governs.leads_liftArgument (h : Governs env R) (param : Option Descriptor) (value : Value) :
    Leads R (liftArgument env param value) := by
  unfold liftArgument
  split
  next ownership _ handle =>
    refine Leads.bind (h.serves.wrapRaw handle none ownership) fun wrapped => ?_
    cases wrapped <;> exact leads_pure _
  next => exact leads_pure _

/-- By induction on how old the callback is: a callback is newer than the one it holds. -/
theorem Governs.leads_invokeCallback (h : Governs env R) (id : CallbackId) (args : List Value) :
    Leads R (invokeCallback env id args) := by
  induction id, args using invokeCallback.induct with
  | case1 id args ih =>
      intro bridge
      rw [invokeCallback]
      refine Leads.of_get ?_
      cases hcell : bridge.callbacks[id.index]? with
      | none => exact leads_pure _ _
      | some cell =>
          dsimp only
          cases hbehaviour : cell.behaviour with
          | managed fn => exact h.managed fn _ _ bridge
          | destroyNotify token =>
              exact Leads.bind (h.closes.removeClosure token) (fun _ => leads_pure _) bridge
          | ready completion =>
              have hready : bridge.behaviour? id = some (.ready completion) := by
                rw [behaviour?, hcell, Option.map_some, hbehaviour]
              -- the result is retained for the completion, and given up unless it is the first
              have hkept := h.serves.retainAll (args[1]?.getD .null) bridge
              exact hkept.trans (h.serves.deliver ((behaviour?_retain _ _ _).trans hready) _)
          | lifting params inner =>
              dsimp only
              split
              next hnewer =>
                refine (Leads.mapM (fun entry => h.leads_liftArgument _ _) _).bind
                  (fun lifted => ?_) bridge
                refine (ih inner hnewer lifted).bind fun result => ?_
                split
                next => exact Leads.bind (h.serves.dropAll _) fun _ => leads_pure _
                next => exact Leads.bind (h.serves.dropAll _) fun _ => leads_pure _
              next => exact leads_pure _ _

/-! ## Users -/

/-- What users of a bridge do. -/
inductive Command (H : Host) where
  | register (space : String)
  | wrap (handle : Handle) (target : Option String) (ownership : Ownership)
  | callback (fn : H.Managed) (captured : List Value)
  | keep (value : Value)
  | fields (action : Action)
  | function (space name : String) (values : List Value)
  | method (owner name : String) (receiver : Option Value) (values : List Value)
  | construct (owner name : String) (values : List Value)
  | start (owner name : String) (receiver : Option Value) (values : List Value)
  | outcome (operation : Operation) (receiver : Option Value)
  | close (operation : Operation)
  | invoke (id : CallbackId) (args : List Value)

/-- The state in which a command ends, whether it succeeds or fails. -/
def Command.perform (env : Env H) (bridge : Bridge H) : Command H → Bridge H
  | register space => ending (registerNamespace env space bridge)
  | wrap handle target ownership => ending (Bridge.wrap env handle target ownership bridge)
  | callback fn captured =>
    (newCallback (.managed fn) captured (captured.foldl (fun bridge value => retain value bridge)
      bridge)).2
  | keep value => retain value bridge
  | fields action => action.perform env bridge
  | function space name values => ending (callFunction env space name values bridge)
  | method owner name receiver values => ending (callMethod env owner name receiver values bridge)
  | construct owner name values => ending (Bridge.construct env owner name values bridge)
  | start owner name receiver values => ending (startMethod env owner name receiver values bridge)
  | outcome operation receiver => ending (outcome? env operation receiver bridge)
  | close operation => closeCompletion env operation.completion bridge
  | invoke id args => (invokeCallback env id args bridge).2

theorem Governs.command (h : Governs env R) (command : Command H) (bridge : Bridge H) :
    ReflTransGen R bridge (command.perform env bridge) := by
  cases command with
  | register space => exact h.serves.within_registerWithin _ space bridge
  | wrap handle target ownership => exact h.serves.within_wrap handle target ownership bridge
  | callback fn captured =>
      exact (foldl_runs (fun bridge value => h.serves.retainAll value bridge) captured bridge).tail
        (h.newCallback (fun _ hready => by cases hready) _ _)
  | keep value => exact h.serves.retainAll value bridge
  | fields action => exact h.serves.perform action bridge
  | function space name values => exact h.within_callFunction space name values bridge
  | method owner name receiver values =>
      exact h.within_callMethod owner name receiver values bridge
  | construct owner name values => exact h.within_construct owner name values bridge
  | start owner name receiver values =>
      exact h.within_startMethod owner name receiver values bridge
  | outcome operation receiver => exact h.within_outcome? operation receiver bridge
  | close operation => exact h.serves.closeCompletion operation.completion bridge
  | invoke id args => exact h.leads_invokeCallback id args bridge

theorem Governs.commands (h : Governs env R) (commands : List (Command H)) (bridge : Bridge H) :
    ReflTransGen R bridge (commands.foldl (Command.perform env) bridge) :=
  foldl_runs (fun bridge command => h.command command bridge) commands bridge

end Bridge

end Interop
