import Interop.Proofs.Bridge.Finds
import Interop.Proofs.Bridge.Releases

/-! # Calls that find the classes they need

Arguments are made without looking for a class. Behind the native function a call wraps what it is
given as what the plan describes, and that is declared. So no call misses a class, whatever its
values are and however it ends.
-/

namespace Interop

open Schema Relation Steps

variable {H : Host} {env : Env H} {proper : Prop} {α : Type}

/-! ## Making arguments -/

namespace Lowering

open Bridge (Advance Arises)

/-- The bridge is led to a state that a program gets to, and if the names are proper the step finds
the classes that it needs. -/
abbrev Finds (env : Env H) (proper : Prop) (step : Lowering H α) : Prop :=
  Upholds (fun calling => Arises env calling.bridge)
    (fun error => proper → error.missesClass = false) step

theorem finds_onBridge {step : Run H α} (h : Bridge.Finds env proper step) :
    Finds env proper (onBridge step) := by
  intro calling harises
  have hends := h calling.bridge harises
  unfold onBridge
  cases hresult : step calling.bridge with
  | ok | error =>
      rw [hresult] at hends
      exact hends

theorem finds_update {step : Bridge H → α × Bridge H}
    (h : ∀ bridge, ReflTransGen (Advance env) bridge (step bridge).2) :
    Finds env proper (update step) :=
  fun calling harises => harises.trans (h calling.bridge)

theorem finds_modifyFrame (f : Frame → Frame) :
    Finds env proper (modifyFrame f : Lowering H Unit) :=
  upholds_modify fun _ h => h

theorem composes_finds (env : Env H) (proper : Prop) :
    Composes fun _ step => Finds env proper step where
  gives := upholds_pure
  refuses _ := upholds_throw fun _ => rfl
  looks := upholds_get
  follows h hnext := h.bind hnext

section Orderly

variable (horderly : env.Orderly)
include horderly

theorem builds_finds (proper : Prop) : Builds fun _ step => Finds env proper step :=
  { composes_finds env proper with
    alloc := fun _ _ _ =>
      finds_onBridge (Bridge.finds_inCall (horderly.governs.works.within_alloc _ _ _))
    write := fun _ _ _ _ =>
      finds_onBridge (Bridge.finds_inCall (horderly.governs.works.within_write _ _ _ _))
    notify := fun _ => finds_update fun bridge =>
      .single (horderly.governs.newCallback (fun _ hready => by cases hready) _ bridge)
    note := fun _ => finds_modifyFrame _ }

theorem finds_prepareCallback (values : List Value) (arg : CallArg) (index : Nat) :
    Finds env proper (prepareCallback values arg index : Lowering H Unit) :=
  (composes_finds env proper).prepareCallback_of
    (fun _ _ _ => finds_update (runs_passOn horderly.governs.works _ _ _))
    (fun _ _ => finds_update (horderly.governs.registerClosure _ _))
    (fun _ _ => finds_modifyFrame _) values arg index

theorem finds_lowerArg (plan : CallPlan) (receiver : Option Value) (values : List Value)
    (arg : CallArg) (index : Nat) :
    Finds env proper (lowerArg env plan receiver values arg index) := by
  have hbuilds := builds_finds horderly proper
  refine lowerArg_cases (P := Finds env proper)
    (fun hplain => hbuilds.lowerArg plan receiver values hplain index) fun _ _ _ => ?_
  exact (hbuilds.alloc _ _ _).bind fun _ => (finds_modifyFrame _).bind fun _ => upholds_pure _

theorem finds_lower (plan : CallPlan) (receiver : Option Value) (values : List Value) :
    Finds env proper (lower env plan receiver values) := by
  rw [lower_eq]
  refine (Upholds.forM (fun entry => ?_) _).bind fun _ => Upholds.forM (fun entry => ?_) _
  · exact finds_prepareCallback horderly values entry.1 entry.2
  · exact (finds_lowerArg horderly plan receiver values entry.1 entry.2).bind fun _ =>
      finds_modifyFrame _

end Orderly

end Lowering

namespace Bridge

variable {bridge : Bridge H} {plan : CallPlan} {frame : Frame}

/-! ## What registers nothing -/

theorem enter_bare (env : Env H) (library : String) (call : NativeCall) :
    enter env.bare library call = enter env library call := by
  unfold enter
  simp only [drop_bare]
  rfl

theorem removeClosure_bare (env : Env H) (token : Nat) (bridge : Bridge H) :
    removeClosure env.bare token bridge = removeClosure env token bridge := by
  unfold removeClosure
  split
  next => rfl
  next => rw [drop_bare]

theorem abandon_bare (env : Env H) (frame : Frame) (bridge : Bridge H) :
    abandon env.bare frame bridge = abandon env frame bridge := by
  unfold abandon
  simp only [removeClosure_bare]
  rfl

theorem releaseFrame_bare (env : Env H) (frame : Frame) (bridge : Bridge H) :
    releaseFrame env.bare frame bridge = releaseFrame env frame bridge := by
  unfold releaseFrame
  simp only [removeClosure_bare, drop_bare]
  rfl

theorem deliver_bare (env : Env H) (id : CompletionId) (token : Value) (bridge : Bridge H) :
    deliver env.bare id token bridge = deliver env id token bridge := by
  unfold deliver
  split
  next => rfl
  next => rw [drop_bare]

theorem closeCompletion_bare (env : Env H) (id : CompletionId) (bridge : Bridge H) :
    closeCompletion env.bare id bridge = closeCompletion env id bridge := by
  unfold closeCompletion
  simp only [drop_bare]

/-- By induction on how old the callback is. -/
theorem invokeCallback_bare (env : Env H) (id : CallbackId) (args : List Value) :
    invokeCallback env.bare id args = invokeCallback env id args := by
  induction id, args using invokeCallback.induct with
  | case1 id args ih =>
      rw [invokeCallback, invokeCallback]
      simp only [removeClosure_bare, deliver_bare, drop_bare]
      refine congrArg (get >>= ·) (funext fun bridge => ?_)
      split
      next => rfl
      next =>
        split
        next => rfl
        next => rfl
        next => rfl
        next inner _ =>
          split
          next hnewer =>
            simp only [ih inner hnewer]
            rfl
          next => rfl

section Orderly

variable (horderly : env.Orderly)
include horderly

theorem within_enter_advance (library : String) (call : NativeCall) :
    Within (Advance env) (enter env library call) :=
  enter_bare env library call ▸ horderly.governs.within_enter library call

theorem Arises.abandon (h : Arises env bridge) (frame : Frame) :
    Arises env (bridge.abandon env frame) :=
  h.trans (abandon_bare env frame bridge ▸ horderly.governs.closes.abandon frame bridge)

theorem Arises.releaseFrame (h : Arises env bridge) (frame : Frame) :
    Arises env (bridge.releaseFrame env frame) :=
  h.trans (releaseFrame_bare env frame bridge ▸ horderly.governs.closes.releaseFrame frame bridge)

theorem Arises.closeCompletion (h : Arises env bridge) (id : CompletionId) :
    Arises env (bridge.closeCompletion env id) :=
  h.trans (closeCompletion_bare env id bridge ▸ horderly.governs.serves.closeCompletion id bridge)

/-! ## Ends of calls -/

theorem finds_pendingError (plan : CallPlan) (frame : Frame) :
    Finds env proper (inCall (pendingError env plan frame)) :=
  finds_inCall (within_pendingError_of (fun _ _ _ => within_enter_advance horderly _ _)
    (fun values bridge => drop_bare env values ▸ horderly.governs.serves.dropAll values bridge)
    (fun handle => horderly.governs.serves.attempt_release handle none) plan frame)

theorem finds_enterPlan (proper : Prop) (plan : CallPlan) (receiver : Option Value)
    (values : List Value) :
    Lowering.Finds env proper (enterPlan env plan receiver values) :=
  (Lowering.finds_lower horderly plan receiver values).bind fun _ => upholds_get.bind fun _ =>
    Lowering.finds_onBridge (finds_inCall (within_enter_advance horderly _ _))

variable (hnames : proper → (repo env).WellNamed)
include hnames

/-- The frame has the descriptors of the plan, so outputs are given as what is declared. -/
theorem finds_complete (hplan : proper → plan.Declared (repo env))
    (hframe : Lowering.Listed env plan.args frame) (raw : Value) :
    Finds env proper (complete env plan frame raw) := by
  refine (finds_orDrop horderly _ (finds_pendingError horderly plan frame)).bind fun pending => ?_
  cases pending with
  | some error =>
      refine (upholds_modify fun bridge harises => ?_).bind fun _ => upholds_throw_bind fun _ => rfl
      exact (harises.trans (horderly.governs.serves.discardRecords frame bridge)).drop horderly _
  | none =>
      refine (finds_thenDrop horderly _ (finds_lift horderly hnames _ (fun hproper =>
        (hplan hproper).returns) _)).bind
        fun value => ?_
      refine (finds_orDrop horderly _ (finds_collect horderly fun index hindex => ?_)).bind
        fun _ => upholds_pure _
      refine finds_liftOutput horderly hnames fun hproper native hnative => ?_
      have hmem : plan.outputs.getD index 0 ∈ plan.outputs := by
        rw [List.getD_eq_getElem?_getD, List.getElem?_eq_getElem hindex]
        exact List.getElem_mem hindex
      have hplaces : (plan.args[plan.outputs.getD index 0]?).map (·.descriptor) =
          some native.descriptor := by
        rw [← List.getElem?_map, ← hframe.descriptors, List.getElem?_map, Array.getElem?_toList,
          hnative]
        rfl
      obtain ⟨arg, harg, hsame⟩ := Option.map_eq_some_iff.1 hplaces
      exact hsame ▸ (hplan hproper).outputs _ hmem arg harg

omit horderly hnames in
theorem finds_checkArity (callable : String) (params : List VisibleParam) (values : List Value) :
    Finds env proper (checkArity callable params values : Run H Unit) := by
  unfold checkArity
  extract_lets rest
  have hrest : Finds env proper (rest ()) := by
    unfold rest
    split
    next => exact upholds_throw fun _ => rfl
    next => exact upholds_pure _
  split
  next => exact upholds_throw_bind fun _ => rfl
  next => exact hrest

/-- A call of a plan whose results are declared, whether native code is reached or not. -/
theorem finds_invoke (hplan : proper → plan.Declared (repo env)) (receiver : Option Value)
    (values : List Value) : Finds env proper (invoke env plan receiver values) := by
  refine (finds_checkArity _ _ _).bind fun _ bridge harises => ?_
  have hentered := finds_enterPlan horderly proper plan receiver values ⟨bridge, {}⟩ harises
  cases hresult : enterPlan env plan receiver values ⟨bridge, {}⟩ with
  | error error calling =>
      rw [hresult] at hentered
      exact ⟨(hentered.1.abandon horderly _).releaseFrame horderly _, hentered.2⟩
  | ok raw calling =>
      rw [hresult] at hentered
      obtain ⟨_, hlower, _⟩ := of_enterPlan_eq_ok hresult
      have hcompleted := finds_complete horderly hnames hplan
        (Lowering.listed_of_lower_eq_ok hlower) raw calling.bridge hentered
      dsimp only
      cases hdone : complete env plan calling.frame raw calling.bridge with
      | ok result after =>
          rw [hdone] at hcompleted
          exact Arises.releaseFrame horderly hcompleted _
      | error error after =>
          rw [hdone] at hcompleted
          exact ⟨hcompleted.1.releaseFrame horderly _, hcompleted.2⟩

/-! ## Calls by name -/

theorem finds_callFunction (space name : String) (values : List Value) :
    Finds env proper (callFunction env space name values) := by
  refine (finds_registerNamespace env space).bind_of_ok
    fun bridge binding middle harises hok hmiddle => ?_
  obtain ⟨hcompiled, _⟩ := of_registerWithin_eq_ok harises.attained.reachable.valid hok
  obtain ⟨source, _, _, rfl⟩ := Compiler.of_namespace?_eq_ok hcompiled
  cases hplan : (env.compiler.run source).bindings.function? name with
  | some plan =>
      have hdeclared := Compiler.declared_of_mem_functions (List.mem_of_find?_eq_some hplan)
      exact finds_invoke horderly hnames (fun _ => hdeclared) none values middle hmiddle
  | none => exact ⟨hmiddle, fun _ => rfl⟩

omit horderly hnames in
theorem finds_callables (env : Env H) (owner : String) :
    Finds env proper (callables env owner) := by
  refine (finds_namespaceOf env owner).bind fun space => ?_
  split
  next => exact upholds_pure _
  next => exact upholds_pure _
  next => exact upholds_throw fun _ => rfl

omit horderly hnames in
theorem declared_of_callables_eq_ok {owner : String} {plans : List CallPlan × List CallPlan}
    {after : Bridge H} (hvalid : bridge.Valid env)
    (h : callables env owner bridge = .ok plans after) {plan : CallPlan}
    (hplan : plan ∈ plans.1 ∨ plan ∈ plans.2) : plan.Declared (repo env) := by
  obtain ⟨space, middle, hspace, hend⟩ := of_bind_eq_ok h
  obtain ⟨_, _, hcompiled, _⟩ := of_namespaceOf_eq_ok hvalid hspace
  obtain ⟨source, _, _, rfl⟩ := Compiler.of_namespace?_eq_ok hcompiled
  cases hcls : (env.compiler.run source).bindings.class? owner with
  | some cls =>
      rw [hcls] at hend
      cases hend
      exact Compiler.declared_of_mem_class (List.mem_of_find?_eq_some hcls) hplan
  | none =>
      cases hrecord : (env.compiler.run source).bindings.record? owner with
      | some record =>
          rw [hcls, hrecord] at hend
          cases hend
          exact Compiler.declared_of_mem_record (List.mem_of_find?_eq_some hrecord) hplan
      | none =>
          rw [hcls, hrecord] at hend
          cases hend

omit horderly hnames in
theorem finds_planOf_bind {owner name : String} {plans : List CallPlan}
    {next : CallPlan → Run H α} (hnext : ∀ plan ∈ plans, Finds env proper (next plan)) :
    Finds env proper (planOf owner name plans >>= next) := by
  unfold planOf
  cases hfound : plans.find? (·.name == name) with
  | some plan => exact hnext plan (List.mem_of_find?_eq_some hfound)
  | none => exact upholds_throw_bind fun _ => rfl

theorem finds_callMethod (owner name : String) (receiver : Option Value) (values : List Value) :
    Finds env proper (callMethod env owner name receiver values) := by
  refine (finds_callables env owner).bind_of_ok fun bridge plans middle harises hok hmiddle => ?_
  refine finds_planOf_bind (fun plan hplan => ?_) middle hmiddle
  have hdeclared := declared_of_callables_eq_ok harises.attained.reachable.valid hok (.inr hplan)
  exact finds_invoke horderly hnames (fun _ => hdeclared) receiver values

theorem finds_construct (owner name : String) (values : List Value) :
    Finds env proper (construct env owner name values) := by
  refine (finds_callables env owner).bind_of_ok fun bridge plans middle harises hok hmiddle => ?_
  refine finds_planOf_bind (fun plan hplan => ?_) middle hmiddle
  have hdeclared := declared_of_callables_eq_ok harises.attained.reachable.valid hok (.inl hplan)
  refine (finds_invoke horderly hnames (fun _ => hdeclared) none values).bind fun result => ?_
  exact (upholds_modify fun _ h => h.drop horderly _).bind fun _ => upholds_pure _

/-! ## Operations -/

theorem finds_startPlan {plan : AsyncPlan} (hplan : proper → plan.start.Declared (repo env))
    (receiver : Option Value) (values : List Value) :
    Finds env proper (startPlan env plan receiver values) := by
  refine (finds_checkArity _ _ _).bind fun _ bridge harises => ?_
  have hready : Arises env bridge.newReady.2.2 :=
    harises.trans (.single (horderly.governs.newReady bridge))
  split
  next completion ready made hnew =>
    rw [hnew] at hready
    have hstarted := finds_invoke horderly hnames hplan receiver (startValues plan ready values)
      made hready
    cases hresult : invoke env plan.start receiver (startValues plan ready values) made with
    | ok result after =>
        rw [hresult] at hstarted
        exact Arises.drop horderly hstarted _
    | error error after =>
        rw [hresult] at hstarted
        exact ⟨(hstarted.1.drop horderly _).closeCompletion horderly _, hstarted.2⟩

theorem finds_startMethod (owner name : String) (receiver : Option Value) (values : List Value) :
    Finds env proper (startMethod env owner name receiver values) := by
  refine (finds_namespaceOf env owner).bind_of_ok fun bridge space middle harises hok hmiddle => ?_
  obtain ⟨_, _, hcompiled, _⟩ := of_namespaceOf_eq_ok harises.attained.reachable.valid hok
  obtain ⟨source, _, _, rfl⟩ := Compiler.of_namespace?_eq_ok hcompiled
  cases hplan : ((env.compiler.run source).bindings.class? owner).bind (·.asyncMethod? name) with
  | none => exact ⟨hmiddle, fun _ => rfl⟩
  | some plan =>
      obtain ⟨cls, hcls, hfound⟩ := Option.bind_eq_some_iff.1 hplan
      have hdeclared := (Compiler.declared_of_mem_asyncMethods (List.mem_of_find?_eq_some hcls)
        (List.mem_of_find?_eq_some hfound)).1
      exact finds_startPlan horderly hnames (fun _ => hdeclared) receiver values middle hmiddle

theorem finds_outcome? {operation : Operation}
    (hplan : proper → operation.plan.finish.Declared (repo env)) (receiver : Option Value) :
    Finds env proper (outcome? env operation receiver) := by
  refine upholds_get.bind fun bridge => ?_
  split
  next => exact upholds_pure _
  next token _ =>
    refine (upholds_modify fun bridge harises => ?_).bind fun _ => ?_
    · rw [← modifyCompletion_eq fun _ _ => rfl]
      exact harises.trans (.single (horderly.governs.close bridge operation.completion))
    refine (finds_thenDrop horderly _ ?_).bind fun _ => upholds_pure _
    split
    next => exact upholds_throw fun _ => rfl
    next => exact finds_invoke horderly hnames hplan _ _
  next => exact upholds_throw fun _ => rfl

end Orderly

end Bridge

end Interop
