import Interop.Proofs.Bridge.Moves

/-! # Outcomes of asynchronous operations

An operation completes once. Until its ready callback is invoked or has lost its last share, polling
it gives nothing; then the first of these events decides, whatever comes behind it. A token that is
there is finished with, and no other ever is. This holds for every run that starts with the start
call, and native code may invoke the ready callback during that call and at any time after it.
-/

namespace Interop

open Schema Relation Steps

variable {H : Host}

namespace Bridge

/-- A state that a program gets to. -/
def Reached (bridge : Bridge H) : Prop := ∃ host, ReflTransGen Moved (start host) bridge

variable {env : Env H} {bridge bridge' : Bridge H} {plan : AsyncPlan} {operation : Operation}
  {receiver : Option Value} {values : List Value} {ready : CallbackId} {events : List Event}
  {moves : List Move}

theorem Reached.paired (h : bridge.Reached) : bridge.Paired := by
  obtain ⟨host, hruns⟩ := h
  induction hruns with
  | refl => exact paired_start host
  | tail _ hmoved ih =>
      obtain ⟨move, hmove⟩ := hmoved
      exact hmove.paired ih

/-- Nobody waits for the completion. -/
def close (completion : CompletionId) (bridge : Bridge H) : Bridge H :=
  bridge.modifyCompletion completion fun _ => .closed

/-! ## Polling -/

/-- The error of an operation whose ready callback is gone, or that has completed before. -/
def droppedError (plan : AsyncPlan) : BindError := .async (.completionDropped plan.name)

theorem outcome?_waiting
    (h : bridge.completions[operation.completion.index]? = some .waiting) :
    outcome? env operation receiver bridge = .ok none bridge := by
  rw [outcome?, get_bind, h]
  rfl

theorem outcome?_lost (h : bridge.completions[operation.completion.index]? = some .lost) :
    outcome? env operation receiver bridge = .error (droppedError operation.plan) bridge := by
  rw [outcome?, get_bind, h]
  rfl

theorem outcome?_closed (h : bridge.completions[operation.completion.index]? = some .closed) :
    outcome? env operation receiver bridge = .error (droppedError operation.plan) bridge := by
  rw [outcome?, get_bind, h]
  rfl

theorem outcome?_delivered {token : Value}
    (h : bridge.completions[operation.completion.index]? = some (.delivered token)) :
    outcome? env operation receiver bridge =
      (some <$> thenDrop env [token]
        (if token.isNull then throw (.async (.missingResultToken operation.plan.name))
          else invoke env operation.plan.finish receiver [token]))
        (bridge.close operation.completion) := by
  rw [close, modifyCompletion_eq fun _ _ => rfl, outcome?, get_bind, h]
  rfl

/-! ## How an operation stands -/

/-- How an operation stands whose completion was told the events. -/
structure Stands (env : Env H) (operation : Operation) (receiver : Option Value)
    (ready : CallbackId) (events : List Event) (bridge : Bridge H) : Prop where
  /-- Until there is an event nothing is known, and somebody has a share of the ready callback. -/
  pending : events = [] →
    outcome? env operation receiver bridge = .ok none bridge ∧ bridge.Held ready
  /-- The first token is finished with, and what comes of it is the outcome. -/
  finished (token : Value) (rest : List Event) : events = .token token :: rest →
    .closed ∉ rest → token.isNull = false →
    outcome? env operation receiver bridge =
      (some <$> thenDrop env [token] (invoke env operation.plan.finish receiver [token]))
        (bridge.close operation.completion)
  missing (token : Value) (rest : List Event) : events = .token token :: rest →
    .closed ∉ rest → token.isNull = true →
    outcome? env operation receiver bridge =
      .error (.async (.missingResultToken operation.plan.name))
        ((bridge.close operation.completion).drop env [token])
  dropped (rest : List Event) : events = .dropped :: rest → .closed ∉ rest →
    outcome? env operation receiver bridge = .error (droppedError operation.plan) bridge
  closed : .closed ∈ events →
    outcome? env operation receiver bridge = .error (droppedError operation.plan) bridge
  /-- After an event there is an outcome. -/
  answered : events ≠ [] → ∀ after, outcome? env operation receiver bridge ≠ .ok none after
  /-- Once the outcome was given, there is nothing more. -/
  once : events ≠ [] → ∀ moves later,
    Runs moves (ending (outcome? env operation receiver bridge)) later →
    outcome? env operation receiver later = .error (droppedError operation.plan) later
  /-- An invocation of the ready callback brings the token among its arguments. -/
  invoked (args : List Value) : ∃ moves rest,
    Runs moves bridge (invokeCallback env ready args bridge).2 ∧
      Move.events operation.completion ready moves = .token (args[1]?.getD .null) :: rest
  /-- When the last share of the ready callback is dropped, the completion is told. -/
  released (cell : CallbackCell H) : bridge.callbacks[ready.index]? = some cell →
    cell.strong ≤ 1 → ∃ moves rest, Runs moves bridge (bridge.drop env [.callback ready]) ∧
      Move.events operation.completion ready moves = .dropped :: rest

theorem exists_runs_drop (h : Governs env Moved) {cell : CallbackCell H}
    (hcell : bridge.callbacks[ready.index]? = some cell) (hlast : cell.strong ≤ 1) :
    ∃ moves rest, Runs moves bridge (bridge.drop env [.callback ready]) ∧
      Move.events operation.completion ready moves = .dropped :: rest := by
  have hburied : Runs [.buried ready] bridge (bridge.bury ready cell) :=
    (Runs.refl bridge).tail (.bury hcell hlast)
  have hdrop : bridge.drop env [.callback ready] =
      giveUp env (1 + bridge.heldShares) (Value.sharesOf cell.captured ++ [])
        (bridge.bury ready cell) := by
    have hshares : Value.sharesOf [.callback ready] = [.callback ready] := by
      simp [Value.sharesOf, Value.shares]
    rw [drop, hshares, giveUp, hcell]
    dsimp only
    rw [if_pos hlast]
    rfl
  rw [hdrop]
  obtain ⟨others, hothers⟩ := exists_runs_iff.2 (h.serves.giveUp (1 + bridge.heldShares)
    (Value.sharesOf cell.captured ++ []) (bridge.bury ready cell))
  refine ⟨_, Move.events operation.completion ready others, hburied.trans hothers, ?_⟩
  rw [Move.events_append]
  simp [Move.events, Move.event?]

namespace Awaits

variable (hawaits : Awaits operation.completion ready events bridge)
include hawaits

theorem outcome?_of_mem (h : .closed ∈ events) :
    outcome? env operation receiver bridge = .error (droppedError operation.plan) bridge := by
  apply outcome?_closed
  rw [hawaits.completion_eq, Completion.after_of_mem h]

theorem outcome?_of_dropped {rest : List Event} (h : events = .dropped :: rest) :
    outcome? env operation receiver bridge = .error (droppedError operation.plan) bridge := by
  by_cases hclosed : .closed ∈ events
  · exact hawaits.outcome?_of_mem hclosed
  · subst h
    apply outcome?_lost
    rw [hawaits.completion_eq, Completion.after_dropped fun hmem => ?_]
    exact hclosed (List.mem_cons_of_mem _ hmem)

theorem outcome?_of_token {token : Value} {rest : List Event} (h : events = .token token :: rest)
    (hclosed : .closed ∉ rest) :
    outcome? env operation receiver bridge =
      (some <$> thenDrop env [token]
        (if token.isNull then throw (.async (.missingResultToken operation.plan.name))
          else invoke env operation.plan.finish receiver [token]))
        (bridge.close operation.completion) := by
  subst h
  apply outcome?_delivered
  rw [hawaits.completion_eq, Completion.after_token token hclosed]

/-- Once an outcome was given, the completion is closed or lost, and stays so. -/
theorem outcome?_later (h : Governs env Moved) (hevents : events ≠ []) {later : Bridge H}
    (hruns : Runs moves (ending (outcome? env operation receiver bridge)) later) :
    outcome? env operation receiver later = .error (droppedError operation.plan) later := by
  by_cases hclosed : .closed ∈ events
  · rw [hawaits.outcome?_of_mem hclosed] at hruns
    exact (hawaits.run hruns).outcome?_of_mem (List.mem_append_left _ hclosed)
  cases events with
  | nil => exact absurd rfl hevents
  | cons first rest =>
      cases first with
      | token token =>
          have hrest : .closed ∉ rest := fun hmem => hclosed (List.mem_cons_of_mem _ hmem)
          rw [hawaits.outcome?_of_token rfl hrest] at hruns
          have hfinish : Within Moved (some <$> thenDrop env [token]
              (if token.isNull then throw (.async (.missingResultToken operation.plan.name))
                else invoke env operation.plan.finish receiver [token])) := by
            refine (h.serves.within_thenDrop _ ?_).bind fun _ => within_pure _
            split
            next => exact within_throw _
            next => exact h.within_invoke _ _ _
          -- the completion is closed before the token is finished with
          obtain ⟨finishing, hfinishing⟩ :=
            exists_runs_iff.2 (hfinish (bridge.close operation.completion))
          have hlater := ((hawaits.close operation.completion).run hfinishing).run hruns
          apply hlater.outcome?_of_mem
          simp [Move.event?]
      | dropped =>
          rw [hawaits.outcome?_of_dropped rfl] at hruns
          exact (hawaits.run hruns).outcome?_of_dropped rfl
      | closed => exact absurd List.mem_cons_self hclosed

theorem outcome?_ne_none (hevents : events ≠ []) (after : Bridge H) :
    outcome? env operation receiver bridge ≠ .ok none after := by
  by_cases hclosed : .closed ∈ events
  · rw [hawaits.outcome?_of_mem hclosed]
    exact nofun
  cases events with
  | nil => exact absurd rfl hevents
  | cons first rest =>
      cases first with
      | token token =>
          have hrest : .closed ∉ rest := fun hmem => hclosed (List.mem_cons_of_mem _ hmem)
          rw [hawaits.outcome?_of_token rfl hrest]
          intro hnone
          obtain ⟨_, _, _, hsome⟩ := of_bind_eq_ok hnone
          cases hsome
      | dropped =>
          rw [hawaits.outcome?_of_dropped rfl]
          exact nofun
      | closed => exact absurd List.mem_cons_self hclosed

theorem exists_runs_invokeCallback (h : Governs env Moved) (args : List Value) :
    ∃ moves rest, Runs moves bridge (invokeCallback env ready args bridge).2 ∧
      Move.events operation.completion ready moves = .token (args[1]?.getD .null) :: rest := by
  obtain ⟨cell, hcell, hbehaviour⟩ :=
    Option.map_eq_some_iff.1 ((hawaits.behaviour?_iff ready).2 rfl)
  have hinvoked : (invokeCallback env ready args bridge).2 =
      (retain (args[1]?.getD .null) bridge).deliver env operation.completion
        (args[1]?.getD .null) := by
    rw [invokeCallback, get_bind_apply, hcell]
    dsimp only
    rw [hbehaviour]
    rfl
  generalize args[1]?.getD .null = token at hinvoked ⊢
  -- taking a share of the token is no event, so accepting it is the first one
  obtain ⟨retaining, hretaining, hquiet⟩ :=
    exists_runs_of_quiet (quiet_retain token bridge) operation.completion ready
  have hready : (retain token bridge).behaviour? ready = some (.ready operation.completion) := by
    rw [behaviour?_retain]
    exact (hawaits.behaviour?_iff ready).2 rfl
  have haccepting := hretaining.tail (.accept hready token)
  have hevents : Move.events operation.completion ready (retaining ++ [.invoked ready token]) =
      [.token token] := by
    rw [Move.events_concat, hquiet]
    simp [Move.event?]
  rw [hinvoked]
  rcases deliver_eq env operation.completion token (retain token bridge) with hkept | hdropped
  · rw [hkept]
    exact ⟨_, [], haccepting, hevents⟩
  · rw [hdropped]
    obtain ⟨dropping, hdropping⟩ := exists_runs_iff.2 (h.serves.dropAll [token]
      ((retain token bridge).modifyCompletion operation.completion (.accept token)))
    refine ⟨_, Move.events operation.completion ready dropping, haccepting.trans hdropping, ?_⟩
    rw [Move.events_append, hevents]
    rfl

theorem stands (h : Governs env Moved) : Stands env operation receiver ready events bridge where
  pending hevents := ⟨outcome?_waiting (by rw [hawaits.completion_eq, hevents]; rfl),
    hawaits.held hevents⟩
  finished token rest hevents hclosed htoken := by
    rw [hawaits.outcome?_of_token hevents hclosed, htoken]
    rfl
  missing token rest hevents hclosed htoken := by
    rw [hawaits.outcome?_of_token hevents hclosed, htoken]
    rfl
  dropped rest hevents hclosed := hawaits.outcome?_of_dropped hevents
  closed hmem := hawaits.outcome?_of_mem hmem
  answered hevents := hawaits.outcome?_ne_none hevents
  once hevents moves later hruns := hawaits.outcome?_later h hevents hruns
  invoked args := hawaits.exists_runs_invokeCallback h args
  released cell hcell hlast := exists_runs_drop h hcell hlast

end Awaits

/-! ## Operations that are started -/

/-- After a failed start call the completion is closed. -/
theorem exists_runs_closeCompletion (h : Governs env Moved) (completion : CompletionId)
    (ready : CallbackId) (bridge : Bridge H) :
    ∃ moves, Runs moves bridge (bridge.closeCompletion env completion) ∧
      .closed ∈ Move.events completion ready moves := by
  have hclosed : Runs [.closed completion] bridge (bridge.close completion) :=
    (Runs.refl bridge).tail (.close bridge completion)
  have hevent : .closed ∈ Move.events completion ready [.closed completion] := by
    simp [Move.events, Move.event?]
  unfold closeCompletion
  dsimp only
  split
  next token _ =>
    obtain ⟨dropping, hdropping⟩ :=
      exists_runs_iff.2 (h.serves.dropAll [token] (bridge.close completion))
    refine ⟨_, hclosed.trans hdropping, ?_⟩
    rw [Move.events_append]
    exact List.mem_append_left _ hevent
  next => exact ⟨_, hclosed, hevent⟩

theorem startPlan_eq (env : Env H) (receiver : Option Value)
    (hvalues : checkArity plan.name plan.params values bridge = .ok ⟨⟩ bridge) :
    startPlan env plan receiver values bridge =
      match invoke env plan.start receiver (startValues plan bridge.newReady.2.1 values)
          bridge.newReady.2.2 with
      | .ok result after => .ok ⟨plan, bridge.newReady.1⟩
          (after.drop env (result.values ++ [.callback bridge.newReady.2.1]))
      | .error error after =>
        .error error
          ((after.drop env [.callback bridge.newReady.2.1]).closeCompletion env
            bridge.newReady.1) :=
  bind_eq_of_eq_ok hvalues

/-- An operation whose start call fails fails in the same way, and there is nothing to wait for. One
whose start call succeeds stands, at any time later, as what native code has done with its ready
callback since the start call began says: it completes once, by the first of these events. -/
theorem startPlan_completes_once (h : Governs env Moved) (hreached : bridge.Reached)
    (hvalues : checkArity plan.name plan.params values bridge = .ok ⟨⟩ bridge) :
    let (completion, ready, begun) := bridge.newReady
    match invoke env plan.start receiver (startValues plan ready values) begun with
    | .error error _ =>
      ∃ after, startPlan env plan receiver values bridge = .error error after ∧
        ∀ moves later, Runs moves after later →
          outcome? env ⟨plan, completion⟩ receiver later = .error (droppedError plan) later
    | .ok _ _ =>
      ∃ started, startPlan env plan receiver values bridge = .ok ⟨plan, completion⟩ started ∧
        (∃ during, Runs during begun started) ∧
        ∀ during after now, Runs during begun started → Runs after started now →
          Stands env ⟨plan, completion⟩ receiver ready
            (Move.events completion ready (during ++ after)) now := by
  have hawaits : Awaits (Operation.mk plan bridge.newReady.1).completion bridge.newReady.2.1 []
      bridge.newReady.2.2 := awaits_newReady hreached.paired
  have hinvoked := h.within_invoke plan.start receiver
    (startValues plan bridge.newReady.2.1 values) bridge.newReady.2.2
  have hstart := startPlan_eq env receiver hvalues
  dsimp only
  split
  next error failed hresult =>
    rw [hresult] at hinvoked hstart
    refine ⟨_, hstart, fun moves later hlater => ?_⟩
    obtain ⟨during, hduring⟩ := exists_runs_iff.2
      (ReflTransGen.trans hinvoked (h.serves.dropAll [.callback bridge.newReady.2.1] failed))
    -- the completion is closed without a result, and this event decides
    obtain ⟨closing, hclosing, hclosed⟩ := exists_runs_closeCompletion h bridge.newReady.1
      bridge.newReady.2.1 (failed.drop env [.callback bridge.newReady.2.1])
    have hends := ((hawaits.run hduring).run hclosing).run hlater
    exact hends.outcome?_of_mem (List.mem_append_left _ (List.mem_append_right _ hclosed))
  next result after hresult =>
    rw [hresult] at hinvoked hstart
    refine ⟨_, hstart, exists_runs_iff.2 (ReflTransGen.trans hinvoked (h.serves.dropAll _ after)), ?_⟩
    intro during later now hduring hlater
    rw [Move.events_append]
    exact ((hawaits.run hduring).run hlater).stands h

/-! ## A ready callback that is invoked twice -/

/-- Two native functions: one invokes the ready callback that it gets, and one gives back the token
that it gets. -/
inductive Relay where
  | fetch
  | finish

def relay : Host := ⟨Relay, Empty, Unit⟩

/-- What a program is whose native functions do nothing. -/
def idleEnv : Env relay where
  compiler := .ofRepository (.ofSpaces []) {}
  native _ _ := return .null
  effect _ _ := return ⟨⟩
  managed := nofun

theorem governs_idleEnv : Governs idleEnv Moved :=
  { permits_moved idleEnv with
    native := fun _ _ => within_pure _
    effect := fun _ _ => within_pure _
    managed := nofun }

/-- Invokes a ready callback with two tokens, one after the other. -/
def invokeTwice (ready : CallbackId) : Native relay Unit := do
  modify fun bridge => (invokeCallback idleEnv ready [.null, .pointer (.ofNat 64)] bridge).2
  modify fun bridge => (invokeCallback idleEnv ready [.null, .pointer (.ofNat 128)] bridge).2

theorem within_invokeTwice (ready : CallbackId) : Within Moved (invokeTwice ready) :=
  (within_modify (governs_idleEnv.leads_invokeCallback ready _)).bind fun _ =>
    within_modify (governs_idleEnv.leads_invokeCallback ready _)

def relayEnv : Env relay := { idleEnv with
  native := fun
    | .fetch, call => do
      match ← call.arg 0 with
      | .callback ready => invokeTwice ready
      | _ => pure ⟨⟩
      return .null
    | .finish, call => call.arg 0 }

theorem governs_relayEnv : Governs relayEnv Moved :=
  { permits_moved relayEnv with
    native := fun fn call => by
      cases fn with
      | fetch =>
          refine (within_arg call 0).bind fun value => ?_
          cases value with
          | callback ready => exact (within_invokeTwice ready).bind fun _ => within_pure _
          | _ => exact within_pure _
      | finish => exact within_arg call 0
    effect := fun _ _ => within_pure _
    managed := nofun }

def pointerTo : Descriptor := .ofPrimitive .pointer Heap.pointerSize

def readyCallback : Descriptor :=
  .callback .asyncReady [pointerTo, pointerTo] .null .async none none

def fetchPlan : CallPlan where
  name := "fetch"
  symbol := "relay_fetch"
  library := "librelay.so"
  kind := .function
  args := [{ name := "ready", descriptor := readyCallback, source := .caller 0 }]
  params := [⟨"ready", readyCallback, false, false⟩]
  returns := .null
  returnNullable := false
  throws := false
  imports := []

def finishPlan : CallPlan where
  name := "fetch_finish"
  symbol := "relay_finish"
  library := "librelay.so"
  kind := .function
  args := [{ name := "result", descriptor := pointerTo, source := .caller 0 }]
  params := [⟨"result", pointerTo, false, false⟩]
  returns := pointerTo
  returnNullable := false
  throws := false
  imports := []

def relayPlan : AsyncPlan := (AsyncPlan.ofPlans? "fetch" fetchPlan finishPlan).getD default

/-- The state in which there are the two functions. -/
def relayBridge : Bridge relay :=
  { (start () : Bridge relay) with
    symbols := ((start () : Bridge relay).symbols.define "librelay.so" "relay_fetch"
      (.host .fetch)).define "librelay.so" "relay_finish" (.host .finish) }

theorem reached_relayBridge : relayBridge.Reached := ⟨(), .single ⟨_, .quiet rfl rfl⟩⟩

/-- The operation is given back by a start call that has completed it already, and its outcome is
the first of the two tokens. -/
theorem relay_completes_once :
    ∃ started, startPlan relayEnv relayPlan none [] relayBridge = .ok ⟨relayPlan, ⟨0⟩⟩ started ∧
      (∃ events, Stands relayEnv ⟨relayPlan, ⟨0⟩⟩ none ⟨0⟩ events started) ∧
      (value? (outcome? relayEnv ⟨relayPlan, ⟨0⟩⟩ none started)).join.map
        (·.value.equal (.pointer (.ofNat 64))) = some true := by
  have hmain := @startPlan_completes_once relay relayEnv relayBridge relayPlan none []
    governs_relayEnv reached_relayBridge rfl
  have hinvoked : (value? (invoke relayEnv relayPlan.start none
      (startValues relayPlan relayBridge.newReady.2.1 []) relayBridge.newReady.2.2)).isSome =
        true := by decide +kernel
  have houtcome : (value? (outcome? relayEnv ⟨relayPlan, ⟨0⟩⟩ none
      (ending (startPlan relayEnv relayPlan none [] relayBridge)))).join.map
        (·.value.equal (.pointer (.ofNat 64))) = some true := by decide +kernel
  dsimp only at hmain
  rw [eq_ok_of_isSome default hinvoked] at hmain
  obtain ⟨started, hstarted, ⟨during, hduring⟩, hstands⟩ := hmain
  rw [hstarted] at houtcome
  exact ⟨started, hstarted, ⟨_, hstands during [] started hduring (.refl _)⟩, houtcome⟩

end Bridge

end Interop
