import Interop.Proofs.Bridge.Calls

/-! # What becomes of a completion

Whatever a program does, four things matter to the completion of an asynchronous operation: that its
ready callback is invoked with a token, that this callback loses its last share, and that nobody
waits any more. Everything else is quiet. The completion at any time is told by these events and
their order, and while it waits somebody has a share of the ready callback.
-/

namespace Interop

open Relation Steps

variable {H : Host}

/-- What is done to a callback or a completion at once. -/
inductive Move where
  | quiet
  | invoked (ready : CallbackId) (token : Value)
  | buried (callback : CallbackId)
  | closed (completion : CompletionId)

/-- What a completion is told. -/
inductive Event where
  | token (token : Value)
  | dropped
  | closed

/-- The event of a completion and its ready callback that a move is, if it is one. -/
def Move.event? (completion : CompletionId) (ready : CallbackId) : Move → Option Event
  | quiet => none
  | invoked callback token => if callback = ready then some (.token token) else none
  | buried callback => if callback = ready then some .dropped else none
  | closed other => if other = completion then some .closed else none

def Move.events (completion : CompletionId) (ready : CallbackId) (moves : List Move) : List Event :=
  moves.filterMap (event? completion ready)

theorem Move.events_append (completion : CompletionId) (ready : CallbackId)
    (moves moves' : List Move) :
    events completion ready (moves ++ moves') =
      events completion ready moves ++ events completion ready moves' :=
  List.filterMap_append

theorem Move.events_concat (completion : CompletionId) (ready : CallbackId) (moves : List Move)
    (move : Move) : events completion ready (moves ++ [move]) =
      events completion ready moves ++ (move.event? completion ready).toList := by
  rw [events_append, events]
  cases h : move.event? completion ready <;> simp [events, h]

namespace Completion

/-- A completion that waits is lost. -/
def lose : Completion → Completion
  | waiting => lost
  | other => other

def told : Completion → Event → Completion
  | old, .token token => old.accept token
  | old, .dropped => old.lose
  | _, .closed => .closed

/-- What a completion is after the events. -/
def after (events : List Event) : Completion := events.foldl told .waiting

variable {events : List Event}

theorem after_concat (events : List Event) (event : Event) :
    after (events ++ [event]) = (after events).told event := by
  simp [after]

theorem foldl_told_closed (events : List Event) : events.foldl told closed = closed := by
  induction events with
  | nil => rfl
  | cons event rest ih => cases event <;> exact ih

/-- Once closed, a completion stays so. -/
theorem after_of_mem (h : Event.closed ∈ events) : after events = closed := by
  obtain ⟨before, behind, rfl⟩ := List.append_of_mem h
  simp [after, told, foldl_told_closed]

/-- A completion that does not wait any more changes only by being closed. -/
theorem foldl_told_of_notMem (completion : Completion) (hwaiting : completion ≠ waiting)
    (h : Event.closed ∉ events) : events.foldl told completion = completion := by
  induction events with
  | nil => rfl
  | cons event rest ih =>
      simp only [List.mem_cons, not_or] at h
      have htold : completion.told event = completion := by
        cases event with
        | token | dropped => cases completion <;> first | rfl | exact absurd rfl hwaiting
        | closed => exact absurd rfl h.1
      rw [List.foldl_cons, htold]
      exact ih h.2

/-- As long as it is not closed, the first event decides. -/
theorem after_token (token : Value) (h : Event.closed ∉ events) :
    after (.token token :: events) = delivered token :=
  foldl_told_of_notMem (delivered token) nofun h

theorem after_dropped (h : Event.closed ∉ events) : after (.dropped :: events) = lost :=
  foldl_told_of_notMem lost nofun h

end Completion

namespace Bridge

/-- What a bridge does at once, told of its callbacks and completions. -/
inductive Moves : Move → Bridge H → Bridge H → Prop
  | quiet {bridge bridge' : Bridge H} (hcallbacks : bridge'.callbacks = bridge.callbacks)
      (hcompletions : bridge'.completions = bridge.completions) : Moves .quiet bridge bridge'
  | newCallback {behaviour : Behaviour H} (h : ∀ id, behaviour ≠ .ready id)
      (captured : List Value) (bridge : Bridge H) :
      Moves .quiet bridge (newCallback behaviour captured bridge).2
  | newReady (bridge : Bridge H) : Moves .quiet bridge bridge.newReady.2.2
  | share (bridge : Bridge H) (id : CallbackId) :
      Moves .quiet bridge (bridge.retainShare (.callback id))
  | unshare {bridge : Bridge H} {id : CallbackId} {cell : CallbackCell H}
      (h : bridge.callbacks[id.index]? = some cell) (hshared : 1 < cell.strong) :
      Moves .quiet bridge
        (bridge.modifyCallback id fun cell => { cell with strong := cell.strong - 1 })
  | bury {bridge : Bridge H} {id : CallbackId} {cell : CallbackCell H}
      (h : bridge.callbacks[id.index]? = some cell) (hlast : cell.strong ≤ 1) :
      Moves (.buried id) bridge (bridge.bury id cell)
  | accept {bridge : Bridge H} {ready : CallbackId} {id : CompletionId}
      (h : bridge.behaviour? ready = some (.ready id)) (token : Value) :
      Moves (.invoked ready token) bridge (bridge.modifyCompletion id (.accept token))
  | close (bridge : Bridge H) (id : CompletionId) :
      Moves (.closed id) bridge (bridge.modifyCompletion id fun _ => .closed)

def Moved (bridge bridge' : Bridge H) : Prop := ∃ move, Moves move bridge bridge'

/-- The moves lead from one state to the other. -/
inductive Runs : List Move → Bridge H → Bridge H → Prop
  | refl (bridge : Bridge H) : Runs [] bridge bridge
  | tail {moves : List Move} {move : Move} {bridge bridge' bridge'' : Bridge H}
      (h : Runs moves bridge bridge') (hmove : Moves move bridge' bridge'') :
      Runs (moves ++ [move]) bridge bridge''

theorem permits_moved (env : Env H) : Permits env (Moved (H := H)) where
  heap _ := ⟨_, .quiet rfl rfl⟩
  register _ := ⟨_, .quiet rfl rfl⟩
  registerClass _ _ _ := ⟨_, .quiet rfl rfl⟩
  link _ _ := ⟨_, .quiet rfl rfl⟩
  wrap _ _ _ _ := ⟨_, .quiet rfl rfl⟩
  retain _ _ := ⟨_, .quiet rfl rfl⟩
  drop _ _ := ⟨_, .quiet rfl rfl⟩
  other h := ⟨_, .quiet h.callbacks h.completions⟩
  newCallback h captured bridge := ⟨_, .newCallback h captured bridge⟩
  newReady bridge := ⟨_, .newReady bridge⟩
  share bridge id := ⟨_, .share bridge id⟩
  unshare h hshared := ⟨_, .unshare h hshared⟩
  bury h hlast := ⟨_, .bury h hlast⟩
  accept h token := ⟨_, .accept h token⟩
  close bridge id := ⟨_, .close bridge id⟩

variable {bridge bridge' bridge'' : Bridge H} {move : Move} {moves moves' : List Move}
  {completion : CompletionId} {ready : CallbackId} {events : List Event}

theorem Runs.trans (h : Runs moves bridge bridge') (h' : Runs moves' bridge' bridge'') :
    Runs (moves ++ moves') bridge bridge'' := by
  induction h' with
  | refl => simpa using h
  | tail _ hmove ih =>
      rw [← List.append_assoc]
      exact (ih h).tail hmove

theorem exists_runs_iff :
    (∃ moves, Runs moves bridge bridge') ↔ ReflTransGen Moved bridge bridge' := by
  constructor
  · rintro ⟨moves, hruns⟩
    induction hruns with
    | refl => exact .refl
    | tail _ hmove ih => exact ih.tail ⟨_, hmove⟩
  · intro hruns
    induction hruns with
    | refl => exact ⟨[], .refl _⟩
    | tail _ hmove ih =>
        obtain ⟨moves, hmoves⟩ := ih
        obtain ⟨move, hmove⟩ := hmove
        exact ⟨moves ++ [move], hmoves.tail hmove⟩

/-- A run of quiet moves has no events. -/
theorem exists_runs_of_quiet (h : ReflTransGen (Moves .quiet) bridge bridge')
    (completion : CompletionId) (ready : CallbackId) :
    ∃ moves, Runs moves bridge bridge' ∧ Move.events completion ready moves = [] := by
  induction h with
  | refl => exact ⟨[], .refl _, rfl⟩
  | tail _ hmove ih =>
      obtain ⟨moves, hmoves, hevents⟩ := ih
      refine ⟨moves ++ [.quiet], hmoves.tail hmove, ?_⟩
      rw [Move.events_concat, hevents]
      rfl

theorem quiet_retain (value : Value) (bridge : Bridge H) :
    ReflTransGen (Moves .quiet) bridge (retain value bridge) := by
  refine foldl_runs (fun bridge share => ?_) value.shares bridge
  cases share with
  | wrapper => exact .single (.quiet rfl rfl)
  | callback id => exact .single (.share bridge id)

/-! ## Ready callbacks -/

theorem callbacks_modifyCallback (bridge : Bridge H) (id : CallbackId)
    (f : CallbackCell H → CallbackCell H) (index : Nat) :
    (bridge.modifyCallback id f).callbacks[index]? =
      if id.index = index then bridge.callbacks[index]?.map f else bridge.callbacks[index]? :=
  Array.getElem?_modify

theorem completions_modifyCompletion (bridge : Bridge H) (id : CompletionId)
    (f : Completion → Completion) (index : Nat) :
    (bridge.modifyCompletion id f).completions[index]? =
      if id.index = index then bridge.completions[index]?.map f
      else bridge.completions[index]? :=
  Array.getElem?_modify

/-- A callback that loses its last share loses what it captured. -/
def bare (cell : CallbackCell H) : CallbackCell H := { cell with strong := 0, captured := [] }

theorem bury_ready {id : CallbackId} {cell : CallbackCell H}
    (h : cell.behaviour = .ready completion) :
    bridge.bury id cell =
      (bridge.modifyCallback id bare).modifyCompletion completion Completion.lose := by
  have hlose : (fun | .waiting => .lost | other => other) = Completion.lose := by
    funext completion
    cases completion <;> rfl
  rw [modifyCompletion, ← hlose, bury, h]
  rfl

theorem bury_other {id : CallbackId} {cell : CallbackCell H}
    (h : ∀ completion, cell.behaviour ≠ .ready completion) :
    bridge.bury id cell = bridge.modifyCallback id bare := by
  unfold bury
  dsimp only
  split
  next completion hready => exact absurd hready (h completion)
  next => rfl

theorem behaviour?_bury (bridge : Bridge H) (id other : CallbackId) (cell : CallbackCell H) :
    (bridge.bury id cell).behaviour? other = bridge.behaviour? other := by
  have hbare := bridge.behaviour?_modifyCallback id other (f := bare) fun _ => rfl
  by_cases h : ∃ completion, cell.behaviour = .ready completion
  · obtain ⟨completion, hready⟩ := h
    rw [bury_ready hready]
    exact hbare
  · rw [bury_other fun completion hready => h ⟨completion, hready⟩]
    exact hbare

theorem behaviour?_newCallback (behaviour : Behaviour H) (captured : List Value)
    (bridge : Bridge H) (id : CallbackId) :
    (newCallback behaviour captured bridge).2.behaviour? id = bridge.behaviour? id ∨
      bridge.behaviour? id = none ∧
        (newCallback behaviour captured bridge).2.behaviour? id = some behaviour := by
  simp only [behaviour?, newCallback, Array.getElem?_push]
  split
  next hnew => exact .inr ⟨by simp [hnew], rfl⟩
  next => exact .inl rfl

theorem Moves.size_completions_le (h : Moves move bridge bridge') :
    bridge.completions.size ≤ bridge'.completions.size := by
  cases h with
  | quiet _ hcompletions => exact hcompletions ▸ Nat.le_refl _
  | newCallback | share | unshare => exact Nat.le_refl _
  | newReady => simp [Bridge.newReady, Bridge.newCallback]
  | @bury _ id cell =>
      cases hbehaviour : cell.behaviour with
      | ready => simp [bury_ready hbehaviour, modifyCompletion, modifyCallback]
      | _ =>
          rw [bury_other fun _ => by simp [hbehaviour]]
          exact Nat.le_refl _
  | accept | close => simp [modifyCompletion]

/-- What a callback does never changes, and a ready callback is made with its completion. -/
theorem Moves.behaviour? (h : Moves move bridge bridge') (id : CallbackId) :
    bridge'.behaviour? id = bridge.behaviour? id ∨
      bridge.behaviour? id = none ∧ ∀ completion, bridge'.behaviour? id = some (.ready completion) →
        completion.index = bridge.completions.size ∧
          completion.index < bridge'.completions.size := by
  cases h with
  | quiet hcallbacks => exact .inl (by rw [Bridge.behaviour?, hcallbacks, Bridge.behaviour?])
  | newCallback hother captured =>
      rcases behaviour?_newCallback _ captured bridge id with hold | ⟨hnone, hnew⟩
      · exact .inl hold
      · refine .inr ⟨hnone, fun completion hready => ?_⟩
        rw [hnew, Option.some_inj] at hready
        exact absurd hready (hother completion)
  | newReady =>
      rcases behaviour?_newCallback (.ready ⟨bridge.completions.size⟩) []
        { bridge with completions := bridge.completions.push .waiting } id with hold | ⟨hnone, hnew⟩
      · exact .inl hold
      · refine .inr ⟨hnone, fun completion hready => ?_⟩
        rw [Bridge.newReady, hnew] at hready
        cases hready
        exact ⟨rfl, by simp [Bridge.newReady, Bridge.newCallback]⟩
  | share _ other | @unshare _ other =>
      exact .inl (behaviour?_modifyCallback bridge other id fun _ => rfl)
  | bury => exact .inl (behaviour?_bury bridge _ id _)
  | accept | close => exact .inl rfl

/-- Every ready callback is that of a completion that was made. -/
def Paired (bridge : Bridge H) : Prop :=
  ∀ ready completion, bridge.behaviour? ready = some (.ready completion) →
    completion.index < bridge.completions.size

theorem paired_start (host : H.State) : (start host : Bridge H).Paired := by
  intro ready completion h
  simp [behaviour?, start] at h

theorem Moves.paired (h : Moves move bridge bridge') (hpaired : bridge.Paired) :
    bridge'.Paired := by
  intro ready completion hready
  rcases h.behaviour? ready with hold | ⟨_, hnew⟩
  · rw [hold] at hready
    exact Nat.lt_of_lt_of_le (hpaired ready completion hready) h.size_completions_le
  · exact (hnew completion hready).2

/-! ## Shares -/

/-- Somebody has a share of the callback. -/
def Held (bridge : Bridge H) (id : CallbackId) : Prop :=
  ∃ cell, bridge.callbacks[id.index]? = some cell ∧ 0 < cell.strong

theorem Held.of_callbacks_eq (h : bridge.Held ready)
    (hcallbacks : bridge'.callbacks = bridge.callbacks) : bridge'.Held ready := by
  rw [Held, hcallbacks]
  exact h

theorem Held.newCallback (h : bridge.Held ready) (behaviour : Behaviour H)
    (captured : List Value) : (newCallback behaviour captured bridge).2.Held ready := by
  obtain ⟨cell, hcell, hstrong⟩ := h
  obtain ⟨hmade, _⟩ := Array.getElem?_eq_some_iff.1 hcell
  refine ⟨cell, ?_, hstrong⟩
  simp [Bridge.newCallback, Array.getElem?_push, Nat.ne_of_lt hmade, hcell]

theorem Held.modifyCallback (h : bridge.Held ready) {id : CallbackId}
    {f : CallbackCell H → CallbackCell H}
    (hf : id = ready → ∀ cell, bridge.callbacks[ready.index]? = some cell → 0 < cell.strong →
      0 < (f cell).strong) : (bridge.modifyCallback id f).Held ready := by
  obtain ⟨cell, hcell, hstrong⟩ := h
  rw [Held, callbacks_modifyCallback]
  split
  next hid =>
    exact ⟨f cell, by simp [hcell], hf (congrArg CallbackId.mk hid) cell hcell hstrong⟩
  next => exact ⟨cell, hcell, hstrong⟩

theorem Held.bury (h : bridge.Held ready) {id : CallbackId} (hother : id ≠ ready)
    (cell : CallbackCell H) : (bridge.bury id cell).Held ready := by
  have hbare : (bridge.modifyCallback id bare).Held ready :=
    h.modifyCallback fun hid => absurd hid hother
  by_cases hready : ∃ completion, cell.behaviour = .ready completion
  · obtain ⟨completion, hready⟩ := hready
    rw [bury_ready hready]
    exact hbare.of_callbacks_eq rfl
  · rw [bury_other fun completion h => hready ⟨completion, h⟩]
    exact hbare

/-! ## Waiting -/

/-- Whoever started the operation waits for the completion, which was told the events; its ready
callback is the only one. -/
structure Awaits (completion : CompletionId) (ready : CallbackId) (events : List Event)
    (bridge : Bridge H) : Prop where
  completion_eq : bridge.completions[completion.index]? = some (.after events)
  behaviour?_iff (id : CallbackId) :
    bridge.behaviour? id = some (.ready completion) ↔ id = ready
  /-- Until there is an event, somebody has a share of the callback. -/
  held : events = [] → bridge.Held ready

theorem awaits_newReady (hpaired : bridge.Paired) :
    Awaits ⟨bridge.completions.size⟩ ⟨bridge.callbacks.size⟩ [] bridge.newReady.2.2 where
  completion_eq := by simp [newReady, newCallback, Completion.after]
  behaviour?_iff id := by
    constructor
    · intro hready
      by_cases hid : id.index = bridge.callbacks.size
      · exact congrArg CallbackId.mk hid
      · simp only [behaviour?, newReady, newCallback, Array.getElem?_push, hid, if_false] at hready
        exact absurd (hpaired id _ hready) (Nat.lt_irrefl _)
    · rintro rfl
      simp [behaviour?, newReady, newCallback]
  held _ := by simp [Held, newReady, newCallback]

namespace Awaits

variable (hawaits : Awaits completion ready events bridge)
include hawaits

theorem lt_size : completion.index < bridge.completions.size := by
  obtain ⟨hmade, _⟩ := Array.getElem?_eq_some_iff.1 hawaits.completion_eq
  exact hmade

/-- The ready callback stays the only one. -/
theorem behaviour?_iff_of_moves (h : Moves move bridge bridge') (id : CallbackId) :
    bridge'.behaviour? id = some (.ready completion) ↔ id = ready := by
  rw [← hawaits.behaviour?_iff]
  rcases h.behaviour? id with hsame | ⟨hnone, hnew⟩
  · rw [hsame]
  · rw [hnone]
    refine ⟨fun hready => ?_, nofun⟩
    exact absurd (hnew completion hready).1 (Nat.ne_of_lt hawaits.lt_size)

/-- A move is of no concern that leaves the completion alone and does not take the last share of its
callback. -/
theorem unheard (h : Moves move bridge bridge') (hevent : move.event? completion ready = none)
    (hcompletion : bridge'.completions[completion.index]? = bridge.completions[completion.index]?)
    (hheld : bridge.Held ready → bridge'.Held ready) :
    Awaits completion ready (events ++ (move.event? completion ready).toList) bridge' := by
  rw [hevent, Option.toList_none, List.append_nil]
  exact ⟨hcompletion.trans hawaits.completion_eq, hawaits.behaviour?_iff_of_moves h,
    fun hnone => hheld (hawaits.held hnone)⟩

theorem heard {event : Event} (h : Moves move bridge bridge')
    (hevent : move.event? completion ready = some event)
    (hcompletion : bridge'.completions[completion.index]? =
      bridge.completions[completion.index]?.map (·.told event)) :
    Awaits completion ready (events ++ (move.event? completion ready).toList) bridge' := by
  rw [hevent, Option.toList_some]
  refine ⟨?_, hawaits.behaviour?_iff_of_moves h, fun hnone => absurd hnone (by simp)⟩
  rw [hcompletion, hawaits.completion_eq, Completion.after_concat]
  rfl

theorem bury {id : CallbackId} {cell : CallbackCell H}
    (hcell : bridge.callbacks[id.index]? = some cell) (hlast : cell.strong ≤ 1) :
    Awaits completion ready (events ++ ((Move.buried id).event? completion ready).toList)
      (bridge.bury id cell) := by
  have hbehaviour : bridge.behaviour? id = some cell.behaviour := by
    rw [behaviour?, hcell]
    rfl
  by_cases hid : id = ready
  · subst hid
    have hready : cell.behaviour = .ready completion := by
      rw [(hawaits.behaviour?_iff id).2 rfl, Option.some_inj] at hbehaviour
      exact hbehaviour.symm
    apply hawaits.heard (.bury hcell hlast) (if_pos rfl)
    rw [bury_ready hready, completions_modifyCompletion, if_pos rfl]
    rfl
  · apply hawaits.unheard (.bury hcell hlast) (if_neg hid) _ fun hheld => hheld.bury hid cell
    by_cases hready : ∃ other, cell.behaviour = .ready other
    · obtain ⟨other, hready⟩ := hready
      have hother : other.index ≠ completion.index := by
        intro hindex
        obtain rfl : other = completion := congrArg CompletionId.mk hindex
        rw [hready, hawaits.behaviour?_iff] at hbehaviour
        exact hid hbehaviour
      rw [bury_ready hready, completions_modifyCompletion, if_neg hother]
      rfl
    · rw [bury_other fun other h => hready ⟨other, h⟩]
      rfl

theorem accept {callback : CallbackId} {other : CompletionId}
    (hready : bridge.behaviour? callback = some (.ready other)) (token : Value) :
    Awaits completion ready
      (events ++ ((Move.invoked callback token).event? completion ready).toList)
      (bridge.modifyCompletion other (.accept token)) := by
  by_cases hcallback : callback = ready
  · subst hcallback
    obtain rfl : other = completion := by
      rw [(hawaits.behaviour?_iff callback).2 rfl] at hready
      cases hready
      rfl
    apply hawaits.heard (.accept hready token) (if_pos rfl)
    rw [completions_modifyCompletion, if_pos rfl]
    rfl
  · have hother : other.index ≠ completion.index := by
      intro hindex
      obtain rfl : other = completion := congrArg CompletionId.mk hindex
      exact hcallback ((hawaits.behaviour?_iff callback).1 hready)
    apply hawaits.unheard (.accept hready token) (if_neg hcallback) _ id
    rw [completions_modifyCompletion, if_neg hother]

theorem close (other : CompletionId) :
    Awaits completion ready (events ++ ((Move.closed other).event? completion ready).toList)
      (bridge.modifyCompletion other fun _ => .closed) := by
  by_cases hother : other = completion
  · subst hother
    apply hawaits.heard (.close bridge other) (if_pos rfl)
    rw [completions_modifyCompletion, if_pos rfl]
    rfl
  · apply hawaits.unheard (.close bridge other) (if_neg hother) _ id
    rw [completions_modifyCompletion, if_neg fun h => hother (congrArg CompletionId.mk h)]

/-- The events are told to the completion one after the other, and nothing else is of concern. -/
theorem step (h : Moves move bridge bridge') :
    Awaits completion ready (events ++ (move.event? completion ready).toList) bridge' := by
  have hnext := h
  cases h with
  | quiet hcallbacks hcompletions =>
      exact hawaits.unheard hnext rfl (by rw [hcompletions]) (·.of_callbacks_eq hcallbacks)
  | newCallback => exact hawaits.unheard hnext rfl rfl (·.newCallback _ _)
  | newReady =>
      refine hawaits.unheard hnext rfl ?_ fun hheld => ?_
      · simp [Bridge.newReady, newCallback, Array.getElem?_push, Nat.ne_of_lt hawaits.lt_size]
      · exact Held.newCallback (hheld.of_callbacks_eq rfl) _ _
  | share =>
      refine hawaits.unheard hnext rfl rfl fun hheld => hheld.modifyCallback fun _ cell _ _ => ?_
      exact Nat.succ_pos cell.strong
  | unshare hcell hshared =>
      refine hawaits.unheard hnext rfl rfl fun hheld => hheld.modifyCallback ?_
      rintro rfl other hother _
      rw [hcell, Option.some_inj] at hother
      exact hother ▸ Nat.sub_pos_of_lt hshared
  | bury hcell hlast => exact hawaits.bury hcell hlast
  | accept hready token => exact hawaits.accept hready token
  | close _ other => exact hawaits.close other

/-- A run tells the completion its events. -/
theorem run (h : Runs moves bridge bridge') :
    Awaits completion ready (events ++ Move.events completion ready moves) bridge' := by
  induction h with
  | refl => simpa [Move.events] using hawaits
  | tail _ hmove ih =>
      rw [Move.events_concat, ← List.append_assoc]
      exact (ih hawaits).step hmove

end Awaits

end Bridge

end Interop
