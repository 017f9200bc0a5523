import Interop.Proofs.Bridge.Releases
import Interop.Proofs.Closures

/-! # The tokens of callbacks

A call hands out a token for each callback that the caller passes. Native code may invoke a callback
until its token is gone: those of a call that never reached native code are taken back, those that
serve the call only go when it has ended, and those that native code may keep stay.
-/

namespace Interop

open Schema Relation Steps

/-! ## Callbacks that are passed -/

/-- Whether native code may invoke a callback when the call has ended. -/
def Schema.CallbackScope.outlasts : CallbackScope → Bool
  | .notified | .forever => true
  | .call | .async => false

/-- The scope of a value that is passed as a callback. -/
def Descriptor.passedScope? : Descriptor → Value → Option CallbackScope
  | .callback _ _ _ scope _ _, .callback _ => some scope
  | _, _ => none

/-- The scope of the callback that the caller passes for an argument, if it does. -/
def CallArg.passedScope? (values : List Value) (arg : CallArg) : Option CallbackScope :=
  arg.source.caller?.bind fun place => values[place]?.bind arg.descriptor.passedScope?

namespace CallArg

theorem passedScope?_eq_some_iff {arg : CallArg} {values : List Value} {scope : CallbackScope} :
    arg.passedScope? values = some scope ↔ ∃ trampoline params result data destroy place id,
      arg.descriptor = .callback trampoline params result scope data destroy ∧
        arg.source = .caller place ∧ values[place]? = some (.callback id) := by
  constructor
  · intro h
    obtain ⟨place, hplace, h⟩ := Option.bind_eq_some_iff.1 h
    obtain ⟨value, hvalue, h⟩ := Option.bind_eq_some_iff.1 h
    have hsource := ArgSource.caller?_eq_some_iff.1 hplace
    unfold Descriptor.passedScope? at h
    split at h
    next trampoline params result _ data destroy id hdescriptor =>
      cases h
      exact ⟨trampoline, params, result, data, destroy, place, id, hdescriptor, hsource, hvalue⟩
    next => cases h
  · rintro ⟨trampoline, params, result, data, destroy, place, id, hdescriptor, hsource, hvalue⟩
    rw [CallArg.passedScope?, hsource, hdescriptor, ArgSource.caller?, Option.bind_some, hvalue]
    rfl

end CallArg

namespace CallPlan

/-- The scopes of the callbacks that the caller passes, in order. -/
def passedScopes (plan : CallPlan) (values : List Value) : List CallbackScope :=
  (plan.params.zip values).filterMap fun (param, value) => param.descriptor.passedScope? value

end CallPlan

namespace CallBuilder

variable {builder : CallBuilder} {offset index shown : Nat} {role : Nat → Option Companion}
  {items : List (Param × Descriptor)} {args : List CallArg} {params : List VisibleParam}

/-- By induction over the parameters, along with the values that are still to be passed. -/
theorem Placed.filterMap_passedScope?
    (h : Placed builder offset role index shown items args params) (values : List Value) :
    args.filterMap (CallArg.passedScope? values) =
      (params.zip (values.drop shown)).filterMap fun (param, value) =>
        param.descriptor.passedScope? value := by
  induction h with
  | nil => rfl
  | @passed index shown param descriptor arg _ args params harg hsource _ ih =>
      have hdescriptor : arg.descriptor = descriptor.shift offset := by
        rw [harg] at hsource ⊢
        exact descriptor_argOf_of_caller (ArgSource.caller?_eq_some_iff.1 hsource)
      have hfirst : CallArg.passedScope? values arg =
          values[shown]?.bind (descriptor.shift offset).passedScope? := by
        rw [CallArg.passedScope?, hsource, hdescriptor]
        rfl
      rw [List.filterMap_cons, hfirst, ih]
      cases hvalue : values[shown]? with
      | none =>
          have hend := List.getElem?_eq_none_iff.1 hvalue
          simp [List.drop_eq_nil_of_le hend, List.drop_eq_nil_of_le (Nat.le_succ_of_le hend)]
      | some value =>
          obtain ⟨hlt, rfl⟩ := List.getElem?_eq_some_iff.1 hvalue
          rw [List.drop_eq_getElem_cons hlt, List.zip_cons_cons, List.filterMap_cons]
          rfl
  | withheld harg hsource _ ih =>
      rw [List.filterMap_cons, CallArg.passedScope?, hsource, ih]
      rfl

variable {callable : Callable} {owner : Option Owner} {described : List Descriptor}
  {returned : Descriptor} {plan : CallPlan}

theorem Built.filterMap_passedScope?
    (h : Built builder callable owner described returned args plan) (values : List Value) :
    plan.args.filterMap (CallArg.passedScope? values) = plan.passedScopes values := by
  have hnone : ∀ args : List CallArg, (∀ arg ∈ args, arg.source.caller? = none) →
      args.filterMap (CallArg.passedScope? values) = [] := by
    intro args hargs
    refine List.filterMap_eq_nil_iff.2 fun arg harg => ?_
    rw [CallArg.passedScope?, hargs arg harg]
    rfl
  have hbefore := hnone (receivers callable owner) fun arg harg => by
    obtain ⟨type, _, rfl⟩ := eq_of_mem_receivers harg
    rfl
  have hbehind := hnone (builder.errorArgs callable) fun arg harg => by
    rw [eq_of_mem_errorArgs harg]
    rfl
  rw [h.args_eq, List.filterMap_append, List.filterMap_append, hbefore, hbehind,
    h.placed.filterMap_passedScope?, List.nil_append, List.append_nil, List.drop_zero,
    CallPlan.passedScopes]

end CallBuilder

/-! ## Tokens by scope -/

/-- The tokens of those scopes that are wanted. -/
def tokensFor (wanted : CallbackScope → Bool) (passed : List (CallbackScope × Nat)) : List Nat :=
  (passed.filter fun entry => wanted entry.1).map (·.2)

section TokensFor

variable {passed : List (CallbackScope × Nat)} {wanted unwanted : CallbackScope → Bool}

theorem tokensFor_concat (wanted : CallbackScope → Bool) (passed : List (CallbackScope × Nat))
    (scope : CallbackScope) (token : Nat) :
    tokensFor wanted (passed ++ [(scope, token)]) =
      if wanted scope then tokensFor wanted passed ++ [token] else tokensFor wanted passed := by
  rw [tokensFor, tokensFor, List.filter_append, List.map_append, List.filter_singleton]
  cases wanted scope <;> simp

theorem length_tokensFor (wanted : CallbackScope → Bool) (scopes : List CallbackScope)
    (first : Nat) :
    (tokensFor wanted (scopes.zipIdx first)).length = scopes.countP wanted := by
  have hscopes : (scopes.zipIdx first).map (·.1) = scopes := List.zipIdx_map_fst ..
  calc (tokensFor wanted (scopes.zipIdx first)).length
      = (scopes.zipIdx first).countP fun entry => wanted entry.1 := by
        rw [tokensFor, List.length_map, List.countP_eq_length_filter]
    _ = scopes.countP wanted := by
        conv_rhs => rw [← hscopes, List.countP_map]
        rfl

theorem tokensFor_sublist (wanted : CallbackScope → Bool) (scopes : List CallbackScope)
    (first : Nat) :
    (tokensFor wanted (scopes.zipIdx first)).Sublist (List.range' first scopes.length) := by
  have hnumbers := (List.filter_sublist (p := fun entry : CallbackScope × Nat => wanted entry.1)
    (l := scopes.zipIdx first)).map (·.2)
  rwa [List.zipIdx_map_snd] at hnumbers

theorem tokensFor_congr (h : ∀ scope, wanted scope = unwanted scope) :
    tokensFor wanted passed = tokensFor unwanted passed := by
  rw [funext h]

/-- No two callbacks have the same token, so taking back those of some scopes leaves the others. -/
theorem filter_notMem_tokensFor (hdistinct : (passed.map (·.2)).Nodup) :
    (tokensFor wanted passed).filter (· ∉ tokensFor unwanted passed) =
      tokensFor (fun scope => wanted scope && !unwanted scope) passed := by
  have hinj := List.inj_on_of_nodup_map hdistinct
  have hmem : ∀ entry ∈ passed, entry.2 ∈ tokensFor unwanted passed ↔ unwanted entry.1 = true := by
    intro entry hentry
    rw [tokensFor, List.mem_map]
    constructor
    · rintro ⟨other, hother, hsame⟩
      obtain ⟨hother, hunwanted⟩ := List.mem_filter.1 hother
      rwa [← hinj hother hentry hsame]
    · exact fun hunwanted => ⟨entry, List.mem_filter.2 ⟨hentry, hunwanted⟩, rfl⟩
  calc (tokensFor wanted passed).filter (· ∉ tokensFor unwanted passed)
      = ((passed.filter fun entry => wanted entry.1).filter
          fun entry => entry.2 ∉ tokensFor unwanted passed).map (·.2) := List.filter_map ..
    _ = (passed.filter fun entry => wanted entry.1 && !unwanted entry.1).map (·.2) := by
        rw [List.filter_filter]
        refine congrArg _ (List.filter_congr fun entry hentry => ?_)
        have hfound : decide (entry.2 ∈ tokensFor unwanted passed) = unwanted entry.1 := by
          rw [Bool.eq_iff_iff, decide_eq_true_iff]
          exact hmem entry hentry
        rw [decide_not, Bool.and_comm, hfound]

end TokensFor

variable {H : Host}

namespace Bridge

variable {env : Env H} {bridge bridge' : Bridge H}

/-! ## What leaves tokens alone -/

def SameTokens (bridge bridge' : Bridge H) : Prop :=
  bridge'.closures.tokens = bridge.closures.tokens

theorem works_sameTokens (env : Env H) : Works env SameTokens :=
  works_of_view env (·.closures.tokens) fun _ _ _ _ _ _ _ _ => rfl

/-- The functions of the host that a call may enter neither register callbacks nor release them: the
one that is called, those that name the domains of errors, and those that give references back. -/
structure LeavesTokens (env : Env H) (plan : CallPlan) (bridge : Bridge H) : Prop where
  native (fn : H.Native) (h : bridge.symbols.find plan.library plan.symbol = .ok (.host fn))
    (call : NativeCall) (state : Bridge H) : SameTokens state (ending (env.native fn call state))
  naming (fn : H.Native) {call : NativeCall} (h : call.symbol = quarkNamer) (state : Bridge H) :
    SameTokens state (ending (env.native fn call state))
  effect (fn : H.Native) (call : NativeCall) (state : Bridge H) :
    SameTokens state (ending (env.effect fn call state))

theorem LeavesTokens.serves {plan : CallPlan} (h : LeavesTokens env plan bridge) :
    Serves env SameTokens :=
  (works_sameTokens env).serves (fun fn _ hnaming state => .single (h.naming fn hnaming state))
    fun fn call state => .single (h.effect fn call state)

theorem tokens_of_run (h : ReflTransGen SameTokens bridge bridge') :
    bridge'.closures.tokens = bridge.closures.tokens :=
  same_of_run (fun bridge : Bridge H => bridge.closures.tokens) h

/-! ## Taking tokens back -/

section TakingBack

variable (h : Serves env SameTokens)
include h

theorem tokens_removeClosure (token : Nat) (bridge : Bridge H) :
    (bridge.removeClosure env token).2.closures.tokens =
      bridge.closures.tokens.filter (· ≠ token) := by
  unfold removeClosure
  cases hfound : bridge.closures.get? token with
  | none =>
      have hnotMem := ClosureTable.notMem_tokens_of_get?_eq_none hfound
      refine (List.filter_eq_self.2 fun other hother => ?_).symm
      exact decide_eq_true fun hsame => hnotMem (hsame ▸ hother)
  | some callback =>
      exact (tokens_of_run (h.dropAll _ _)).trans (bridge.closures.tokens_remove token)

theorem tokens_removeClosures (tokens : List Nat) (bridge : Bridge H) :
    (tokens.foldl (fun bridge token => (bridge.removeClosure env token).2) bridge).closures.tokens =
      bridge.closures.tokens.filter (· ∉ tokens) := by
  induction tokens generalizing bridge with
  | nil => simp
  | cons token rest ih =>
      rw [List.foldl_cons, ih, tokens_removeClosure h, List.filter_filter]
      refine List.filter_congr fun other _ => ?_
      simp [Bool.and_comm]

theorem tokens_abandon (frame : Frame) (bridge : Bridge H) :
    (bridge.abandon env frame).closures.tokens =
      bridge.closures.tokens.filter (· ∉ frame.lastingTokens) :=
  (tokens_of_run (h.discardRecords _ _)).trans (tokens_removeClosures h _ _)

theorem tokens_releaseFrame (frame : Frame) (bridge : Bridge H) :
    (bridge.releaseFrame env frame).closures.tokens =
      bridge.closures.tokens.filter (· ∉ frame.callTokens) := by
  rw [releaseFrame_eq, tokens_of_run (h.dropAll _ _), tokens_of_run (h.releaseAll _ _),
    tokens_removeClosures h]

end TakingBack

/-! ## Handing tokens out -/

variable {start : Bridge H} {calling after : Calling H} {passed : List (CallbackScope × Nat)}
  {scopes : List CallbackScope} {values : List Value} {arg : CallArg}

/-- What is noted of the tokens of callbacks, given with their scopes. -/
structure Notes (start : Bridge H) (passed : List (CallbackScope × Nat)) (calling : Calling H) :
    Prop where
  live : calling.bridge.closures.tokens =
    (tokensFor (· ≠ .async) passed).reverse ++ start.closures.tokens
  callTokens : calling.frame.callTokens = tokensFor (· = .call) passed
  lastingTokens : calling.frame.lastingTokens = tokensFor CallbackScope.outlasts passed

theorem prepareCallback_of_none (h : arg.passedScope? values = none) (index : Nat) :
    Lowering.prepareCallback (H := H) values arg index = pure ⟨⟩ := by
  unfold Lowering.prepareCallback
  split
  next hdescriptor hsource =>
    split
    next id hvalue =>
      have hsome := CallArg.passedScope?_eq_some_iff.2
        ⟨_, _, _, _, _, _, id, hdescriptor, hsource, hvalue⟩
      rw [h] at hsome
      cases hsome
    next => rfl
  next => rfl

theorem closures_passOn (trampoline : Trampoline) (params : List Descriptor)
    (callback : CallbackId) (bridge : Bridge H) :
    (Lowering.passOn trampoline params callback bridge).2.closures = bridge.closures := by
  cases trampoline <;> rfl

theorem closures_registerClosure (callback : CallbackId) (scope : CallbackScope)
    (bridge : Bridge H) : (registerClosure callback scope bridge).2.closures =
      (bridge.closures.register callback scope).2 := by
  unfold registerClosure
  dsimp only
  split <;> rfl

/-- A callback gets the next token, which is noted as its scope demands. -/
theorem Notes.prepareCallback_of_some (hnotes : Notes start passed calling)
    {scope : CallbackScope} (h : arg.passedScope? values = some scope) (index : Nat) :
    ∃ after, Lowering.prepareCallback values arg index calling = .ok ⟨⟩ after ∧
      Notes start (passed ++ [(scope, calling.bridge.closures.next)]) after ∧
      after.bridge.closures.next = calling.bridge.closures.next + 1 ∧
      after.bridge.symbols = calling.bridge.symbols := by
  obtain ⟨trampoline, params, result, data, destroy, place, id, hdescriptor, hsource, hvalue⟩ :=
    CallArg.passedScope?_eq_some_iff.1 h
  let passing := Lowering.passOn trampoline params id calling.bridge
  let registering := registerClosure passing.1 scope passing.2
  have hpassed : passing.2.closures = calling.bridge.closures := closures_passOn ..
  have htoken : registering.1 = calling.bridge.closures.next := by
    rw [← hpassed]
    rfl
  have hclosures : registering.2.closures =
      (calling.bridge.closures.register passing.1 scope).2 := by
    rw [← hpassed]
    exact closures_registerClosure ..
  have hsymbols : registering.2.symbols = calling.bridge.symbols := by
    cases trampoline <;> cases scope <;> rfl
  let frame : Frame := { calling.frame with
    callbacks := calling.frame.callbacks ++ [⟨index, passing.1, registering.1⟩]
    callTokens := if scope = .call then calling.frame.callTokens ++ [registering.1]
      else calling.frame.callTokens
    lastingTokens := if scope = .notified ∨ scope = .forever then
        calling.frame.lastingTokens ++ [registering.1]
      else calling.frame.lastingTokens }
  have hok : Lowering.prepareCallback values arg index calling = .ok ⟨⟩ ⟨registering.2, frame⟩ := by
    unfold Lowering.prepareCallback
    rw [hdescriptor, hsource]
    dsimp only
    rw [hvalue]
    rfl
  -- the tokens that are live, those of the call and those that last
  refine ⟨_, hok, ⟨?_, ?_, ?_⟩, congrArg ClosureTable.next hclosures, hsymbols⟩
  · dsimp only
    rw [hclosures, ClosureTable.tokens_register, tokensFor_concat, hnotes.live]
    cases scope <;> simp
  · simp only [frame]
    rw [htoken, hnotes.callTokens, tokensFor_concat]
    cases scope <;> rfl
  · simp only [frame]
    rw [htoken, hnotes.lastingTokens, tokensFor_concat]
    cases scope <;> rfl

/-- The callbacks of all arguments are registered one after the other, by induction over the
arguments. -/
theorem Notes.forM_prepareCallback (values : List Value)
    (hnotes : Notes start (scopes.zipIdx start.closures.next) calling)
    (hnext : calling.bridge.closures.next = start.closures.next + scopes.length)
    (args : List CallArg) (index : Nat) :
    ∃ after, ((args.zipIdx index).forM fun (arg, index) =>
        Lowering.prepareCallback values arg index : Lowering H PUnit) calling = .ok ⟨⟩ after ∧
      Notes start ((scopes ++ args.filterMap (CallArg.passedScope? values)).zipIdx
        start.closures.next) after ∧
      after.bridge.symbols = calling.bridge.symbols := by
  induction args generalizing scopes calling index with
  | nil => exact ⟨calling, rfl, by rwa [List.filterMap_nil, List.append_nil], rfl⟩
  | cons arg rest ih =>
      rw [List.zipIdx_cons, List.filterMap_cons]
      cases hscope : arg.passedScope? values with
      | none =>
          obtain ⟨after, hok, hafter⟩ := ih hnotes hnext (index + 1)
          refine ⟨after, ?_, hafter⟩
          rw [← hok]
          exact bind_eq_of_eq_ok (congrFun (prepareCallback_of_none hscope index) calling)
      | some scope =>
          obtain ⟨middle, hfirst, hmiddle, hstep, hsymbols⟩ :=
            hnotes.prepareCallback_of_some hscope index
          have hnumbered : (scopes ++ [scope]).zipIdx start.closures.next =
              scopes.zipIdx start.closures.next ++ [(scope, calling.bridge.closures.next)] := by
            rw [List.zipIdx_append, hnext, Nat.add_comm]
            rfl
          rw [← hnumbered] at hmiddle
          obtain ⟨after, hok, hafter, hsame⟩ := ih hmiddle
            (by rw [hstep, hnext, List.length_append]; rfl) (index + 1)
          rw [List.append_assoc, List.singleton_append] at hafter
          exact ⟨after, (bind_eq_of_eq_ok hfirst).trans hok, hafter, hsame.trans hsymbols⟩

/-! ## Native arguments and native code leave tokens alone -/

def KeepsNotes (calling calling' : Calling H) : Prop :=
  (calling'.bridge.closures.tokens, calling'.frame.callTokens, calling'.frame.lastingTokens) =
    (calling.bridge.closures.tokens, calling.frame.callTokens, calling.frame.lastingTokens)

theorem makes_keepsNotes : Makes (H := H) SameTokens KeepsNotes where
  bridge h _ := by rw [KeepsNotes, h]
  beside _ h := by rw [KeepsNotes, h.callTokens, h.lastingTokens]

theorem Notes.of_run (hnotes : Notes start passed calling)
    (h : ReflTransGen KeepsNotes calling after) : Notes start passed after := by
  obtain ⟨htokens, hcall, hlasting⟩ := Prod.mk.injEq .. ▸ Prod.mk.injEq .. ▸ same_of_run _ h
  exact ⟨htokens.trans hnotes.live, hcall.trans hnotes.callTokens,
    hlasting.trans hnotes.lastingTokens⟩

/-- The tokens of all callbacks that the caller passes are noted, also if an argument cannot be made.
The functions are found under the same symbols as before. -/
theorem notes_lower (env : Env H) (plan : CallPlan) (receiver : Option Value)
    (values : List Value) (start : Bridge H) :
    Notes start ((plan.args.filterMap (CallArg.passedScope? values)).zipIdx start.closures.next)
      (lowered env plan receiver values start) ∧
    (lowered env plan receiver values start).bridge.symbols = start.symbols := by
  have hnothing : Notes start (List.zipIdx [] start.closures.next) ⟨start, {}⟩ :=
    ⟨rfl, rfl, rfl⟩
  obtain ⟨prepared, hprepared, hnotes, hsymbols⟩ :=
    hnothing.forM_prepareCallback values rfl plan.args 0
  have harguments : Lowering.lower env plan receiver values ⟨start, {}⟩ =
      plan.args.zipIdx.forM (Lowering.passArg env plan receiver values) prepared :=
    bind_eq_of_eq_ok hprepared
  have hkeeps : Within KeepsNotes
      (plan.args.zipIdx.forM (Lowering.passArg env plan receiver values)) := by
    refine Within.forM (fun entry => ?_) _
    refine (Lowering.within_lowerArg_noting makes_keepsNotes (works_sameTokens env)
      (fun _ _ _ => rfl) plan receiver values entry.1 entry.2).bind fun _ => ?_
    exact fun _ => .single rfl
  have hsame : Within (fun calling calling' : Calling H =>
      calling'.bridge.symbols = calling.bridge.symbols)
      (plan.args.zipIdx.forM (Lowering.passArg env plan receiver values)) := by
    refine Within.forM (fun entry => ?_) _
    refine (Lowering.within_lowerArg_noting ⟨fun h _ => h, fun _ _ => rfl⟩
      (works_of_view env (·.symbols) fun _ _ _ _ _ _ _ _ => rfl) (fun _ _ _ => rfl) plan
      receiver values entry.1 entry.2).bind fun _ => ?_
    exact fun _ => .single rfl
  rw [lowered, harguments]
  exact ⟨hnotes.of_run (hkeeps prepared),
    (same_of_run (fun calling : Calling H => calling.bridge.symbols) (hsame prepared)).trans
      hsymbols⟩

/-- Entering the native function leaves tokens alone. -/
theorem notes_enterPlan {plan : CallPlan} (h : LeavesTokens env plan bridge)
    (receiver : Option Value) (values : List Value) :
    Notes bridge ((plan.args.filterMap (CallArg.passedScope? values)).zipIdx bridge.closures.next)
      (ending (enterPlan env plan receiver values ⟨bridge, {}⟩)) := by
  obtain ⟨hnotes, hsymbols⟩ := notes_lower env plan receiver values bridge
  unfold lowered at hnotes hsymbols
  cases hlower : Lowering.lower env plan receiver values ⟨bridge, {}⟩ with
  | error error calling =>
      rw [hlower] at hnotes
      rw [enterPlan, bind_eq_of_eq_error hlower]
      exact hnotes
  | ok u calling =>
      rw [hlower] at hnotes hsymbols
      have henter := enterPlan_eq_of_lower_eq_ok hlower
      have hrun : ReflTransGen SameTokens calling.bridge
          (ending (inCall (enter env plan.library (plan.nativeCall calling.frame))
            calling.bridge)) := by
        rw [ending_inCall]
        exact h.serves.enter fun fn hfound state =>
          .single (h.native fn (hsymbols ▸ hfound) (plan.nativeCall calling.frame) state)
      have hkeeps := Lowering.runs_of_bridge makes_keepsNotes hrun calling.frame
      rw [henter]
      refine hnotes.of_run ?_
      rcases onBridge_cases (inCall (enter env plan.library (plan.nativeCall calling.frame)))
        calling with ⟨raw, hends⟩ | ⟨error, hends⟩ <;> rwa [hends]

/-! ## What is left of a call -/

/-- The values are accepted, the native arguments are made, and the native function comes back. -/
def Returned (env : Env H) (plan : CallPlan) (receiver : Option Value) (values : List Value)
    (bridge : Bridge H) : Prop :=
  (∃ accepted, checkArity plan.name plan.params values bridge = .ok ⟨⟩ accepted) ∧
    ∃ raw calling, enterPlan env plan receiver values ⟨bridge, {}⟩ = .ok raw calling

section Left

variable (hmade : start.closures.Made) {wanted unwanted : CallbackScope → Bool}
include hmade

/-- What was there before has other tokens than the callbacks of the call. -/
theorem filter_notMem_reverse_append :
    ((tokensFor wanted (scopes.zipIdx start.closures.next)).reverse ++
        start.closures.tokens).filter
      (· ∉ tokensFor unwanted (scopes.zipIdx start.closures.next)) =
    (tokensFor (fun scope => wanted scope && !unwanted scope)
      (scopes.zipIdx start.closures.next)).reverse ++ start.closures.tokens := by
  have hnumbers : (scopes.zipIdx start.closures.next).map (·.2) =
      List.range' start.closures.next scopes.length := List.zipIdx_map_snd ..
  have hdistinct : ((scopes.zipIdx start.closures.next).map (·.2)).Nodup :=
    hnumbers ▸ List.nodup_range'
  have hold : ∀ token ∈ start.closures.tokens,
      token ∉ tokensFor unwanted (scopes.zipIdx start.closures.next) := by
    intro token htoken hmem
    have hfresh := List.mem_range'_1.1 ((tokensFor_sublist _ _ _).subset hmem)
    have hlt := hmade.lt_next htoken
    omega
  rw [List.filter_append, List.filter_reverse, filter_notMem_tokensFor hdistinct,
    List.filter_eq_self.2 fun token htoken => decide_eq_true (hold token htoken)]

variable (hnotes : Notes start (scopes.zipIdx start.closures.next) calling)
include hnotes

theorem Notes.filter_callTokens :
    calling.bridge.closures.tokens.filter (· ∉ calling.frame.callTokens) =
      (tokensFor CallbackScope.outlasts (scopes.zipIdx start.closures.next)).reverse ++
        start.closures.tokens := by
  rw [hnotes.live, hnotes.callTokens, filter_notMem_reverse_append hmade]
  congr 2
  refine tokensFor_congr fun scope => ?_
  cases scope <;> rfl

theorem Notes.filter_all :
    (calling.bridge.closures.tokens.filter (· ∉ calling.frame.lastingTokens)).filter
      (· ∉ calling.frame.callTokens) = start.closures.tokens := by
  rw [hnotes.live, hnotes.lastingTokens, hnotes.callTokens, filter_notMem_reverse_append hmade,
    filter_notMem_reverse_append hmade]
  have hnothing : tokensFor
      (fun scope => (decide (scope ≠ .async) && !scope.outlasts) && !decide (scope = .call))
      (scopes.zipIdx start.closures.next) = [] := by
    rw [tokensFor, List.map_eq_nil_iff, List.filter_eq_nil_iff]
    rintro ⟨scope, token⟩ _
    cases scope <;> simp [CallbackScope.outlasts]
  rw [hnothing, List.reverse_nil, List.nil_append]

end Left

section Invoke

variable {plan : CallPlan} {receiver : Option Value} (h : LeavesTokens env plan bridge)
  (hmade : bridge.closures.Made)
include h hmade

/-- A call that does not get as far as its result takes all its tokens back. -/
theorem tokens_invoke_of_not_returned (hreturned : ¬ Returned env plan receiver values bridge) :
    (ending (invoke env plan receiver values bridge)).closures.tokens = bridge.closures.tokens := by
  rcases checkArity_accepts_or_refuses plan.name plan.params values bridge with
    haccepted | ⟨error, hrefused⟩
  · have hnotes := notes_enterPlan h receiver values
    rw [invoke_eq_of_accepted haccepted]
    cases hentered : enterPlan env plan receiver values ⟨bridge, {}⟩ with
    | ok raw calling => exact absurd ⟨⟨_, haccepted⟩, raw, calling, hentered⟩ hreturned
    | error error calling =>
        rw [hentered] at hnotes
        dsimp only [ending]
        rw [tokens_releaseFrame h.serves, tokens_abandon h.serves]
        exact hnotes.filter_all hmade
  · rw [invoke_eq_of_refused hrefused]
    rfl

/-- A call that got as far as its result leaves the tokens that native code may keep, whether there
was an error or not. -/
theorem tokens_invoke_of_returned (hreturned : Returned env plan receiver values bridge) :
    (ending (invoke env plan receiver values bridge)).closures.tokens =
      (tokensFor CallbackScope.outlasts
        ((plan.args.filterMap (CallArg.passedScope? values)).zipIdx
          bridge.closures.next)).reverse ++ bridge.closures.tokens := by
  obtain ⟨⟨accepted, harity⟩, raw, calling, hentered⟩ := hreturned
  obtain rfl := of_checkArity_eq_ok harity
  have hnotes := notes_enterPlan h receiver values
  rw [hentered] at hnotes
  have hcompleted := tokens_of_run (h.serves.within_complete plan calling.frame raw calling.bridge)
  rw [invoke_eq_of_accepted harity, hentered, ← hnotes.filter_callTokens hmade]
  dsimp only [ending]
  rw [← hcompleted]
  cases complete env plan calling.frame raw calling.bridge with
  | ok result after | error error after => exact tokens_releaseFrame h.serves _ _

end Invoke

/-- A call leaves the live tokens as they were if its values are refused, its native arguments
cannot be made or the native function does not come back. Otherwise, also if the native side reports
an error or the results cannot be converted, there is one new token for each callback that the caller
passed for native code to keep, and nothing else changes. -/
theorem tokens_invoke {builder : CallBuilder} {callable : Callable} {owner : Option Owner}
    {usage usage' : Usage} {plan : CallPlan} (h : LeavesTokens env plan bridge)
    (hmade : bridge.closures.Made)
    (hbuilt : builder.build callable owner usage = .ok plan usage') (receiver : Option Value)
    (values : List Value) :
    let after := ending (invoke env plan receiver values bridge)
    (¬ Returned env plan receiver values bridge →
        after.closures.tokens = bridge.closures.tokens) ∧
      (Returned env plan receiver values bridge → ∃ fresh,
        after.closures.tokens = fresh ++ bridge.closures.tokens ∧
          fresh.length = (plan.passedScopes values).countP CallbackScope.outlasts ∧
          fresh.Nodup ∧
          ∀ token ∈ fresh, bridge.closures.next ≤ token ∧ token ∉ bridge.closures.tokens) := by
  intro after
  obtain ⟨_, _, _, hbuilt⟩ := CallBuilder.exists_built_of_build hbuilt
  refine ⟨tokens_invoke_of_not_returned h hmade, fun hreturned => ?_⟩
  have hleft := tokens_invoke_of_returned h hmade hreturned
  rw [hbuilt.filterMap_passedScope? values] at hleft
  have hsublist := tokensFor_sublist CallbackScope.outlasts (plan.passedScopes values)
    bridge.closures.next
  refine ⟨_, hleft, ?_, ?_, fun token htoken => ?_⟩
  · rw [List.length_reverse, length_tokensFor]
  · exact List.nodup_reverse.2 (hsublist.nodup List.nodup_range')
  · obtain ⟨hfirst, _⟩ := List.mem_range'_1.1 (hsublist.subset (List.mem_reverse.1 htoken))
    exact ⟨hfirst, fun hold => absurd (hmade.lt_next hold) (Nat.not_lt.2 hfirst)⟩

/-! ## Listeners -/

def harbour : Namespace where
  name := "N"
  libraries := ["libn.so"]
  callbacks := [{ name := "Report", params := [{ name := "data", type := .named "gpointer" }] }]

def harbourEnv : Env greeter := { greeterEnv with
  compiler := .ofRepository (.ofSpaces [harbour]) {} }

def listener (name : String) (scope : CallbackScope) : Param :=
  { name := name, type := .named "Report", scope := some scope }

/-- A function that takes a callback of each scope. -/
def listen : Callable where
  name := "listen"
  symbol := "n_greet"
  params := [listener "now" .call, listener "later" .async, listener "often" .notified,
    listener "always" .forever]

def listenPlan : CallPlan :=
  (value? ((harbourEnv.compiler.builder harbour).build listen none {})).getD default

/-- A state with a callback, which is not passed to anyone. -/
def harbourBridge : Bridge greeter := (newCallback (.destroyNotify 0) [] greeterBridge).2

def listeners : List Value := List.replicate 4 (.callback ⟨0⟩)

theorem leavesTokens_harbourEnv (plan : CallPlan) : LeavesTokens harbourEnv plan harbourBridge where
  native _ _ _ _ := rfl
  naming _ _ _ _ := rfl
  effect _ _ _ := rfl

theorem exists_build_listenPlan : ∃ usage,
    (harbourEnv.compiler.builder harbour).build listen none {} = .ok listenPlan usage :=
  ⟨_, eq_ok_of_isSome default (by decide +kernel)⟩

theorem returned_listenPlan : Returned harbourEnv listenPlan none listeners harbourBridge :=
  ⟨⟨_, eq_ok_of_isSome ⟨⟩ (by decide +kernel)⟩, _, _, eq_ok_of_isSome default (by decide +kernel)⟩

/-- Of the four tokens that are handed out, those stay that native code may keep. -/
theorem listen_tokens_left :
    (∃ usage, (harbourEnv.compiler.builder harbour).build listen none {} = .ok listenPlan usage) ∧
      harbourBridge.closures.tokens = [] ∧
      (listenPlan.passedScopes listeners).countP CallbackScope.outlasts = 2 ∧
      (ending (invoke harbourEnv listenPlan none listeners harbourBridge)).closures.tokens =
        [4, 3] ∧
      ∃ fresh, (ending (invoke harbourEnv listenPlan none listeners harbourBridge)).closures.tokens =
        fresh ++ harbourBridge.closures.tokens ∧ fresh.length = 2 := by
  obtain ⟨usage, hbuilt⟩ := exists_build_listenPlan
  have hcount : (listenPlan.passedScopes listeners).countP CallbackScope.outlasts = 2 := by
    decide +kernel
  obtain ⟨fresh, hleft, hlength, _⟩ :=
    (tokens_invoke (leavesTokens_harbourEnv listenPlan) .empty hbuilt none listeners).2
      returned_listenPlan
  exact ⟨⟨usage, hbuilt⟩, rfl, hcount, by decide +kernel, fresh, hleft, hlength.trans hcount⟩

end Bridge

end Interop
