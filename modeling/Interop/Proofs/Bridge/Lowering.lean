import Interop.Bridge.Lower
import Interop.Proofs.Bridge.Operations

/-! # Making the arguments of a call

Lowering registers callbacks, makes blocks and writes to them, and notes all of it in a frame. What
happens to the bridge meanwhile is a run of permitted changes, also if a later argument fails. No
function of the host is entered.
-/

namespace Interop

open Schema Relation Steps

variable {H : Host}

namespace Bridge

variable {env : Env H} {R : Bridge H → Bridge H → Prop}

/-! ## Callbacks and their tokens -/

theorem Counts.retainShare (h : Counts env R) (bridge : Bridge H) (share : Value.Share) :
    ReflTransGen R bridge (bridge.retainShare share) := by
  cases share with
  | wrapper id => exact .single (h.retain bridge id)
  | callback id => exact .single (h.share bridge id)

theorem Counts.retainAll (h : Counts env R) (value : Value) (bridge : Bridge H) :
    ReflTransGen R bridge (Bridge.retain value bridge) :=
  foldl_runs h.retainShare value.shares bridge

theorem Permits.registerClosure (h : Permits env R) (callback : CallbackId)
    (scope : CallbackScope) (bridge : Bridge H) :
    ReflTransGen R bridge (registerClosure callback scope bridge).2 := by
  have hentered : ReflTransGen R bridge
      { bridge with closures := (bridge.closures.register callback scope).2 } :=
    .single (h.other ⟨rfl, rfl, rfl, rfl, rfl, rfl, rfl⟩)
  simp only [Bridge.registerClosure]
  split
  next => exact hentered
  next => exact hentered.trans (h.works.retainAll _ _)

end Bridge

/-- The bridge of one state of a call comes after that of another. Frames are not compared. -/
def Calling.Follows (R : Bridge H → Bridge H → Prop) (calling calling' : Calling H) : Prop :=
  ReflTransGen R calling.bridge calling'.bridge

/-- The relation of states of a call permits the changes of bridges that the other one does, and
changes of a frame by which neither an argument nor a record is noted. -/
structure Lowers (R : Bridge H → Bridge H → Prop) (S : Calling H → Calling H → Prop) : Prop where
  bridge {bridge bridge' : Bridge H} (h : R bridge bridge') (frame : Frame) :
    S ⟨bridge, frame⟩ ⟨bridge', frame⟩
  frame {frame frame' : Frame} (bridge : Bridge H) (hargs : frame'.args = frame.args)
    (hrecords : frame'.records = frame.records) : S ⟨bridge, frame⟩ ⟨bridge, frame'⟩

/-- The frames differ at most in blocks and release functions. -/
structure Frame.Beside (frame frame' : Frame) : Prop where
  args : frame'.args = frame.args
  records : frame'.records = frame.records
  callTokens : frame'.callTokens = frame.callTokens
  lastingTokens : frame'.lastingTokens = frame.lastingTokens
  callbacks : frame'.callbacks = frame.callbacks

/-- The relation of states of a call permits the changes of bridges that the other one does, and
that blocks and release functions are noted. -/
structure Makes (R : Bridge H → Bridge H → Prop) (S : Calling H → Calling H → Prop) : Prop where
  bridge {bridge bridge' : Bridge H} (h : R bridge bridge') (frame : Frame) :
    S ⟨bridge, frame⟩ ⟨bridge', frame⟩
  beside {frame frame' : Frame} (bridge : Bridge H) (h : frame.Beside frame') :
    S ⟨bridge, frame⟩ ⟨bridge, frame'⟩

theorem Lowers.makes {R : Bridge H → Bridge H → Prop} {S : Calling H → Calling H → Prop}
    (h : Lowers R S) : Makes R S where
  bridge := h.bridge
  beside bridge hbeside := h.frame bridge hbeside.args hbeside.records

namespace Lowering

open Bridge

variable {env : Env H} {R : Bridge H → Bridge H → Prop} {S : Calling H → Calling H → Prop}
  {α : Type}

theorem runs_of_follows {calling calling' : Calling H}
    (h : ReflTransGen (Calling.Follows R) calling calling') :
    ReflTransGen R calling.bridge calling'.bridge := by
  induction h with
  | refl => exact .refl
  | tail _ hstep ih => exact ih.trans hstep

theorem lowers_follows (R : Bridge H → Bridge H → Prop) : Lowers R (Calling.Follows R) where
  bridge h _ := .single h
  frame _ _ _ := .refl

/-! ## What lowering is made of -/

/-- Steps that are put together from steps with the property have it too. -/
structure Composes (P : ∀ α : Type, Lowering H α → Prop) : Prop where
  gives {α : Type} (a : α) : P α (pure a)
  refuses {α : Type} (error : MarshalError) : P α (throw (.marshal error))
  looks : P (Calling H) get
  follows {α β : Type} {step : Lowering H α} {next : α → Lowering H β} (h : P α step)
    (hnext : ∀ a, P β (next a)) : P β (step >>= next)

/-- The steps that make arguments have the property: making and writing blocks, making release
functions, and noting them. -/
structure Builds (P : ∀ α : Type, Lowering H α → Prop) : Prop extends Composes P where
  alloc (size : Nat) (typeName library : Option String) :
    P Handle (onBridge (inCall (Bridge.alloc size typeName library)))
  write (handle : Handle) (descriptor : Descriptor) (offset : Nat) (value : Value) :
    P Unit (write handle descriptor offset value)
  notify (token : Nat) : P CallbackId (update (Bridge.newCallback (.destroyNotify token) []))
  note {f : Frame → Frame} (hf : ∀ frame : Frame, frame.Beside (f frame)) : P Unit (modifyFrame f)

section Builds

variable {P : ∀ α : Type, Lowering H α → Prop}

/-- An argument that the caller makes no record for, if each way to make one has the property. -/
theorem Composes.lowerArg_of (h : Composes P)
    (hcaller : ∀ arg value, P Value (lowerCaller arg value))
    (hlength : ∀ arg count, P Value (lowerLength arg count))
    (hslot : ∀ descriptor, P Handle (slot descriptor))
    (hnotify : ∀ callback, P Value (lowerNotify callback))
    (plan : CallPlan) (receiver : Option Value) (values : List Value)
    {arg : CallArg} (hrecord : arg.source = .outSlot → callerRecord? env arg = none)
    (index : Nat) : P Value (lowerArg env plan receiver values arg index) := by
  unfold lowerArg
  split
  next =>
    split
    next => exact h.gives _
    next => exact h.refuses _
  next =>
    refine h.follows h.looks fun calling => ?_
    split
    next => exact h.gives _
    next =>
      split
      next => exact hcaller _ _
      next => exact h.gives _
  next => exact hlength _ _
  next => exact h.follows (hslot _) fun _ => h.gives _
  next => exact h.follows (hslot _) fun _ => h.gives _
  next hsource =>
    rw [lowerOutput, hrecord hsource]
    exact h.follows (hslot _) fun _ => h.gives _
  next => exact h.follows h.looks fun _ => h.gives _
  next => exact hnotify _

/-- A callback of the caller is passed on, registered and noted, if all of that has the property. -/
theorem Composes.prepareCallback_of (h : Composes P)
    (hpass : ∀ trampoline params id, P CallbackId (update (passOn trampoline params id)))
    (hregister : ∀ callback scope, P Nat (update (Bridge.registerClosure callback scope)))
    (hnote : ∀ f : Frame → Frame, (∀ frame, (f frame).args = frame.args ∧
      (f frame).records = frame.records) → P Unit (modifyFrame f))
    (values : List Value) (arg : CallArg) (index : Nat) :
    P Unit (prepareCallback values arg index) := by
  unfold prepareCallback
  split
  next =>
    split
    next =>
      exact h.follows (hpass _ _ _) fun _ => h.follows (hregister _ _) fun _ =>
        hnote _ fun _ => ⟨rfl, rfl⟩
    next => exact h.gives _
  next => exact h.gives _

/-- What holds of a value that is given or refused as it is, of an array if it holds of its items, and
of items one behind the other holds of all values of the caller. -/
theorem lowerValue_induction {V : Descriptor → Value → Lowering H Value → Prop}
    {I : Handle → Descriptor → Nat → Nat → List Value → Lowering H Unit → Prop}
    (hgives : ∀ descriptor value lowered, V descriptor value (pure lowered))
    (hrefuses : ∀ descriptor value error, V descriptor value (throw (.marshal error)))
    (hkept : ∀ element length kind elementSize (items : List Value),
      ¬ (items.isEmpty && length != .zeroTerminated) = true →
      (∀ handle, I handle element elementSize 0 items
        (lowerItems handle element elementSize 0 items)) →
      V (.array element .full length kind elementSize) (.array items) (do
        let handle ← onBridge
          (inCall (Bridge.alloc (arrayBytes items.length elementSize length) none none))
        lowerItems handle element elementSize 0 items
        return .pointer handle))
    (hlent : ∀ element ownership length kind elementSize (items : List Value),
      ¬ (items.isEmpty && length != .zeroTerminated) = true → ownership ≠ .full →
      (∀ handle, I handle element elementSize 0 items
        (lowerItems handle element elementSize 0 items)) →
      V (.array element ownership length kind elementSize) (.array items) (do
        let handle ← scratch (arrayBytes items.length elementSize length)
        lowerItems handle element elementSize 0 items
        return .pointer handle))
    (hnil : ∀ handle element elementSize index, I handle element elementSize index [] (pure ⟨⟩))
    (hcons : ∀ handle element elementSize index item rest,
      V element item (lowerValue element item) →
      I handle element elementSize (index + 1) rest
        (lowerItems handle element elementSize (index + 1) rest) →
      I handle element elementSize index (item :: rest) (do
        let lowered ← lowerValue element item
        write handle element (index * elementSize) lowered
        lowerItems handle element elementSize (index + 1) rest)) :
    (∀ descriptor value, V descriptor value (lowerValue descriptor value)) ∧
    ∀ handle element elementSize index items,
      I handle element elementSize index items
        (lowerItems handle element elementSize index items) := by
  refine @lowerValue.mutual_induct H _ _ ?_ ?_ ?_ ?_ ?_ ?_ ?_ ?_ ?_
  · intro element ownership length kind elementSize items hempty
    rw [lowerValue, if_pos hempty]
    exact hgives _ _ _
  · intro element length kind elementSize items hempty ih
    rw [lowerValue, if_neg hempty, if_pos rfl]
    exact hkept element length kind elementSize items hempty ih
  · intro element ownership length kind elementSize items hempty hlends ih
    rw [lowerValue, if_neg hempty, if_neg hlends]
    exact hlent element ownership length kind elementSize items hempty hlends ih
  · intro element ownership length kind elementSize other harray hnull
    rw [lowerValue, if_pos hnull]
    · exact hgives _ _ _
    · exact harray
  · intro element ownership length kind elementSize other harray hnull
    rw [lowerValue, if_neg hnull]
    · exact hrefuses _ _ _
    · exact harray
  · intro descriptor id handle harray
    rw [lowerValue]
    · exact hgives _ _ _
    · exact harray
  · intro descriptor other hobject hitems harray
    rw [lowerValue]
    · exact hgives _ _ _
    · exact harray
    · exact hobject
    · exact hitems
  · intro handle element elementSize index
    rw [lowerItems]
    exact hnil handle element elementSize index
  · intro handle element elementSize index item rest ihitem ihrest
    rw [lowerItems]
    exact hcons handle element elementSize index item rest ihitem ihrest

variable (h : Builds P)
include h

theorem Builds.scratch (size : Nat) : P Handle (scratch size) :=
  h.follows (h.alloc _ _ _) fun _ =>
    h.follows (h.note fun _ => ⟨rfl, rfl, rfl, rfl, rfl⟩) fun _ => h.gives _

theorem Builds.slot (descriptor : Descriptor) : P Handle (slot descriptor) :=
  h.scratch _

/-- A value of the caller and the items of an array. -/
theorem Builds.lowerValue_lowerItems :
    (∀ (descriptor : Descriptor) (value : Value), P Value (lowerValue descriptor value)) ∧
    ∀ (handle : Handle) (element : Descriptor) (elementSize index : Nat) (items : List Value),
      P Unit (lowerItems handle element elementSize index items) := by
  apply @lowerValue_induction H (fun _ _ => P Value) (fun _ _ _ _ _ => P Unit)
  case hgives => exact fun _ _ _ => h.gives _
  case hrefuses => exact fun _ _ _ => h.refuses _
  case hkept =>
    exact fun _ _ _ _ _ _ hitems => h.follows (h.alloc _ _ _) fun handle =>
      h.follows (hitems handle) fun _ => h.gives _
  case hlent =>
    exact fun _ _ _ _ _ _ _ _ hitems => h.follows (h.scratch _) fun handle =>
      h.follows (hitems handle) fun _ => h.gives _
  case hnil => exact fun _ _ _ _ => h.gives _
  case hcons =>
    exact fun _ _ _ _ _ _ hitem hrest =>
      h.follows hitem fun _ => h.follows (h.write _ _ _ _) fun _ => hrest

theorem Builds.lowerCaller (arg : CallArg) (value : Value) : P Value (lowerCaller arg value) := by
  have hvalue := h.lowerValue_lowerItems.1
  unfold Lowering.lowerCaller
  split
  next =>
    split
    next =>
      exact h.follows (h.slot _) fun _ => h.follows (hvalue _ _) fun _ =>
        h.follows (h.write _ _ _ _) fun _ => h.gives _
    next => exact hvalue _ _
  next => exact hvalue _ _

theorem Builds.lowerLength (arg : CallArg) (count : Nat) : P Value (lowerLength arg count) := by
  unfold Lowering.lowerLength
  split
  next =>
    refine h.follows (h.slot _) fun handle => ?_
    dsimp only
    split
    next => exact h.follows (h.write _ _ _ _) fun _ => h.gives _
    next => exact h.follows (h.gives _) fun _ => h.gives _
  next => exact h.gives _

theorem Builds.lowerNotify (callback : Nat) : P Value (lowerNotify callback) := by
  refine h.follows h.looks fun calling => ?_
  split
  next => exact h.gives _
  next =>
    exact h.follows (h.notify _) fun _ =>
      h.follows (h.note fun _ => ⟨rfl, rfl, rfl, rfl, rfl⟩) fun _ => h.gives _

/-- An argument that the caller makes no record for. -/
theorem Builds.lowerArg (plan : CallPlan) (receiver : Option Value) (values : List Value)
    {arg : CallArg} (hrecord : arg.source = .outSlot → callerRecord? env arg = none)
    (index : Nat) : P Value (lowerArg env plan receiver values arg index) :=
  h.lowerArg_of h.lowerCaller h.lowerLength h.slot h.lowerNotify plan receiver values hrecord index

end Builds

theorem composes_within (S : Calling H → Calling H → Prop) :
    Composes fun _ step => Within S step where
  gives := within_pure
  refuses _ := within_throw _
  looks := within_get
  follows h hnext := h.bind hnext

/-- An argument that the caller makes no record for, if each way to make one leads along
transitions. -/
theorem within_lowerArg_of
    (hcaller : ∀ arg value, Within S (lowerCaller arg value : Lowering H Value))
    (hlength : ∀ arg count, Within S (lowerLength arg count : Lowering H Value))
    (hslot : ∀ descriptor, Within S (slot descriptor : Lowering H Handle))
    (hnotify : ∀ callback, Within S (lowerNotify callback : Lowering H Value))
    (plan : CallPlan) (receiver : Option Value) (values : List Value)
    {arg : CallArg} (hrecord : arg.source = .outSlot → callerRecord? env arg = none)
    (index : Nat) : Within S (lowerArg env plan receiver values arg index) :=
  (composes_within S).lowerArg_of hcaller hlength hslot hnotify plan receiver values hrecord index

/-! ## States of a call -/

theorem of_onBridge_eq_ok {step : Run H α} {a : α} {calling calling' : Calling H}
    (h : onBridge step calling = .ok a calling') :
    step calling.bridge = .ok a calling'.bridge := by
  unfold onBridge at h
  cases hstep : step calling.bridge with
  | ok value after =>
      rw [hstep] at h
      cases h
      rfl
  | error error after =>
      rw [hstep] at h
      cases h

/-! A callback is registered without memory. -/

theorem heap_passOn (trampoline : Trampoline) (params : List Descriptor) (callback : CallbackId)
    (bridge : Bridge H) : (passOn trampoline params callback bridge).2.heap = bridge.heap := by
  cases trampoline <;> rfl

theorem heap_registerClosure (callback : CallbackId) (scope : CallbackScope) (bridge : Bridge H) :
    (Bridge.registerClosure callback scope bridge).2.heap = bridge.heap := by
  simp only [Bridge.registerClosure]
  split <;> rfl

section Makes

variable (hmakes : Makes R S)
include hmakes

theorem runs_of_bridge {bridge bridge' : Bridge H} (h : ReflTransGen R bridge bridge')
    (frame : Frame) : ReflTransGen S ⟨bridge, frame⟩ ⟨bridge', frame⟩ :=
  ReflTransGen.lift (Calling.mk · frame) (fun _ _ hstep => hmakes.bridge hstep frame) _ _ h

theorem within_onBridge {step : Run H α} (h : Within R step) : Within S (onBridge step) := by
  intro calling
  have hends := runs_of_bridge hmakes (h calling.bridge) calling.frame
  unfold onBridge
  cases hresult : step calling.bridge with
  | ok value after | error error after =>
      rw [hresult] at hends
      exact hends

theorem within_update {step : Bridge H → α × Bridge H}
    (h : ∀ bridge, ReflTransGen R bridge (step bridge).2) : Within S (update step) :=
  fun calling => runs_of_bridge hmakes (h calling.bridge) calling.frame

/-- A note in the frame of a block or a release function. -/
theorem within_note {f : Frame → Frame} (hf : ∀ frame : Frame, frame.Beside (f frame)) :
    Within S (modifyFrame f : Lowering H Unit) :=
  fun calling => .single (hmakes.beside calling.bridge (hf _))

variable (h : Works env R)
include h

theorem within_alloc (size : Nat) (typeName library : Option String) :
    Within S (onBridge (inCall (Bridge.alloc size typeName library)) : Lowering H Handle) :=
  within_onBridge hmakes (within_inCall (h.within_alloc size typeName library))

theorem within_write (handle : Handle) (descriptor : Descriptor) (offset : Nat) (value : Value) :
    Within S (write handle descriptor offset value : Lowering H Unit) :=
  within_onBridge hmakes (within_inCall (h.within_write handle descriptor offset value))

omit hmakes in
theorem runs_passOn (trampoline : Trampoline) (params : List Descriptor) (callback : CallbackId)
    (bridge : Bridge H) : ReflTransGen R bridge (passOn trampoline params callback bridge).2 := by
  have hretained := h.retainAll (.callback callback) bridge
  cases trampoline with
  | closure => exact hretained.tail (h.newCallback (fun _ hready => by cases hready) _ _)
  | asyncReady | destroyNotify => exact hretained

theorem builds_within : Builds fun _ step => Within S step :=
  { composes_within S with
    alloc := within_alloc hmakes h
    write := within_write hmakes h
    notify := fun token => within_update hmakes fun _ =>
      .single (h.newCallback (fun _ hready => by cases hready) _ _)
    note := within_note hmakes }

/-- An argument that the caller makes no record for. -/
theorem within_lowerArg (plan : CallPlan) (receiver : Option Value) (values : List Value)
    {arg : CallArg} (hrecord : arg.source = .outSlot → callerRecord? env arg = none)
    (index : Nat) : Within S (lowerArg env plan receiver values arg index) :=
  (builds_within hmakes h).lowerArg plan receiver values hrecord index

end Makes

/-- A callback of the caller is passed on, registered and noted, if each of that leads along
transitions. -/
theorem within_prepareCallback_of
    (hpass : ∀ trampoline params id, Within S (update (passOn trampoline params id) :
      Lowering H CallbackId))
    (hregister : ∀ callback scope, Within S (update (Bridge.registerClosure callback scope) :
      Lowering H Nat))
    (hnote : ∀ (calling : Calling H) (frame : Frame), frame.args = calling.frame.args →
      frame.records = calling.frame.records → S calling { calling with frame })
    (values : List Value) (arg : CallArg) (index : Nat) :
    Within S (prepareCallback values arg index : Lowering H Unit) :=
  (composes_within S).prepareCallback_of hpass hregister
    (fun _ hsame calling => .single (hnote calling _ (hsame _).1 (hsame _).2)) values arg index

theorem within_prepareCallback (hlowers : Lowers R S) (h : Permits env R) (values : List Value)
    (arg : CallArg) (index : Nat) :
    Within S (prepareCallback values arg index : Lowering H Unit) :=
  within_prepareCallback_of (fun _ _ _ => within_update hlowers.makes (runs_passOn h.works _ _ _))
    (fun _ _ => within_update hlowers.makes (h.registerClosure _ _))
    (fun calling _ hargs hrecords => hlowers.frame calling.bridge hargs hrecords) values arg index

/-- A record that the caller makes is noted with the place of its argument. -/
theorem lowerArg_of_record (env : Env H) (plan : CallPlan) (receiver : Option Value)
    (values : List Value) {arg : CallArg} (index : Nat) {size : Nat} {typeName library : String}
    (hsource : arg.source = .outSlot)
    (hrecord : callerRecord? env arg = some (size, typeName, library)) :
    lowerArg env plan receiver values arg index = (do
      let handle ← onBridge (inCall (Bridge.alloc size (some typeName) (some library)))
      modifyFrame fun frame => { frame with records := frame.records ++ [(index, handle)] }
      return .pointer handle) := by
  rw [lowerArg, hsource]
  dsimp only
  rw [lowerOutput, hrecord]

/-- Any argument, if one that is no record has the property and so does making a record. -/
theorem lowerArg_cases {P : Lowering H Value → Prop} {plan : CallPlan} {receiver : Option Value}
    {values : List Value} {arg : CallArg} {index : Nat}
    (hplain : (arg.source = .outSlot → callerRecord? env arg = none) →
      P (lowerArg env plan receiver values arg index))
    (hrecord : ∀ size typeName library, P (do
      let handle ← onBridge (inCall (Bridge.alloc size (some typeName) (some library)))
      modifyFrame fun frame => { frame with records := frame.records ++ [(index, handle)] }
      return .pointer handle)) :
    P (lowerArg env plan receiver values arg index) := by
  by_cases hnone : arg.source = .outSlot → callerRecord? env arg = none
  · exact hplain hnone
  · rw [Classical.not_imp] at hnone
    obtain ⟨hsource, hsome⟩ := hnone
    obtain ⟨⟨size, typeName, library⟩, hsome⟩ := Option.ne_none_iff_exists'.1 hsome
    rw [lowerArg_of_record env plan receiver values index hsource hsome]
    exact hrecord size typeName library

theorem within_lowerArg_cases {plan : CallPlan} {receiver : Option Value} {values : List Value}
    {arg : CallArg} {index : Nat}
    (hplain : (arg.source = .outSlot → callerRecord? env arg = none) →
      Within S (lowerArg env plan receiver values arg index))
    (hrecord : ∀ size typeName library, Within S (do
      let handle ← onBridge (inCall (Bridge.alloc size (some typeName) (some library)))
      modifyFrame fun frame => { frame with records := frame.records ++ [(index, handle)] }
      return .pointer handle : Lowering H Value)) :
    Within S (lowerArg env plan receiver values arg index) :=
  lowerArg_cases (P := Within S) hplain hrecord

/-- Any argument, if the relation also permits that a record is noted. -/
theorem within_lowerArg_noting (hmakes : Makes R S) (h : Works env R)
    (hrecords : ∀ (bridge : Bridge H) (frame : Frame) (records : List (Nat × Handle)),
      S ⟨bridge, frame⟩ ⟨bridge, { frame with records }⟩)
    (plan : CallPlan) (receiver : Option Value) (values : List Value) (arg : CallArg)
    (index : Nat) : Within S (lowerArg env plan receiver values arg index) := by
  refine within_lowerArg_cases
    (fun hplain => within_lowerArg hmakes h plan receiver values hplain index) fun _ _ _ => ?_
  refine (within_alloc hmakes h _ _ _).bind fun _ => ?_
  exact Within.bind (fun _ => .single (hrecords _ _ _)) fun _ => within_pure _

/-! ## The arguments in order -/

/-- Makes the argument of a place and notes it. -/
def passArg (env : Env H) (plan : CallPlan) (receiver : Option Value) (values : List Value)
    (entry : CallArg × Nat) : Lowering H PUnit := do
  let value ← lowerArg env plan receiver values entry.1 entry.2
  modifyFrame fun frame => { frame with
    args := frame.args.push ⟨entry.1.descriptor, value, entry.1.flags.optional⟩ }

theorem lower_eq (env : Env H) (plan : CallPlan) (receiver : Option Value) (values : List Value) :
    lower env plan receiver values = (do
      plan.args.zipIdx.forM fun entry => prepareCallback values entry.1 entry.2
      plan.args.zipIdx.forM (passArg env plan receiver values)) :=
  rfl

theorem within_lower (h : Permits env R) (plan : CallPlan) (receiver : Option Value)
    (values : List Value) : Within (Calling.Follows R) (lower env plan receiver values) := by
  refine (Within.forM (fun entry => ?_) _).bind fun _ => Within.forM (fun entry => ?_) _
  · exact within_prepareCallback (lowers_follows R) h values entry.1 entry.2
  · refine (within_lowerArg_noting (lowers_follows R).makes h.works (fun _ _ _ => .refl) plan
      receiver values entry.1 entry.2).bind fun _ => ?_
    exact fun _ => .single .refl

section Places

variable {plan : CallPlan} {receiver : Option Value} {values : List Value} {arg : CallArg}
  {args : List CallArg} {calling calling' : Calling H} {start place : Nat}

theorem run_of_lower_eq_ok (h : Permits env R) {u : Unit}
    (hlower : lower env plan receiver values calling = .ok u calling') :
    ReflTransGen R calling.bridge calling'.bridge :=
  runs_of_follows ((within_lower h plan receiver values).of_eq_ok hlower)

/-- Making arguments leaves the symbols alone. -/
theorem symbols_of_lower_eq_ok {bridge : Bridge H} {u : Unit}
    (h : lower env plan receiver values ⟨bridge, {}⟩ = .ok u calling) :
    calling.bridge.symbols = bridge.symbols := by
  let view (calling : Calling H) := calling.bridge.symbols
  have hmakes : Makes (fun bridge bridge' : Bridge H => bridge'.symbols = bridge.symbols)
      fun calling calling' => view calling' = view calling :=
    ⟨fun h _ => h, fun _ _ => rfl⟩
  have hworks := works_of_view env (fun bridge => bridge.symbols) fun _ _ _ _ _ _ _ _ => rfl
  have hwithin : Within (fun calling calling' => view calling' = view calling)
      (lower env plan receiver values) := by
    rw [lower_eq]
    refine (Within.forM (fun entry => ?_) _).bind fun _ => Within.forM (fun entry => ?_) _
    · refine within_prepareCallback_of (fun trampoline _ _ => ?_) (fun _ _ => ?_)
        (fun _ _ _ _ => rfl) values entry.1 entry.2
      · exact within_update hmakes (runs_passOn hworks trampoline _ _)
      · refine within_update hmakes fun bridge => .single ?_
        simp only [registerClosure]
        split <;> rfl
    · refine (within_lowerArg_noting hmakes hworks (fun _ _ _ => rfl) plan receiver values entry.1
        entry.2).bind fun _ => ?_
      exact fun _ => .single rfl
  exact same_of_run view (hwithin.of_eq_ok h)

/-- The arguments that are there and the callbacks are left alone while another one is made. -/
theorem noted_lowerArg (env : Env H) (plan : CallPlan) (receiver : Option Value)
    (values : List Value) (arg : CallArg) (index : Nat) (calling : Calling H) :
    (ending (lowerArg env plan receiver values arg index calling)).frame.args =
        calling.frame.args ∧
      (ending (lowerArg env plan receiver values arg index calling)).frame.callbacks =
        calling.frame.callbacks := by
  have hmakes : Makes (fun _ _ : Bridge H => () = ()) fun calling calling' : Calling H =>
      (calling'.frame.args, calling'.frame.callbacks) =
        (calling.frame.args, calling.frame.callbacks) :=
    ⟨fun _ _ => rfl, fun _ h => by rw [h.args, h.callbacks]⟩
  have hwithin := within_lowerArg_noting hmakes
    (works_of_view env (fun _ => ()) fun _ _ _ _ _ _ _ _ => rfl) (fun _ _ _ => rfl) plan receiver
    values arg index calling
  exact Prod.mk.injEq .. ▸
    same_of_run (fun calling : Calling H => (calling.frame.args, calling.frame.callbacks)) hwithin

theorem of_passArg_eq_ok {u : PUnit}
    (h : passArg env plan receiver values (arg, place) calling = .ok u calling') :
    ∃ value made, lowerArg env plan receiver values arg place calling = .ok value made ∧
      made.frame.args = calling.frame.args ∧
      calling' = { made with frame := { made.frame with
        args := made.frame.args.push ⟨arg.descriptor, value, arg.flags.optional⟩ } } := by
  obtain ⟨value, made, hlower, hpush⟩ := of_bind_eq_ok h
  have hnoted := (noted_lowerArg env plan receiver values arg place calling).1
  rw [hlower] at hnoted
  cases hpush
  exact ⟨value, made, hlower, hnoted, rfl⟩

/-- Arguments are noted behind those that are there. -/
theorem within_keeps_passArg (env : Env H) (plan : CallPlan) (receiver : Option Value)
    (values : List Value) (place : Nat) (native : NativeArg) (entry : CallArg × Nat) :
    Within (fun calling calling' : Calling H => calling.frame.args[place]? = some native →
      calling'.frame.args[place]? = some native) (passArg env plan receiver values entry) := by
  refine Within.bind (fun calling => .single fun hthere => ?_)
    fun value calling => .single fun hthere => ?_
  · rwa [(noted_lowerArg env plan receiver values entry.1 entry.2 calling).1]
  · obtain ⟨hplace, _⟩ := Array.getElem?_eq_some_iff.1 hthere
    exact (Array.getElem?_push_lt hplace).trans (hthere ▸ (Array.getElem?_eq_getElem hplace).symm)

/-- Every argument is made in its turn. The states between the turns are counted by the arguments that
have been made. -/
structure Turns (env : Env H) (plan : CallPlan) (receiver : Option Value) (values : List Value)
    (turn : Nat → Calling H) : Prop where
  first : (turn 0).frame.args = #[]
  step (place : Nat) (arg : CallArg) : plan.args[place]? = some arg →
    passArg env plan receiver values (arg, place) (turn place) = .ok ⟨⟩ (turn (place + 1))

section Turns

variable {turn : Nat → Calling H} (h : Turns env plan receiver values turn)
include h

theorem Turns.run {other : Nat} (hpass : ∀ entry : CallArg × Nat,
    Within S (passArg env plan receiver values entry)) (hle : place ≤ other)
    (hother : other ≤ plan.args.length) : ReflTransGen S (turn place) (turn other) := by
  induction other, hle using Nat.le_induction with
  | base => exact .refl
  | succ other _ ih =>
      have hstep := h.step other _ (List.getElem?_eq_getElem hother)
      exact (ih (Nat.le_of_succ_le hother)).trans ((hpass _).of_eq_ok hstep)

theorem Turns.size (hplace : place ≤ plan.args.length) : (turn place).frame.args.size = place := by
  induction place with
  | zero => rw [h.first, List.size_toArray, List.length_nil]
  | succ place ih =>
      obtain ⟨_, _, _, hkept, hnext⟩ :=
        of_passArg_eq_ok (h.step place _ (List.getElem?_eq_getElem hplace))
      rw [hnext, Array.size_push, hkept, ih (Nat.le_of_succ_le hplace)]

/-- An argument is found in its place in the end. -/
theorem Turns.exists_lowerArg (harg : plan.args[place]? = some arg) :
    ∃ value made, lowerArg env plan receiver values arg place (turn place) = .ok value made ∧
      (turn (place + 1)).bridge = made.bridge ∧
      (turn plan.args.length).frame.args[place]? =
        some ⟨arg.descriptor, value, arg.flags.optional⟩ := by
  obtain ⟨hplace, _⟩ := List.getElem?_eq_some_iff.1 harg
  obtain ⟨value, made, hlower, hkept, hnext⟩ := of_passArg_eq_ok (h.step place arg harg)
  refine ⟨value, made, hlower, by rw [hnext], ?_⟩
  have hrun := h.run (within_keeps_passArg env plan receiver values place
    ⟨arg.descriptor, value, arg.flags.optional⟩) hplace (Nat.le_refl _)
  have hthere : (turn (place + 1)).frame.args[place]? =
      some ⟨arg.descriptor, value, arg.flags.optional⟩ := by
    have hsize := h.size (Nat.le_of_lt hplace)
    rw [← hkept] at hsize
    rw [hnext]
    subst hsize
    exact Array.getElem?_push_size
  generalize turn plan.args.length = last at hrun ⊢
  induction hrun with
  | refl => exact hthere
  | tail _ hstep ih => exact hstep ih

end Turns

end Places

end Lowering

end Interop
