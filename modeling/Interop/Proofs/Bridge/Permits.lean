import Interop.Bridge.Call
import Interop.Proofs.Bridge.Evolution

/-! # What the bridge does by itself

All that the bridge does to its state is done by operations of heaps and registries, and the rest of
it is of no concern to either. A relation that permits those changes is followed by every operation
of the bridge that does not leave it, and one that permits also what the functions of the host do is
followed by every operation.
-/

namespace Interop

open Schema Relation Steps

variable {H : Host}

/-- What natives can be wrapped as once the namespace is registered. -/
def NamespaceBinding.nativeClasses (space : NamespaceBinding) : List NativeClass :=
  space.classes.map (·.nativeClass space.library) ++
    space.records.map (·.nativeClass space.library)

/-- A completion that waits takes the token. -/
def Completion.accept (token : Value) : Completion → Completion
  | .waiting => .delivered token
  | other => other

namespace Bridge

/-- What a callback does, if it was ever made. -/
def behaviour? (bridge : Bridge H) (id : CallbackId) : Option (Behaviour H) :=
  bridge.callbacks[id.index]?.map (·.behaviour)

def modifyCompletion (bridge : Bridge H) (id : CompletionId) (f : Completion → Completion) :
    Bridge H :=
  { bridge with completions := bridge.completions.modify id.index f }

/-- The states differ at most in symbols, quarks, tokens of callbacks and what is the host's own. -/
structure Beside (bridge bridge' : Bridge H) : Prop where
  heap : bridge'.heap = bridge.heap
  registry : bridge'.registry = bridge.registry
  namespaces : bridge'.namespaces = bridge.namespaces
  hierarchy : bridge'.hierarchy = bridge.hierarchy
  types : bridge'.types = bridge.types
  callbacks : bridge'.callbacks = bridge.callbacks
  completions : bridge'.completions = bridge.completions

/-- The relation permits that what a namespace declares is entered into tables. -/
structure Enlists (env : Env H) (R : Bridge H → Bridge H → Prop) : Prop where
  registerClass {bridge : Bridge H} {name : String} {space : NamespaceBinding} {cls : NativeClass}
    {registry : Registry} (hcompiled : env.compiler.namespace? name = .ok space)
    (hcls : cls ∈ space.nativeClasses) (h : bridge.registry.registerClass cls = .ok registry) :
    R bridge { bridge with registry }
  link {bridge : Bridge H} {name : String} {space : NamespaceBinding} {cls : ClassBinding}
    (hcompiled : env.compiler.namespace? name = .ok space) (hcls : cls ∈ space.classes) :
    R bridge { bridge with hierarchy := linkClass (repo env) cls bridge.hierarchy }

/-- The relation permits the changes that are made when a namespace is registered, and changes of
what no relation here is about. -/
structure Registers (env : Env H) (R : Bridge H → Bridge H → Prop) : Prop extends
    Enlists env R where
  register {bridge : Bridge H} {name : String} {space : NamespaceBinding}
    (h : env.compiler.namespace? name = .ok space) :
    R bridge { bridge with namespaces := bridge.namespaces ++ [(space.name, space)] }
  other {bridge bridge' : Bridge H} (h : Beside bridge bridge') : R bridge bridge'

/-- The relation permits what is done to callbacks and completions. Only a ready callback gives a
completion its token. -/
structure Shares (R : Bridge H → Bridge H → Prop) : Prop where
  newCallback {behaviour : Behaviour H} (h : ∀ id, behaviour ≠ .ready id) (captured : List Value)
    (bridge : Bridge H) : R bridge (newCallback behaviour captured bridge).2
  newReady (bridge : Bridge H) : R bridge bridge.newReady.2.2
  share (bridge : Bridge H) (id : CallbackId) : R bridge (bridge.retainShare (.callback id))
  unshare {bridge : Bridge H} {id : CallbackId} {cell : CallbackCell H}
    (h : bridge.callbacks[id.index]? = some cell) (hshared : 1 < cell.strong) :
    R bridge (bridge.modifyCallback id fun cell => { cell with strong := cell.strong - 1 })
  bury {bridge : Bridge H} {id : CallbackId} {cell : CallbackCell H}
    (h : bridge.callbacks[id.index]? = some cell) (hlast : cell.strong ≤ 1) :
    R bridge (bridge.bury id cell)
  accept {bridge : Bridge H} {ready : CallbackId} {id : CompletionId}
    (h : bridge.behaviour? ready = some (.ready id)) (token : Value) :
    R bridge (bridge.modifyCompletion id (.accept token))
  close (bridge : Bridge H) (id : CompletionId) :
    R bridge (bridge.modifyCompletion id fun _ => .closed)

/-- The relation permits the changes that the bridge makes by itself. It takes no further references
to blocks. -/
structure Permits (env : Env H) (R : Bridge H → Bridge H → Prop) : Prop extends
    Registers env R, Shares R where
  heap {bridge : Bridge H} {heap : Heap} (h : bridge.heap.Own heap) :
    R bridge { bridge with heap }
  wrap (bridge : Bridge H) (handle : Handle) (target : Option String) (ownership : Ownership) :
    R bridge { bridge with registry :=
      (bridge.registry.wrap bridge.introspection handle target ownership).2 }
  retain (bridge : Bridge H) (id : WrapperId) :
    R bridge { bridge with registry := bridge.registry.retain id }
  drop (bridge : Bridge H) (id : WrapperId) :
    R bridge { bridge with registry := (bridge.registry.drop id).2 }

/-- The relation permits whatever happens, also what the functions of the host do. -/
structure Governs (env : Env H) (R : Bridge H → Bridge H → Prop) : Prop extends
    Permits env R where
  native (fn : H.Native) (call : NativeCall) : Within R (env.native fn call)
  effect (fn : H.Native) (call : NativeCall) : Within R (env.effect fn call)
  managed (fn : H.Managed) (captured args : List Value) (bridge : Bridge H) :
    ReflTransGen R bridge (env.managed fn captured args bridge).2

/-- The relation permits the changes that are made when a namespace is registered, and new quarks. -/
structure Enrols (env : Env H) (R : Bridge H → Bridge H → Prop) : Prop extends
    Enlists env R where
  register {bridge : Bridge H} {name : String} {space : NamespaceBinding}
    (h : env.compiler.namespace? name = .ok space) :
    R bridge { bridge with namespaces := bridge.namespaces ++ [(space.name, space)] }
  intern (bridge : Bridge H) (quarks : QuarkTable) : R bridge { bridge with quarks }

/-- The relation permits what is done to tables, to callbacks and to the wrappers of handles. -/
structure Counts (env : Env H) (R : Bridge H → Bridge H → Prop) : Prop extends
    Enrols env R, Shares R where
  wrap (bridge : Bridge H) (handle : Handle) (target : Option String) (ownership : Ownership) :
    R bridge { bridge with registry :=
      (bridge.registry.wrap bridge.introspection handle target ownership).2 }
  retain (bridge : Bridge H) (id : WrapperId) :
    R bridge { bridge with registry := bridge.registry.retain id }
  drop (bridge : Bridge H) (id : WrapperId) :
    R bridge { bridge with registry := (bridge.registry.drop id).2 }

/-- The relation permits the changes that the bridge makes by itself, but for those of its table of
tokens. -/
structure Works (env : Env H) (R : Bridge H → Bridge H → Prop) : Prop extends Counts env R where
  heap {bridge : Bridge H} {heap : Heap} (h : bridge.heap.Own heap) :
    R bridge { bridge with heap }

/-- The relation permits what the bridge does with values that it has got: they are wrapped and given
up, which may enter functions of the host, and records that lie in arrays are copied. The memory
that there is is only given back. -/
structure Settles (env : Env H) (R : Bridge H → Bridge H → Prop) : Prop extends Counts env R where
  unref {bridge : Bridge H} {heap : Heap} {handle : Handle}
    (h : bridge.heap.unref handle = .ok heap) : R bridge { bridge with heap }
  copy (size : Nat) (typeName : Option String) (element : Descriptor) (source : Handle) :
    Within R (do
      let copy ← alloc size typeName none
      write copy element 0 (.pointer source) : Native H Unit)
  effect (fn : H.Native) (call : NativeCall) : Within R (env.effect fn call)

/-- The relation also permits that tokens are taken back. -/
structure Closes (env : Env H) (R : Bridge H → Bridge H → Prop) : Prop extends Settles env R where
  other {bridge bridge' : Bridge H} (h : Beside bridge bridge') : R bridge bridge'

/-- The relation permits what the bridge does by itself and what the functions of the host do that are
entered besides the one that is called: those that name the domain of an error, and those that give
references back. -/
structure Serves (env : Env H) (R : Bridge H → Bridge H → Prop) : Prop extends
    Works env R, Settles env R where
  naming (fn : H.Native) {call : NativeCall} (h : call.symbol = quarkNamer) :
    Within R (env.native fn call)

theorem Registers.enrols {env : Env H} {R : Bridge H → Bridge H → Prop} (h : Registers env R) :
    Enrols env R :=
  { h with intern := fun _ _ => h.other ⟨rfl, rfl, rfl, rfl, rfl, rfl, rfl⟩ }

theorem Permits.works {env : Env H} {R : Bridge H → Bridge H → Prop} (h : Permits env R) :
    Works env R :=
  { h, h.enrols with }

theorem bury_eq (bridge : Bridge H) (id : CallbackId) (cell : CallbackCell H) :
    ∃ callbacks completions, bridge.bury id cell = { bridge with callbacks, completions } := by
  unfold bury
  dsimp only
  split <;> exact ⟨_, _, rfl⟩

/-- A relation that is not about callbacks and completions permits what is done to them. -/
theorem shares_of_indifferent {R : Bridge H → Bridge H → Prop}
    (h : ∀ bridge callbacks completions, R bridge { bridge with callbacks, completions }) :
    Shares R where
  newCallback _ _ _ := h ..
  newReady _ := h ..
  share _ _ := h ..
  unshare _ _ := h ..
  bury {bridge id cell} _ _ := by
    obtain ⟨callbacks, completions, hbury⟩ := bury_eq bridge id cell
    exact hbury ▸ h ..
  accept _ _ := h ..
  close _ _ := h ..

/-- A relation that is not about tables, callbacks, completions and wrappers permits what is done to
them. -/
theorem counts_of_indifferent (env : Env H) {R : Bridge H → Bridge H → Prop}
    (h : ∀ bridge quarks registry callbacks completions hierarchy namespaces,
      R bridge { bridge with quarks, registry, callbacks, completions, hierarchy, namespaces }) :
    Counts env R :=
  { shares_of_indifferent (R := R) fun _ _ _ => h .. with
    registerClass := fun _ _ _ => h ..
    link := fun _ _ => h ..
    register := fun _ => h ..
    intern := fun _ _ => h ..
    wrap := fun _ _ _ _ => h ..
    retain := fun _ _ => h ..
    drop := fun _ _ => h .. }

/-- What the bridge does by itself leaves alone whatever is seen of the rest of it. -/
theorem works_of_view {α : Type} (env : Env H) (view : Bridge H → α)
    (h : ∀ bridge heap quarks registry callbacks completions hierarchy namespaces,
      view { bridge with
        heap, quarks, registry, callbacks, completions, hierarchy, namespaces } = view bridge) :
    Works env fun bridge bridge' => view bridge' = view bridge :=
  { counts_of_indifferent env (R := fun bridge bridge' => view bridge' = view bridge)
      fun _ _ _ _ _ _ _ => h .. with
    heap := fun _ => h .. }

theorem permits_step (env : Env H) : Permits env (Step env) :=
  { shares_of_indifferent fun _ _ _ => .other rfl rfl with
    heap := fun h => .heap h.step
    register := fun h => .register h
    registerClass := fun _ _ _ => .other rfl rfl
    link := fun _ _ => .other rfl rfl
    wrap := fun _ _ _ _ => .other rfl rfl
    retain := fun _ _ => .other rfl rfl
    drop := fun _ _ => .other rfl rfl
    other := fun h => .other h.heap h.namespaces }

theorem governs_step {env : Env H} (hlawful : env.Lawful) : Governs env (Step env) :=
  { permits_step env with
    native := hlawful.native
    effect := hlawful.effect
    managed := hlawful.managed }

variable {env : Env H} {R : Bridge H → Bridge H → Prop} {α : Type}

theorem within_modify {f : Bridge H → Bridge H} {ε : Type}
    (hf : ∀ bridge, ReflTransGen R bridge (f bridge)) :
    Within R (modify f : EStateM ε (Bridge H) PUnit) := hf

theorem ending_inCall (step : Native H α) (bridge : Bridge H) :
    ending (inCall step bridge) = ending (step bridge) := by
  unfold inCall
  cases step bridge <;> rfl

theorem of_inCall_eq_ok {step : Native H α} {a : α} {bridge bridge' : Bridge H}
    (h : inCall step bridge = .ok a bridge') : step bridge = .ok a bridge' := by
  unfold inCall at h
  cases hstep : step bridge with
  | ok value after =>
      rw [hstep] at h
      cases h
      rfl
  | error error after =>
      rw [hstep] at h
      cases h

theorem within_inCall {step : Native H α} (h : Within R step) : Within R (inCall step) := by
  intro bridge
  rw [ending_inCall]
  exact h bridge

/-! ## The heap -/

theorem ending_onHeap (step : Heap.Write α) (bridge : Bridge H) :
    ending (onHeap step bridge) = { bridge with heap := ending (step bridge.heap) } := by
  unfold onHeap
  cases step bridge.heap <;> rfl

theorem of_onHeap_eq_ok {step : Heap.Write α} {a : α} {bridge after : Bridge H}
    (h : onHeap step bridge = .ok a after) : step bridge.heap = .ok a after.heap := by
  unfold onHeap at h
  cases hstep : step bridge.heap with
  | ok found heap =>
      rw [hstep] at h
      cases h
      rfl
  | error error heap =>
      rw [hstep] at h
      cases h

/-- The heap of a bridge changes as heaps do. -/
theorem Works.within_onHeap (h : Works env R) {step : Heap.Write α}
    (hstep : Within Heap.Own step) : Within R (onHeap step) := by
  intro bridge
  rw [ending_onHeap]
  have hlift : ReflTransGen R bridge { bridge with heap := ending (step bridge.heap) } :=
    (hstep bridge.heap).lift (fun heap => { bridge with heap }) fun _ _ hheap => h.heap hheap
  exact hlift

theorem read_eq (handle : Handle) (descriptor : Descriptor) (offset : Nat) (bridge : Bridge H) :
    read handle descriptor offset bridge =
      (MonadExcept.ofExcept (bridge.heap.read handle descriptor offset) : Native H Value) bridge :=
  rfl

theorem within_read (handle : Handle) (descriptor : Descriptor) (offset : Nat) :
    Within R (read handle descriptor offset : Native H Value) :=
  within_get.bind fun _ => within_ofExcept _

theorem Works.within_write (h : Works env R) (handle : Handle) (descriptor : Descriptor)
    (offset : Nat) (value : Value) :
    Within R (write handle descriptor offset value : Native H Unit) :=
  h.within_onHeap (Heap.own_write handle descriptor offset value)

/-- A block is made, or the library is missing and nothing happens. -/
theorem alloc_eq (size : Nat) (typeName library : Option String) (bridge : Bridge H) :
    alloc size typeName library bridge = .ok (bridge.heap.alloc size typeName).1
      { bridge with heap := (bridge.heap.alloc size typeName).2 } ∨
    ∃ name, library = some name ∧
      alloc size typeName library bridge = .error (.libraryNotFound name) bridge := by
  cases library with
  | none => exact .inl rfl
  | some name =>
      cases hlibrary : bridge.symbols.hasLibrary name with
      | true =>
          refine .inl ?_
          simp only [alloc, get_bind, hlibrary]
          rfl
      | false =>
          refine .inr ⟨name, rfl, ?_⟩
          simp only [alloc, get_bind, hlibrary]
          rfl

theorem of_alloc_eq_ok {size : Nat} {typeName library : Option String} {bridge after : Bridge H}
    {handle : Handle} (h : alloc size typeName library bridge = .ok handle after) :
    handle = .ofNat bridge.heap.next ∧
      after = { bridge with heap := (bridge.heap.alloc size typeName).2 } := by
  rcases alloc_eq size typeName library bridge with hok | ⟨_, _, herror⟩
  · rw [hok] at h
    cases h
    exact ⟨rfl, rfl⟩
  · rw [herror] at h
    cases h

theorem Works.within_alloc (h : Works env R) (size : Nat) (typeName library : Option String) :
    Within R (alloc size typeName library : Native H Handle) := by
  intro bridge
  rcases alloc_eq size typeName library bridge with hok | ⟨name, _, herror⟩
  · rw [hok]
    exact .single (h.heap (.alloc bridge.heap size typeName))
  · rw [herror]
    exact .refl

/-- What permits the changes that the bridge makes by itself permits that a record is copied and that
references are given back. -/
theorem Works.serves (h : Works env R)
    (hnaming : ∀ (fn : H.Native) {call : NativeCall}, call.symbol = quarkNamer →
      Within R (env.native fn call))
    (heffect : ∀ (fn : H.Native) (call : NativeCall), Within R (env.effect fn call)) :
    Serves env R :=
  { h with
    unref := fun hunref => h.heap (.unref hunref)
    copy := fun _ _ _ _ => (h.within_alloc _ _ _).bind fun _ => h.within_write _ _ _ _
    naming := hnaming
    effect := heffect }

theorem Governs.serves (h : Governs env R) : Serves env R :=
  h.works.serves (fun fn call _ => h.native fn call) h.effect

theorem Governs.closes (h : Governs env R) : Closes env R :=
  { h.serves with other := h.other }

/-! ## Native functions -/

theorem Enrols.within_internQuark (h : Enrols env R) (name : String) :
    Within R (internQuark name : Native H Nat) :=
  fun _ => .single (h.intern _ _)

theorem within_arg (call : NativeCall) (index : Nat) :
    Within R (call.arg index : Native H Value) := by
  unfold NativeCall.arg
  split
  next => exact within_pure _
  next => exact within_throw _

theorem within_view (call : NativeCall) (index : Nat) (expected : String)
    (look : Value → Option α) : Within R (call.view index expected look : Native H α) := by
  refine (within_arg call index).bind fun value => ?_
  split
  next a _ => exact within_pure a
  next => exact within_throw _

theorem within_string (call : NativeCall) (index : Nat) :
    Within R (call.string index : Native H (Option String)) := by
  refine (within_arg call index).bind fun value => ?_
  cases value with
  | null | string => exact within_pure _
  | pointer handle =>
      dsimp only
      split
      next => exact within_pure _
      next => exact within_get.bind fun _ => (within_ofExcept _).bind fun _ => within_pure _
  | _ => exact within_throw _

theorem within_setOut_of {value : Value}
    (h : ∀ slot inner, Within R (write slot inner 0 value : Native H Unit)) (call : NativeCall)
    (index : Nat) : Within R (call.setOut index value : Native H Unit) := by
  refine (within_view call index _ _).bind fun slot => ?_
  split
  next => exact within_pure _
  next =>
    split
    next => exact h _ _
    next => exact within_throw _

theorem Works.within_setOut (h : Works env R) (call : NativeCall) (index : Nat) (value : Value) :
    Within R (call.setOut index value : Native H Unit) :=
  within_setOut_of (fun _ _ => h.within_write _ _ _ _) call index

theorem Works.within_raise (h : Works env R) (call : NativeCall) (domain : String) (code : Int)
    (message : String) : Within R (call.raise domain code message : Native H Unit) := by
  unfold NativeCall.raise
  split
  next => exact within_throw _
  next =>
    refine (within_view call _ _ _).bind fun slot => ?_
    split
    next => exact within_pure _
    next =>
      exact (h.within_alloc _ _ _).bind fun _ => (h.within_internQuark _).bind fun _ =>
        (h.within_write _ _ _ _).bind fun _ => (h.within_write _ _ _ _).bind fun _ =>
          (h.within_write _ _ _ _).bind fun _ => h.within_write _ _ _ _

theorem within_returnArray_of
    (halloc : ∀ size, Within R (alloc size none none : Native H Handle))
    (hwrite : ∀ handle descriptor offset value,
      Within R (write handle descriptor offset value : Native H Unit))
    (call : NativeCall) (items : List Value) :
    Within R (call.returnArray items : Native H Value) := by
  unfold NativeCall.returnArray
  split
  next =>
    exact (halloc _).bind fun _ =>
      (Within.forM (fun _ => hwrite _ _ _ _) _).bind fun _ => within_pure _
  next => exact within_throw _

theorem Works.within_returnArray (h : Works env R) (call : NativeCall) (items : List Value) :
    Within R (call.returnArray items : Native H Value) :=
  within_returnArray_of (fun _ => h.within_alloc _ _ _) (fun _ _ _ _ => h.within_write _ _ _ _) call
    items

theorem Enrols.within_run (h : Enrols env R) {fn : NativeFn H} {call : NativeCall}
    (hhost : ∀ host, fn = .host host → Within R (env.native host call)) :
    Within R (fn.run env call) := by
  cases fn with
  | host fn => exact hhost fn rfl
  | quarkToString =>
      exact (within_view call 0 _ _).bind fun _ => within_get.bind fun _ => within_pure _
  | quarkFromString =>
      exact (within_string call 0).bind fun _ =>
        (h.within_internQuark _).bind fun _ => within_pure _

theorem Settles.within_runEffect (h : Settles env R) (fn : NativeFn H) (call : NativeCall) :
    Within R (fn.runEffect env call) := by
  cases fn with
  | host fn => exact h.effect fn call
  | quarkToString | quarkFromString =>
      exact (h.within_run fun _ hhost => by cases hhost).bind fun _ => within_pure _

/-! ## Giving references back -/

theorem Settles.within_release (h : Settles env R) (handle : Handle) (hooks : Option RefHooks) :
    Within R (release env handle hooks) := by
  intro bridge
  unfold release
  rw [get_bind]
  cases hooks.bind fun hooks =>
      (bridge.symbols.findAny? hooks.unrefFn).map (hooks.unrefFn, ·) with
  | some found => exact h.within_runEffect found.2 _ bridge
  | none =>
      cases hunref : bridge.heap.unref handle with
      | error error => exact .refl
      | ok heap => exact .single (h.unref hunref)

theorem attempt_eq_ending (step : Native H Unit) (bridge : Bridge H) :
    attempt step bridge = ending (step bridge) := by
  unfold attempt
  cases step bridge <;> rfl

theorem Settles.attempt_release (h : Settles env R) (handle : Handle) (hooks : Option RefHooks)
    (bridge : Bridge H) : ReflTransGen R bridge (attempt (release env handle hooks) bridge) := by
  rw [attempt_eq_ending]
  exact h.within_release handle hooks bridge

theorem Settles.settle (h : Settles env R) (due : Option Release) (bridge : Bridge H) :
    ReflTransGen R bridge (settle env due bridge) := by
  cases due with
  | none => exact .refl
  | some due => exact h.attempt_release _ _ bridge

theorem Settles.dropWrapper (h : Settles env R) (bridge : Bridge H) (id : WrapperId) :
    ReflTransGen R bridge (dropWrapper env bridge id) :=
  .head (h.drop bridge id) (h.settle _ _)

/-! ## Wrapping -/

theorem Settles.wrapRaw (h : Settles env R) (handle : Handle) (target : Option String)
    (ownership : Ownership) (bridge : Bridge H) :
    ReflTransGen R bridge (wrapRaw env handle target ownership bridge).2 := by
  have hregistry := h.wrap bridge handle target ownership
  unfold Bridge.wrapRaw
  rcases hwrap : bridge.registry.wrap bridge.introspection handle target ownership with
    ⟨result, registry⟩
  rw [hwrap] at hregistry
  cases result with
  | error error => exact .single hregistry
  | ok wrapped => exact .head hregistry (h.settle wrapped.release _)

theorem Settles.within_wrap (h : Settles env R) (handle : Handle) (target : Option String)
    (ownership : Ownership) : Within R (Bridge.wrap env handle target ownership) := by
  intro bridge
  have hruns := h.wrapRaw handle target ownership bridge
  unfold Bridge.wrap
  rcases hwrap : Bridge.wrapRaw env handle target ownership bridge with ⟨result, after⟩
  rw [hwrap] at hruns
  cases result <;> exact hruns

/-- What a handle is wrapped as holds the handle, or nothing. -/
theorem of_wrap_eq_ok {handle : Handle} {target : Option String} {ownership : Ownership}
    {bridge after : Bridge H} {value : Value}
    (h : Bridge.wrap env handle target ownership bridge = .ok value after) :
    value = .null ∨ ∃ id, value = .object id handle := by
  unfold Bridge.wrap Bridge.wrapRaw at h
  rcases hwrap : bridge.registry.wrap bridge.introspection handle target ownership with
    ⟨result, registry⟩
  rw [hwrap] at h
  cases result with
  | error error => cases h
  | ok wrapped =>
      obtain rfl : wrapped.id.elim .null (.object · handle) = value := by
        cases h
        rfl
      cases wrapped.id with
      | none => exact .inl rfl
      | some id => exact .inr ⟨id, rfl⟩

end Bridge

end Interop
