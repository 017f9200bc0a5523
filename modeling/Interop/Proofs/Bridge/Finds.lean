import Interop.Proofs.Bridge.Calls
import Interop.Proofs.Bridge.Elements
import Interop.Proofs.Bridge.Stocked
import Interop.Proofs.Bridge.Wrapped

/-! # Steps that find the classes they need

A class is missing only where a handle is to be wrapped as a type whose namespace has not been
registered. The bridge registers the namespace each time before it wraps a handle as a type, so none
of its steps misses the class of a declared type, and each of them leads to a state in which this
is so again. The states need nothing of the names in the repository; only where classes are found is
it asked that they are proper.
-/

namespace Interop

open Schema Relation Steps

variable {H : Host} {α β : Type}

/-- The functions of the host do to the bridge only what can happen to it where namespaces are
registered. -/
structure Env.Orderly (env : Env H) : Prop where
  native (fn : H.Native) (call : NativeCall) : Within (Bridge.Advance env) (env.native fn call)
  effect (fn : H.Native) (call : NativeCall) : Within (Bridge.Advance env) (env.effect fn call)
  managed (fn : H.Managed) (captured args : List Value) (bridge : Bridge H) :
    ReflTransGen (Bridge.Advance env) bridge (env.managed fn captured args bridge).2

/-- The functions of the host, and a repository without namespaces. -/
def Env.bare (env : Env H) : Env H :=
  { env with compiler := .ofRepository (.ofSpaces []) {} }

/-- Nothing can be registered there, so that all that the bridge does by itself and all that the
functions of the host do is permitted. What registers no namespace does the same there as
elsewhere. -/
theorem Env.Orderly.governs {env : Env H} (h : env.Orderly) :
    Bridge.Governs env.bare (Bridge.Advance env) :=
  { Bridge.shares_of_indifferent (R := Bridge.Advance env)
      fun _ _ _ => .change (.other rfl rfl rfl) rfl with
    heap := fun h => .change (.heap h.step) rfl
    registerClass := fun hcompiled _ _ => by cases hcompiled
    link := fun hcompiled _ => by cases hcompiled
    register := fun hcompiled => by cases hcompiled
    wrap := fun _ _ _ _ => .change (.wrap ..) rfl
    retain := fun _ _ => .change (.retain ..) rfl
    drop := fun _ _ => .change (.drop ..) rfl
    other := fun h => .change (.other h.heap h.registry h.namespaces) h.namespaces
    native := h.native
    effect := h.effect
    managed := h.managed }

namespace Registry

variable {registry : Registry} {known : Introspection} {handle : Handle}
  {targetName : Option String} {ownership : Ownership} {name : String}

/-- A class that is looked for by the runtime type is missed in another way. -/
theorem classOf_ne_unknownClass : registry.classOf known handle ≠ .error (.unknownClass name) := by
  unfold classOf
  split
  next => nofun
  next =>
    unfold ClassTable.resolve
    dsimp only
    split <;> nofun

theorem of_wrap_eq_unknownClass
    (h : (registry.wrap known handle targetName ownership).1 = .error (.unknownClass name)) :
    targetName = some name ∧ registry.classes.get? name = none := by
  unfold wrap wrapAmid at h
  split at h
  next => cases h
  next =>
    split at h
    next error htarget =>
      cases h
      unfold target at htarget
      split at htarget
      next => cases htarget
      next wanted =>
        split at htarget
        next => cases htarget
        next hnone =>
          cases htarget
          exact ⟨rfl, hnone⟩
    next target _ =>
      dsimp only at h
      split at h
      next => cases h
      next =>
        split at h
        next error _ hclass =>
          cases h
          cases target with
          | some cls => cases hclass
          | none => exact absurd (congrArg Prod.fst hclass) classOf_ne_unknownClass
        next => cases h

end Registry

namespace Bridge

variable {env : Env H} {proper : Prop} {bridge after : Bridge H} {handle : Handle}
  {qualified : String}

/-- Wherever the program has got to, the step leads to a state that a program gets to. If the names
are proper it finds the classes that it needs. -/
abbrev Finds (env : Env H) (proper : Prop) (step : Run H α) : Prop :=
  Upholds (Arises env) (fun error => proper → error.missesClass = false) step

theorem finds_of_within {step : Run H α} (h : Within (Advance env) step) : Finds env False step :=
  h.upholds (fun _ _ hstep harises => harises.trans (.single hstep)) fun _ _ _ _ => False.elim

/-! ## Giving up -/

/-- By induction on the number of shares. -/
theorem giveUp_bare (env : Env H) (bound : Nat) (shares : List Value.Share) (bridge : Bridge H) :
    giveUp env.bare bound shares bridge = giveUp env bound shares bridge := by
  induction bound, shares, bridge using giveUp.induct env with
  | case1 => rfl
  | case2 bound => cases bound <;> rfl
  | case3 bound id rest bridge ih => exact ih
  | case4 bound id rest bridge hcell ih =>
      rw [giveUp, giveUp, hcell]
      exact ih
  | case5 bound id rest bridge cell hcell hlast ih =>
      rw [giveUp, giveUp, hcell]
      dsimp only
      rw [if_pos hlast, if_pos hlast]
      exact ih
  | case6 bound id rest bridge cell hcell hshared ih =>
      rw [giveUp, giveUp, hcell]
      dsimp only
      rw [if_neg hshared, if_neg hshared]
      exact ih

theorem drop_bare (env : Env H) (values : List Value) :
    (drop env.bare values : Bridge H → Bridge H) = drop env values :=
  funext fun bridge => giveUp_bare env _ _ bridge

theorem finds_inCall {step : Native H α} (h : Within (Advance env) step) :
    Finds env proper (inCall step) := by
  refine (within_inCall h).upholds (fun _ _ hstep harises => harises.trans (.single hstep)) ?_
  intro bridge after error herror
  unfold inCall at herror
  cases hstep : step bridge with
  | ok =>
      rw [hstep] at herror
      cases herror
  | error =>
      rw [hstep] at herror
      cases herror
      exact fun _ => rfl

/-! ## Registering -/

theorem finds_registerNamespace (env : Env H) (name : String) :
    Finds env proper (registerNamespace env name) := by
  intro bridge harises
  have hends := upholds_registerWithin env ((repo env).spaces.length + 1) name bridge
    harises.stocked
  have hafter := harises.trans (.single (.register bridge name))
  rw [← registerNamespace] at hends
  cases hresult : registerNamespace env name bridge with
  | ok space after =>
      rw [hresult] at hafter
      exact hafter
  | error error after =>
      rw [hresult] at hafter hends
      exact ⟨hafter, fun _ => hends.2⟩

theorem finds_namespaceOf (env : Env H) (qualified : String) :
    Finds env proper (namespaceOf env qualified) := by
  unfold namespaceOf
  split
  next => exact finds_registerNamespace env _
  next => exact upholds_throw fun _ => rfl

/-! ## Wrapping -/

section Wrapping

variable (horderly : env.Orderly)
include horderly

theorem Arises.drop (h : Arises env bridge) (values : List Value) :
    Arises env (bridge.drop env values) :=
  h.trans (drop_bare env values ▸ horderly.governs.serves.dropAll values bridge)

theorem Arises.retain (h : Arises env bridge) (value : Value) :
    Arises env (Bridge.retain value bridge) :=
  h.trans (horderly.governs.works.retainAll value bridge)

/-- Wrapping finds the class that it needs if the class is there or none is asked for. -/
theorem Arises.ends_wrap (h : Arises env bridge) {target : Option String}
    (htarget : proper → ∀ name ∈ target, ∃ cls, bridge.registry.classes.get? name = some cls)
    (ownership : Ownership) :
    Ends (Arises env) (fun error => proper → error.missesClass = false)
      (wrap env handle target ownership bridge) := by
  have hafter : Arises env (ending (wrap env handle target ownership bridge)) :=
    h.trans (horderly.governs.serves.within_wrap handle target ownership bridge)
  cases hresult : wrap env handle target ownership bridge with
  | ok value after =>
      rw [hresult] at hafter
      exact hafter
  | error error after =>
      rw [hresult] at hafter
      refine ⟨hafter, fun hproper => ?_⟩
      unfold wrap wrapRaw at hresult
      rcases hwrap : bridge.registry.wrap bridge.introspection handle target ownership with
        ⟨wrapped, registry⟩
      rw [hwrap] at hresult
      cases wrapped with
      | ok wrapped => cases hresult
      | error error =>
          cases hresult
          cases error with
          | unknownClass name =>
              obtain ⟨rfl, hnone⟩ := Registry.of_wrap_eq_unknownClass (congrArg Prod.fst hwrap)
              obtain ⟨cls, hcls⟩ := htarget hproper name rfl
              rw [hcls] at hnone
              cases hnone
          | _ => rfl

theorem finds_wrap (handle : Handle) (ownership : Ownership) :
    Finds env proper (wrap env handle none ownership) :=
  fun _ h => h.ends_wrap horderly (fun _ _ hname => by cases hname) ownership

/-- The class of a declared type is there once its namespace is. -/
theorem finds_wrapAs (hnames : proper → (repo env).WellNamed)
    (hqualified : proper → (repo env).HasInstances qualified) (handle : Handle)
    (ownership : Ownership) : Finds env proper (wrapAs env handle qualified ownership) := by
  have hspace : Finds env proper (discard (namespaceOf env qualified)) :=
    (finds_namespaceOf env qualified).bind fun _ => upholds_pure _
  refine hspace.bind_of_ok fun bridge _ middle harises hok hmiddle => ?_
  obtain ⟨space, registered, hregistered, hsame⟩ := of_bind_eq_ok hok
  cases hsame
  obtain ⟨name, hname, hcompiled, hfound⟩ :=
    of_namespaceOf_eq_ok harises.attained.reachable.valid hregistered
  refine hmiddle.ends_wrap horderly ?_ ownership
  intro hproper wanted hwanted
  cases hwanted
  exact hmiddle.stocked.exists_get? (hnames hproper) (hqualified hproper) hname hcompiled hfound

/-- A record that is made is wrapped as its own class. -/
theorem finds_allocRecord (qualified : String) : Finds env proper (allocRecord env qualified) := by
  refine (finds_namespaceOf env qualified).bind_of_ok
    fun bridge space middle harises hok hmiddle => ?_
  obtain ⟨name, _, hcompiled, hfound⟩ :=
    of_namespaceOf_eq_ok harises.attained.reachable.valid hok
  cases hrecord : space.record? qualified with
  | none => exact ⟨hmiddle, fun _ => rfl⟩
  | some record =>
      have hmem : record.nativeClass space.library ∈ space.nativeClasses :=
        List.mem_append_right _ (List.mem_map_of_mem (List.mem_of_find?_eq_some hrecord))
      have hcls := hmiddle.stocked.exists_get?_of_mem hcompiled hfound hmem
      have halloc : Finds env proper (inCall (alloc record.shape.total.size (some record.typeName)
          (some space.library))) := finds_inCall (horderly.governs.works.within_alloc _ _ _)
      refine (halloc middle hmiddle).bind fun handle made hmade harises => ?_
      obtain ⟨_, rfl⟩ := of_alloc_eq_ok (of_inCall_eq_ok hmade)
      refine (harises.ends_wrap horderly ?_ .full).bind fun value last _ hlast => ?_
      · intro _ _ hwanted
        cases hwanted
        exact hcls
      · cases value with
        | null => exact ⟨hlast, fun _ => rfl⟩
        | _ => exact hlast

theorem finds_orDrop (values : List Value) {step : Run H α} (hstep : Finds env proper step) :
    Finds env proper (orDrop env values step) := by
  intro bridge harises
  have hends := hstep bridge harises
  unfold orDrop
  cases hresult : step bridge with
  | ok value after =>
      rw [hresult] at hends
      exact hends
  | error error after =>
      rw [hresult] at hends
      exact ⟨hends.1.drop horderly values, hends.2⟩

theorem finds_thenDrop (values : List Value) {step : Run H α} (hstep : Finds env proper step) :
    Finds env proper (thenDrop env values step) := by
  intro bridge harises
  have hends := hstep bridge harises
  unfold thenDrop
  cases hresult : step bridge with
  | ok value after =>
      rw [hresult] at hends
      exact Arises.drop horderly hends values
  | error error after =>
      rw [hresult] at hends
      exact ⟨hends.1.drop horderly values, hends.2⟩

theorem finds_keep (value : Value) : Finds env proper (keep value) :=
  (upholds_modify fun _ h => h.retain horderly value).bind fun _ => upholds_pure _

omit horderly in
/-- By induction on the number of steps. -/
theorem ends_gather {step : Nat → Run H Value} (seen : List Value) {index count : Nat}
    (hstep : ∀ place, index ≤ place → place < index + count → Finds env proper (step place))
    (h : Arises env bridge) :
    Arises env (gather step seen index count bridge).2 ∧
      ∀ error ∈ (gather step seen index count bridge).1.2, proper → error.missesClass = false := by
  induction count generalizing seen index bridge with
  | zero => exact ⟨h, fun _ herror => by cases herror⟩
  | succ count ih =>
      have hends := hstep index (Nat.le_refl _) (by omega) bridge h
      unfold gather
      cases hitem : step index bridge with
      | ok value middle =>
          rw [hitem] at hends
          exact ih (value :: seen) (fun place hfrom hto => hstep place (by omega) (by omega)) hends
      | error error middle =>
          rw [hitem] at hends
          refine ⟨hends.1, fun other hother => ?_⟩
          cases hother
          exact hends.2

theorem finds_collect {step : Nat → Run H Value} {count : Nat}
    (hstep : ∀ index < count, Finds env proper (step index)) :
    Finds env proper (collect env step count) := by
  intro bridge harises
  have hplaces : ∀ place, 0 ≤ place → place < 0 + count → Finds env proper (step place) :=
    fun place _ hplace => hstep place (by omega)
  obtain ⟨hafter, hallowed⟩ := ends_gather [] hplaces harises
  unfold collect
  rcases hgather : gather step [] 0 count bridge with ⟨⟨values, error⟩, after⟩
  rw [hgather] at hafter hallowed
  cases error with
  | none => exact hafter
  | some error => exact ⟨hafter.drop horderly values, hallowed error rfl⟩

end Wrapping

/-! ## Reading -/

theorem finds_read (handle : Handle) (descriptor : Descriptor) (offset : Nat) :
    Finds env proper (inCall (read handle descriptor offset)) :=
  finds_inCall (within_read handle descriptor offset)

theorem finds_needInstance (value : Value) (owner : String) :
    Finds env proper (needInstance value owner : Run H Handle) := by
  unfold needInstance
  split
  next => exact upholds_pure _
  next => exact upholds_throw fun _ => rfl

theorem finds_fieldOf (env : Env H) (owner name : String) :
    Finds env proper (fieldOf env owner name) := by
  refine (finds_namespaceOf env owner).bind fun space => ?_
  dsimp only
  split
  next =>
    split
    next => exact upholds_throw_bind fun _ => rfl
    next =>
      refine (upholds_pure _).bind fun fields => ?_
      cases fields.find? (·.layout.field == name) with
      | some field => exact upholds_pure _
      | none => exact upholds_throw fun _ => rfl
  next =>
    refine (upholds_pure _).bind fun fields => ?_
    cases fields.find? (·.layout.field == name) with
    | some field => exact upholds_pure _
    | none => exact upholds_throw fun _ => rfl
  next => exact upholds_throw_bind fun _ => rfl

section Reading

variable (horderly : env.Orderly) (hnames : proper → (repo env).WellNamed)
include horderly hnames

theorem finds_liftBorrowed {descriptor : Descriptor}
    (hdeclared : proper → descriptor.Declared (repo env)) (raw : Value) :
    Finds env proper (liftBorrowed env descriptor raw) := by
  unfold liftBorrowed
  split
  next => exact upholds_pure _
  next =>
    split
    next => exact upholds_pure _
    next =>
      split
      next => exact finds_wrap horderly _ _
      next => exact finds_wrapAs horderly hnames (fun hproper => hdeclared hproper _ rfl) _ _
      next => exact finds_wrapAs horderly hnames (fun hproper => hdeclared hproper _ rfl) _ _
      next => exact upholds_pure _

/-- A field is described as what it is declared to be, and so are the items of an array in it. -/
theorem finds_readField (owner : Value) (type name : String) :
    Finds env proper (readField env owner type name) := by
  refine (finds_fieldOf env type name).bind_of_ok fun bridge field middle harises hok hmiddle => ?_
  obtain ⟨_, _, _, _, hmap⟩ := exists_map_of_fieldOf_eq_ok harises.attained.reachable.valid hok
  have hdeclared : field.descriptor.Declared (repo env) := Mapper.declared_of_map_eq_ok hmap
  dsimp only
  split
  next => exact ⟨hmiddle, fun _ => rfl⟩
  next =>
    refine Upholds.bind (finds_needInstance owner type) (fun base => ?_) middle hmiddle
    split
    next element stride count harray =>
      obtain ⟨_, _, hdescriptor⟩ := of_inlineArray?_eq_some harray
      have hitems : element.Declared (repo env) := by
        rw [hdescriptor] at hdeclared
        exact hdeclared
      refine (finds_collect horderly fun index _ => ?_).bind fun _ => upholds_pure _
      exact (finds_read _ _ _).bind fun _ => finds_liftBorrowed horderly hnames (fun _ => hitems) _
    next =>
      exact (finds_read _ _ _).bind fun _ =>
        finds_liftBorrowed horderly hnames (fun _ => hdeclared) _

/-- Only what has a layout has elements, and that is declared. -/
theorem finds_element (base : Value) (qualified : String) (index : Nat) :
    Finds env proper (element env base qualified index) := by
  unfold element
  split
  next layout hlayout =>
    rw [Calculator.typeLayout?_calculator] at hlayout
    have hinstances : (repo env).HasInstances qualified :=
      Platform.hasInstances_of_typeLayout?_eq_some hlayout
    refine (finds_needInstance base qualified).bind fun start => ?_
    cases (layout.elementOffset? index).bind start.offset? with
    | some handle => exact finds_wrapAs horderly hnames (fun _ => hinstances) _ _
    | none => exact upholds_throw fun _ => rfl
  next => exact upholds_throw fun _ => rfl

/-! ## Lifting -/

theorem finds_liftRecord {innerType : String}
    (hinstances : proper → (repo env).HasInstances innerType) (ownership : Ownership)
    (raw : Value) : Finds env proper (liftRecord env innerType ownership raw) := by
  unfold liftRecord
  split
  next => exact finds_wrapAs horderly hnames hinstances _ _
  next => exact finds_keep horderly _

theorem finds_copyRecord (element : Descriptor) {innerType : String}
    (hinstances : proper → (repo env).HasInstances innerType) (size : Nat) (base : Handle)
    (offset : Nat) :
    Finds env proper (copyRecord env element innerType size base offset) := by
  have hworks := horderly.governs.works
  unfold copyRecord
  split
  next =>
    exact (finds_inCall (hworks.within_alloc _ _ _)).bind fun copy =>
      (finds_inCall (hworks.within_write _ _ _ _)).bind fun _ =>
        finds_wrapAs horderly hnames hinstances _ _
  next => exact upholds_throw fun _ => rfl

omit horderly hnames in
theorem finds_lengthAt (args : Array NativeArg) (index : Nat) :
    Finds env proper (lengthAt args index : Run H Nat) := by
  unfold lengthAt
  split
  next =>
    dsimp only
    split
    next =>
      split
      next => exact (finds_read _ _ _).bind fun _ => upholds_pure _
      next => exact (upholds_pure _).bind fun _ => upholds_pure _
    next => exact (upholds_pure _).bind fun _ => upholds_pure _
  next => exact upholds_throw fun _ => rfl

omit horderly hnames in
theorem finds_elementCount (args : Array NativeArg) (base : Handle) (element : Descriptor)
    (elementSize : Nat) (length : ArrayLength) :
    Finds env proper (elementCount args base element elementSize length : Run H Nat) := by
  cases length with
  | fixed count => exact upholds_pure _
  | param index => exact finds_lengthAt _ _
  | zeroTerminated => exact finds_inCall (within_terminatedLength _ _ _)
  | container => exact upholds_throw fun _ => rfl

/-- By induction over the descriptor: items and what a reference points at have smaller ones. -/
theorem finds_lift (args : Array NativeArg) {descriptor : Descriptor}
    (hdeclared : proper → descriptor.Declared (repo env)) (raw : Value) :
    Finds env proper (lift env args descriptor raw) := by
  induction descriptor, raw using lift.induct with
  | case1 raw => exact upholds_pure _
  | case2 ownership hooks raw handle hhandle =>
      rw [lift, hhandle]
      exact finds_wrap horderly _ _
  | case3 ownership hooks raw hhandle =>
      rw [lift, hhandle]
      exact finds_keep horderly _
  | case4 => exact finds_liftRecord horderly hnames (fun hproper => hdeclared hproper _ rfl) _ _
  | case5 => exact finds_liftRecord horderly hnames (fun hproper => hdeclared hproper _ rfl) _ _
  | case6 element ownership length kind elementSize raw base hbase ih =>
      have hitems : proper → element.Declared (repo env) := hdeclared
      rw [lift, hbase]
      refine (finds_elementCount _ _ _ _ _).bind fun count => ?_
      refine (finds_collect horderly (fun index _ => ?_)).bind fun items => ?_
      · split
        next => exact finds_copyRecord horderly hnames _ (fun hproper => hitems hproper _ rfl) _ _ _
        next => exact (finds_read _ _ _).bind fun value => ih value hitems
      · dsimp only
        split
        next =>
          refine (upholds_modify fun bridge harises => ?_).bind fun _ => upholds_pure _
          exact harises.trans (horderly.governs.serves.attempt_release base none bridge)
        next => exact upholds_pure _
  | case7 element ownership length kind elementSize raw hbase =>
      rw [lift]
      split
      next base hsome => exact absurd hsome (hbase base)
      next => exact upholds_pure _
  | case8 inner raw slot hslot ih =>
      rw [lift, hslot]
      exact (finds_read _ _ _).bind fun value => ih value hdeclared
  | case9 inner raw hslot =>
      rw [lift]
      split
      next slot hsome => exact absurd hsome (hslot slot)
      next => exact upholds_pure _
  | case10 | case11 | case12 => exact finds_keep horderly _

/-- An output is given as what its argument is described as, or its record as the same. -/
theorem finds_liftOutput {frame : Frame} {index : Nat} (hdeclared : proper → ∀ arg,
    frame.args[index]? = some arg → arg.descriptor.Declared (repo env)) :
    Finds env proper (liftOutput env frame index) := by
  unfold liftOutput
  split
  next arg harg =>
    have harg := fun hproper => hdeclared hproper arg harg
    split
    next hdescriptor _ =>
      rw [hdescriptor] at harg
      exact finds_wrapAs horderly hnames (fun hproper => harg hproper _ rfl) _ _
    next hdescriptor _ =>
      rw [hdescriptor] at harg
      exact finds_wrapAs horderly hnames (fun hproper => harg hproper _ rfl) _ _
    next inner hdescriptor _ _ =>
      rw [hdescriptor] at harg
      have hinner : proper → inner.Declared (repo env) := harg
      split
      next => exact (finds_read _ _ _).bind fun _ => finds_lift horderly hnames _ hinner _
      next => exact upholds_pure _
    next => exact finds_lift horderly hnames _ harg _
  next => exact upholds_pure _

end Reading

end Bridge

end Interop
