import Interop.Proofs.Bridge.Links
import Interop.Proofs.Bridge.Registered

/-! # Registering again after a failure

A namespace that is not in the repository cannot be registered and leaves everything as it is. One
that declares a type without a name stops there, and what came before stays in the tables; it fails
in the same way each time. But a namespace whose own types are all in the tables is registered
before the namespaces it depends on. If one of those fails, so does the registration, and yet the
namespace is there when it is asked for again.
-/

namespace Interop

open Schema Relation Steps

variable {H : Host}

namespace Bridge

/-- Nothing has been taken out of the tables, and what is new stands behind the rest. -/
structure Extends (bridge bridge' : Bridge H) : Prop where
  natives : bridge.registry.classes.classes <+: bridge'.registry.classes.classes
  names : bridge.hierarchy.names <+: bridge'.hierarchy.names
  namespaces : bridge.namespaces <+: bridge'.namespaces

/-- The class has a name, and it or one with its hash is in the table. -/
structure Knows (bridge : Bridge H) (native : NativeClass) : Prop where
  named : native.typeName.isEmpty = false
  known : (bridge.registry.classes.findHash? native.hash).isSome = true

variable {env : Env H} {bridge bridge' bridge'' after : Bridge H} {name library : String}
  {space : NamespaceBinding} {error : BindError} {native : NativeClass}

/-! ## Growing tables -/

theorem extends_refl (bridge : Bridge H) : bridge.Extends bridge :=
  ⟨List.prefix_refl _, List.prefix_refl _, List.prefix_refl _⟩

theorem Extends.trans (h : bridge.Extends bridge') (h' : bridge'.Extends bridge'') :
    bridge.Extends bridge'' :=
  ⟨h.natives.trans h'.natives, h.names.trans h'.names, h.namespaces.trans h'.namespaces⟩

theorem Extends.of_run (h : ReflTransGen Extends bridge bridge') : bridge.Extends bridge' := by
  induction h with
  | refl => exact extends_refl bridge
  | tail _ hstep ih => exact ih.trans hstep

theorem registers_extends (env : Env H) : Registers env Extends where
  registerClass {bridge _ _ cls _} _ _ h := by
    obtain ⟨classes, hclasses, rfl⟩ := Registry.of_registerClass_eq_ok h
    refine ⟨?_, List.prefix_refl _, List.prefix_refl _⟩
    rw [(ClassTable.of_register_eq_ok hclasses).2]
    exact List.prefix_append _ _
  link {bridge _ _ cls} _ _ := by
    refine ⟨List.prefix_refl _, ?_, List.prefix_refl _⟩
    exact prefix_names_linkAll (repo env) [cls] bridge.hierarchy
  register _ := ⟨List.prefix_refl _, List.prefix_refl _, List.prefix_append _ _⟩
  other h :=
    ⟨h.registry ▸ List.prefix_refl _, h.hierarchy ▸ List.prefix_refl _,
      h.namespaces ▸ List.prefix_refl _⟩

theorem Extends.namespace?_eq (h : bridge.Extends bridge')
    (hfound : bridge.namespace? name = some space) : bridge'.namespace? name = some space := by
  obtain ⟨added, hadded⟩ := h.namespaces
  rw [namespace?, ← hadded, List.lookup_append]
  exact Option.or_eq_some_iff.2 (.inl hfound)

/-! ## What is known already -/

theorem Knows.mono (h : bridge.Knows native)
    (hnatives : bridge.registry.classes.classes <+: bridge'.registry.classes.classes) :
    bridge'.Knows native := by
  refine ⟨h.named, ?_⟩
  obtain ⟨other, hother, hhash⟩ := List.find?_isSome.1 h.known
  exact List.find?_isSome.2 ⟨other, hnatives.subset hother, hhash⟩

/-- A class that is known is registered without any effect. -/
theorem Knows.registerNative_eq (h : bridge.Knows native) :
    registerNative native bridge = .ok ⟨⟩ bridge := by
  have hcase := registerNative_cases native bridge
  generalize registerNative native bridge = result at hcase
  cases hcase with
  | new _ hnew =>
      have hknown := h.known
      rw [hnew] at hknown
      cases hknown
  | known => rfl
  | unnamed hunnamed =>
      rw [h.named] at hunnamed
      cases hunnamed

/-- Whatever is registered is known then. -/
theorem of_registerNative_eq_ok {u : Unit} (h : registerNative native bridge = .ok u bridge') :
    bridge'.Knows native ∧ bridge'.hierarchy = bridge.hierarchy ∧
      bridge'.namespaces = bridge.namespaces ∧
      bridge.registry.classes.classes <+: bridge'.registry.classes.classes := by
  have hcase := registerNative_cases native bridge
  rw [h] at hcase
  cases hcase with
  | new hnamed =>
      refine ⟨⟨hnamed, ?_⟩, rfl, rfl, List.prefix_append _ _⟩
      exact List.find?_isSome.2
        ⟨native, List.mem_append_right _ List.mem_cons_self, beq_self_eq_true _⟩
  | known hnamed hknown => exact ⟨⟨hnamed, hknown⟩, rfl, rfl, List.prefix_refl _⟩

theorem of_registerNative_eq_error (h : registerNative native bridge = .error error after) :
    native.typeName.isEmpty = true ∧ error = .registration .emptyTypeName ∧ after = bridge := by
  have hcase := registerNative_cases native bridge
  rw [h] at hcase
  cases hcase with
  | unnamed hunnamed => exact ⟨hunnamed, rfl, rfl⟩

/-- Classes that are known are only linked once more. -/
theorem enterClasses_of_knows (env : Env H) {classes : List ClassBinding}
    (h : ∀ cls ∈ classes, bridge.Knows (cls.nativeClass library)) :
    classes.forM (enterClass env library) bridge =
      .ok ⟨⟩ { bridge with hierarchy := linkAll (repo env) classes bridge.hierarchy } := by
  induction classes generalizing bridge with
  | nil => rfl
  | cons cls rest ih =>
      obtain ⟨hcls, hrest⟩ := List.forall_mem_cons.1 h
      have hentered : enterClass env library cls bridge =
          .ok ⟨⟩ { bridge with hierarchy := linkClass (repo env) cls bridge.hierarchy } :=
        bind_eq_of_eq_ok hcls.registerNative_eq
      refine (bind_eq_of_eq_ok hentered).trans (ih fun other hother => ?_)
      exact (hrest other hother).mono (List.prefix_refl _)

theorem of_enterClasses_eq_ok {classes : List ClassBinding} {u : Unit}
    (h : classes.forM (enterClass env library) bridge = .ok u bridge') :
    (∀ cls ∈ classes, bridge'.Knows (cls.nativeClass library)) ∧
      bridge'.hierarchy = linkAll (repo env) classes bridge.hierarchy ∧
      bridge'.namespaces = bridge.namespaces ∧
      bridge.registry.classes.classes <+: bridge'.registry.classes.classes := by
  induction classes generalizing bridge with
  | nil =>
      cases h
      exact ⟨fun _ h => absurd h List.not_mem_nil, rfl, rfl, List.prefix_refl _⟩
  | cons cls rest ih =>
      obtain ⟨_, middle, hfirst, hrest⟩ := of_bind_eq_ok h
      obtain ⟨_, listed, hnative, hlink⟩ := of_bind_eq_ok hfirst
      obtain ⟨hknows, hhierarchy, hnamespaces, hnatives⟩ := of_registerNative_eq_ok hnative
      cases hlink
      obtain ⟨hothers, hlinked, hkept, hadded⟩ := ih hrest
      refine ⟨List.forall_mem_cons.2 ⟨hknows.mono hadded, hothers⟩, ?_, hkept.trans hnamespaces,
        hnatives.trans hadded⟩
      rw [hlinked, ← hhierarchy]
      rfl

theorem registerRecords_of_knows {records : List RecordBinding}
    (h : ∀ record ∈ records, bridge.Knows (record.nativeClass library)) :
    (records.forM fun record => registerNative (record.nativeClass library)) bridge =
      .ok ⟨⟩ bridge := by
  induction records with
  | nil => rfl
  | cons record rest ih =>
      obtain ⟨hrecord, hrest⟩ := List.forall_mem_cons.1 h
      exact (bind_eq_of_eq_ok hrecord.registerNative_eq).trans (ih hrest)

theorem of_registerRecords_eq_ok {records : List RecordBinding} {u : Unit}
    (h : (records.forM fun record => registerNative (record.nativeClass library)) bridge =
      .ok u bridge') :
    (∀ record ∈ records, bridge'.Knows (record.nativeClass library)) ∧
      bridge'.hierarchy = bridge.hierarchy ∧ bridge'.namespaces = bridge.namespaces ∧
      bridge.registry.classes.classes <+: bridge'.registry.classes.classes := by
  induction records generalizing bridge with
  | nil =>
      cases h
      exact ⟨fun _ h => absurd h List.not_mem_nil, rfl, rfl, List.prefix_refl _⟩
  | cons record rest ih =>
      obtain ⟨_, middle, hfirst, hrest⟩ := of_bind_eq_ok h
      obtain ⟨hknows, hhierarchy, hnamespaces, hnatives⟩ := of_registerNative_eq_ok hfirst
      obtain ⟨hothers, hlinked, hkept, hadded⟩ := ih hrest
      exact ⟨List.forall_mem_cons.2 ⟨hknows.mono hadded, hothers⟩, hlinked.trans hhierarchy,
        hkept.trans hnamespaces, hnatives.trans hadded⟩

/-! ## The types of a namespace -/

/-- The types of a namespace are registered if all of them have names. -/
theorem named_of_registerTypes_eq_ok {u : Unit} (h : registerTypes env space bridge = .ok u after) :
    ∀ native ∈ space.nativeClasses, native.typeName.isEmpty = false := by
  obtain ⟨_, middle, hclasses, h⟩ := of_bind_eq_ok h
  obtain ⟨_, last, hrecords, _⟩ := of_bind_eq_ok h
  intro native hnative
  rcases List.mem_append.1 hnative with hmem | hmem
  · obtain ⟨cls, hcls, rfl⟩ := List.mem_map.1 hmem
    exact ((of_enterClasses_eq_ok hclasses).1 cls hcls).named
  · obtain ⟨record, hrecord, rfl⟩ := List.mem_map.1 hmem
    exact ((of_registerRecords_eq_ok hrecords).1 record hrecord).named

/-- Otherwise registering them stops at the same type each time, and the second time it changes
nothing: what comes before is known, and linking it again makes no difference. -/
theorem registerTypes_again (h : registerTypes env space bridge = .error error after) :
    registerTypes env space after = .error error after ∧ after.namespaces = bridge.namespaces ∧
      error = .registration .emptyTypeName ∧
      ∃ native ∈ space.nativeClasses, native.typeName.isEmpty = true := by
  rcases of_bind_eq_error h with hclasses | ⟨_, middle, hclasses, h⟩
  · obtain ⟨done, cls, rest, middle, hsplit, hdone, hfailed⟩ := exists_of_forM_eq_error hclasses
    rcases of_bind_eq_error hfailed with hnative | ⟨_, _, _, hlink⟩
    swap
    · cases hlink
    obtain ⟨hunnamed, rfl, rfl⟩ := of_registerNative_eq_error hnative
    obtain ⟨hknows, hlinked, hnamespaces, _⟩ := of_enterClasses_eq_ok hdone
    -- the classes before the one that is refused are known by now, and linked
    have hagain := enterClasses_of_knows env hknows
    rw [hlinked, linkAll_again, ← hlinked] at hagain
    have hcls : cls ∈ space.classes := by
      rw [hsplit]
      exact List.mem_append_right _ List.mem_cons_self
    refine ⟨?_, hnamespaces, rfl, _, mem_nativeClasses hcls, hunnamed⟩
    apply bind_eq_of_eq_error
    rw [hsplit]
    exact forM_eq_error hagain hfailed
  · rcases of_bind_eq_error h with hrecords | ⟨_, _, _, hpublish⟩
    swap
    · cases hpublish
    obtain ⟨done, record, rest, last, hsplit, hdone, hnative⟩ := exists_of_forM_eq_error hrecords
    obtain ⟨hunnamed, rfl, rfl⟩ := of_registerNative_eq_error hnative
    obtain ⟨hknows, hlinked, hnamespaces, _⟩ := of_enterClasses_eq_ok hclasses
    obtain ⟨hrecordsKnown, hkept, hsame, hnatives⟩ := of_registerRecords_eq_ok hdone
    -- all classes are known by now, and so are the records before the one that is refused
    have hclassesAgain := enterClasses_of_knows env
      fun cls hcls => (hknows cls hcls).mono hnatives
    rw [hkept, hlinked, linkAll_again, ← hlinked, ← hkept] at hclassesAgain
    have hrecord : record ∈ space.records := by
      rw [hsplit]
      exact List.mem_append_right _ List.mem_cons_self
    refine ⟨?_, hsame.trans hnamespaces, rfl, record.nativeClass space.library,
      List.mem_append_right _ (List.mem_map_of_mem hrecord), hunnamed⟩
    refine (bind_eq_of_eq_ok hclassesAgain).trans ?_
    apply bind_eq_of_eq_error
    rw [hsplit]
    exact forM_eq_error (registerRecords_of_knows hrecordsKnown) hnative

/-! ## Namespaces -/

theorem namespace?_of_registerTypes_of_none (hcompiled : env.compiler.namespace? name = .ok space)
    (hnone : bridge.namespace? name = none) {u : Unit}
    (h : registerTypes env space bridge = .ok u after) : after.namespace? name = some space := by
  obtain rfl := Compiler.name_of_namespace?_eq_ok hcompiled
  obtain ⟨_, middle, hclasses, h⟩ := of_bind_eq_ok h
  obtain ⟨_, last, hrecords, h⟩ := of_bind_eq_ok h
  obtain ⟨_, _, hmiddle, _⟩ := of_enterClasses_eq_ok hclasses
  obtain ⟨_, _, hlast, _⟩ := of_registerRecords_eq_ok hrecords
  cases h
  have hbefore : last.namespace? space.name = none := by
    rw [namespace?, hlast, hmiddle]
    exact hnone
  have hlookup : (last.namespaces ++ [(space.name, space)]).lookup space.name = some space := by
    rw [List.lookup_append, show last.namespaces.lookup space.name = none from hbefore,
      Option.none_or, List.lookup_cons_self]
  exact hlookup

/-- Where registering fails the namespace is not there: it is unknown, a type of its own is refused,
or one that it depends on fails. -/
theorem of_registerWithin_succ_eq_error {depth : Nat}
    (h : registerWithin env (depth + 1) name bridge = .error error after) :
    bridge.namespace? name = none ∧
      ((∃ unknown, env.compiler.namespace? name = .error unknown ∧ error = .mapping unknown ∧
          after = bridge) ∨
        ∃ space, env.compiler.namespace? name = .ok space ∧
          (registerTypes env space bridge = .error error after ∨
            ∃ middle, registerTypes env space bridge = .ok ⟨⟩ middle ∧
              ((dependencies space).forM fun name => discard (registerWithin env depth name))
                middle = .error error after)) := by
  rw [registerWithin_succ] at h
  cases hfound : bridge.namespace? name with
  | some space =>
      rw [hfound] at h
      cases h
  | none =>
      refine ⟨rfl, ?_⟩
      cases hcompiled : env.compiler.namespace? name with
      | error unknown =>
          rw [hfound, hcompiled] at h
          cases h
          exact .inl ⟨_, rfl, rfl, rfl⟩
      | ok space =>
          rw [hfound, hcompiled] at h
          refine .inr ⟨space, rfl, ?_⟩
          rcases of_bind_eq_error h with htypes | ⟨_, middle, htypes, h⟩
          · exact .inl htypes
          · rcases of_bind_eq_error h with hothers | ⟨_, _, _, hdone⟩
            · exact .inr ⟨middle, htypes, hothers⟩
            · cases hdone

/-- What a failed registration leaves behind, and what becomes of the next attempt. A namespace that
is unknown leaves everything as it was. One that declares a type without a name is not registered,
and registering it fails again and changes nothing more. Any other is registered although what it
depends on is not, so the next attempt succeeds. -/
theorem registerNamespace_again (h : registerNamespace env name bridge = .error error after) :
    bridge.Extends after ∧
      (∀ unknown, env.compiler.namespace? name = .error unknown →
        error = .mapping unknown ∧ after = bridge) ∧
      ∀ space, env.compiler.namespace? name = .ok space →
        ((∃ native ∈ space.nativeClasses, native.typeName.isEmpty = true) →
          error = .registration .emptyTypeName ∧ after.namespaces = bridge.namespaces ∧
            registerNamespace env name after = .error error after) ∧
        ((∀ native ∈ space.nativeClasses, native.typeName.isEmpty = false) →
          bridge.namespace? name = none ∧ after.namespace? name = some space ∧
            registerNamespace env name after = .ok space after) := by
  have hextends := Extends.of_run
    ((registers_extends env).enrols.within_registerWithin ((repo env).spaces.length + 1) name bridge)
  rw [← registerNamespace, h] at hextends
  refine ⟨hextends, ?_⟩
  obtain ⟨hnone, ⟨unknown, hunknown, rfl, rfl⟩ | ⟨space, hcompiled, hfails⟩⟩ :=
    of_registerWithin_succ_eq_error h
  · refine ⟨fun other hother => ?_, fun space hspace => ?_⟩
    · cases hunknown.symm.trans hother
      exact ⟨rfl, rfl⟩
    · cases hunknown.symm.trans hspace
  refine ⟨fun unknown hunknown => ?_, fun compiled hsame => ?_⟩
  · cases hcompiled.symm.trans hunknown
  cases hcompiled.symm.trans hsame
  rcases hfails with htypes | ⟨middle, htypes, hothers⟩
  · -- a type of its own has no name
    obtain ⟨hagain, hkept, rfl, native, hnative, hunnamed⟩ := registerTypes_again htypes
    refine ⟨fun _ => ⟨rfl, hkept, ?_⟩, fun hnamed => ?_⟩
    · have hstill : after.namespace? name = none := by
        rw [namespace?, hkept]
        exact hnone
      rw [registerNamespace, registerWithin_succ, hstill, hcompiled]
      exact bind_eq_of_eq_error hagain
    · rw [hnamed native hnative] at hunnamed
      cases hunnamed
  · -- the failure is one of its dependencies, and by then it is registered itself
    have hnamed := named_of_registerTypes_eq_ok htypes
    have hlater := (registers_extends env).enrols.within_dependencies
      (repo env).spaces.length (dependencies space) middle
    rw [hothers] at hlater
    have hregistered := (Extends.of_run hlater).namespace?_eq
      (namespace?_of_registerTypes_of_none hcompiled hnone htypes)
    constructor
    · rintro ⟨native, hnative, hunnamed⟩
      rw [hnamed native hnative] at hunnamed
      cases hunnamed
    · intro _
      refine ⟨hnone, hregistered, ?_⟩
      rw [registerNamespace, registerWithin_succ]
      simp only [ending] at hregistered
      rw [hregistered]

/-- A class that descends from one of a namespace that there is not. -/
def orphaned : Repository := .ofSpaces [
  { name := "N"
    classes := [{ name := "A", typeName := some "NA", parent := some "Missing.Base" }] }]

/-- The state in which registering its namespace has failed. -/
def orphanLeft : Bridge silent := ending (registerNamespace (silentEnv orphaned) "N" (start ()))

theorem registerNamespace_orphaned :
    registerNamespace (silentEnv orphaned) "N" (start ()) =
      .error (.mapping (.refused (.unknownNamespace "Missing"))) orphanLeft := by
  apply eq_error_of_failure?
  decide +kernel

/-- The namespace is registered, and the second attempt gives it. -/
theorem orphaned_registered_again :
    ∃ space, orphanLeft.namespace? "N" = some space ∧
      registerNamespace (silentEnv orphaned) "N" orphanLeft = .ok space orphanLeft := by
  obtain ⟨_, _, hcompiled⟩ := registerNamespace_again registerNamespace_orphaned
  cases hspace : (silentEnv orphaned).compiler.namespace? "N" with
  | error unknown =>
      have hknown : ((silentEnv orphaned).compiler.namespace? "N").toOption.isSome = true := by
        decide +kernel
      rw [hspace] at hknown
      cases hknown
  | ok space =>
      have hnamed : ((silentEnv orphaned).compiler.namespace? "N").toOption.all fun space =>
          space.nativeClasses.all fun native => !native.typeName.isEmpty := by decide +kernel
      rw [hspace] at hnamed
      obtain ⟨_, hregistered, hagain⟩ := (hcompiled space hspace).2 fun native hnative => by
        simpa using List.all_eq_true.1 hnamed native hnative
      exact ⟨space, hregistered, hagain⟩

/-- A registration that fails changes each of the three tables, and the next one succeeds. -/
theorem orphaned_changes_tables :
    registerNamespace (silentEnv orphaned) "N" (start ()) =
        .error (.mapping (.refused (.unknownNamespace "Missing"))) orphanLeft ∧
      orphanLeft.registry.classes.classes ≠ (start () : Bridge silent).registry.classes.classes ∧
      orphanLeft.hierarchy.names ≠ (start () : Bridge silent).hierarchy.names ∧
      orphanLeft.namespaces.map (·.1) ≠ (start () : Bridge silent).namespaces.map (·.1) ∧
      failure? (registerNamespace (silentEnv orphaned) "N" orphanLeft) = none := by
  have hclasses : orphanLeft.registry.classes.classes.map (·.typeName) = ["NA"] := by
    decide +kernel
  refine ⟨registerNamespace_orphaned, fun hsame => ?_, ?_, ?_, ?_⟩
  · rw [hsame] at hclasses
    cases hclasses
  all_goals decide +kernel

end Bridge

end Interop
