import Interop.Proofs.Bridge.Changes
import Interop.Proofs.Bridge.Retry
import Interop.Proofs.Bridge.TypeNames
import Interop.Proofs.Schema.Instances

/-! # Registered namespaces and their classes

A namespace is entered behind the classes of all its types, and no class is ever taken out. So
wherever a namespace is found, the types that it declares can be wrapped as, whatever has happened
before: whether their classes were new or known by then, and whether the namespace was asked for or
another one depended on it.
-/

namespace Interop

open Schema Relation Steps

variable {H : Host}

/-- Whether the error is that a handle is to be wrapped as a class that is not registered. -/
def BindError.missesClass : BindError → Bool
  | identity (.unknownClass _) => true
  | _ => false

namespace Compiler

variable {compiler : Compiler} {space : Namespace}

theorem exists_mem_records (hdistinct : compiler.platform.repo.Distinct)
    (hspace : space ∈ compiler.platform.repo.spaces) {record : Record}
    (hrecord : record ∈ space.records ++ space.unions) :
    ∃ binding ∈ (compiler.run space).bindings.records,
      binding.typeName =
        runtimeTypeName record.typeName record.cType (space.qualify record.name) := by
  obtain ⟨shape, hshape⟩ :=
    Platform.exists_recordShape? (hdistinct.find?_record hspace hrecord)
  have hmade : ∀ report : CompileReport, ∃ before,
      (compiler.compileRecord space record before).1 ∈
        ((space.records ++ space.unions).mapM (compiler.compileRecord space) report).1 :=
    Compile.exists_mem_mapM hrecord
  obtain ⟨before, hmem⟩ := hmade _
  obtain ⟨binding, hbinding⟩ := exists_compileRecord_eq_some hshape before
  have hof := recordOf_of_compileRecord hbinding
  exact ⟨binding, List.mem_filterMap.2 ⟨_, hmem, hbinding⟩, hof.name ▸ hof.typeName⟩

/-- Every type of a namespace that can have instances has its class in what is compiled. -/
theorem exists_nativeClass (hdistinct : compiler.platform.repo.Distinct)
    (hspace : space ∈ compiler.platform.repo.spaces) {decl : Declaration}
    (hdecl : decl ∈ space.declarations) {typeName : String}
    (htype : decl.typeName? (space.qualify decl.name) = some typeName) :
    ∃ native ∈ (compiler.run space).bindings.nativeClasses, native.typeName = typeName := by
  have hclass : typeName ∈ (compiler.run space).bindings.classes.map (·.typeName) →
      ∃ native ∈ (compiler.run space).bindings.nativeClasses, native.typeName = typeName := by
    intro hmem
    obtain ⟨cls, hcls, rfl⟩ := List.mem_map.1 hmem
    exact ⟨_, Bridge.mem_nativeClasses hcls, rfl⟩
  have hrecord : ∀ record ∈ space.records ++ space.unions,
      runtimeTypeName record.typeName record.cType (space.qualify record.name) = typeName →
      ∃ native ∈ (compiler.run space).bindings.nativeClasses, native.typeName = typeName := by
    rintro record hmem rfl
    obtain ⟨binding, hbinding, hname⟩ := exists_mem_records hdistinct hspace hmem
    exact ⟨_, List.mem_append_right _ (List.mem_map_of_mem hbinding), hname⟩
  rw [typeNames_classes] at hclass
  cases decl with
  | cls cls =>
      have hmem : cls ∈ space.classes := by simpa [Namespace.declarations] using hdecl
      cases htype
      exact hclass (List.mem_append_left _ (List.mem_map.2 ⟨cls, hmem, rfl⟩))
  | interface interface =>
      have hmem : interface ∈ space.interfaces := by simpa [Namespace.declarations] using hdecl
      cases htype
      exact hclass (List.mem_append_right _ (List.mem_map.2 ⟨interface, hmem, rfl⟩))
  | record record =>
      have hmem : record ∈ space.records := by simpa [Namespace.declarations] using hdecl
      exact hrecord record (List.mem_append_left _ hmem) (Option.some.inj htype)
  | union record =>
      have hmem : record ∈ space.unions := by simpa [Namespace.declarations] using hdecl
      exact hrecord record (List.mem_append_right _ hmem) (Option.some.inj htype)
  | enum | flags | callback => cases htype

end Compiler

namespace Bridge

variable {env : Env H} {bridge bridge' after : Bridge H} {name qualified : String}
  {space : NamespaceBinding}

/-! ## The classes of registered namespaces -/

/-- The classes of every registered namespace are known. -/
def Stocked (bridge : Bridge H) : Prop :=
  ∀ entry ∈ bridge.namespaces, ∀ native ∈ entry.2.nativeClasses, bridge.Knows native

theorem stocked_start (host : H.State) : (start host : Bridge H).Stocked :=
  fun _ h => absurd h List.not_mem_nil

theorem Stocked.mono (h : bridge.Stocked)
    (hnatives : bridge.registry.classes.classes <+: bridge'.registry.classes.classes)
    (hnamespaces : bridge'.namespaces = bridge.namespaces) : bridge'.Stocked :=
  fun entry hentry native hnative =>
    (h entry (hnamespaces ▸ hentry) native hnative).mono hnatives

theorem Change.prefix_classes (h : Change env bridge bridge') :
    bridge.registry.classes.classes <+: bridge'.registry.classes.classes := by
  cases h with
  | heap | register | retain => exact List.prefix_refl _
  | registerClass h =>
      obtain ⟨classes, hclasses, rfl⟩ := Registry.of_registerClass_eq_ok h
      rw [(ClassTable.of_register_eq_ok hclasses).2]
      exact List.prefix_append _ _
  | wrap => exact (Registry.classes_wrap ..).symm ▸ List.prefix_refl _
  | drop => exact (Registry.classes_drop ..).symm ▸ List.prefix_refl _
  | other _ hregistry _ => exact hregistry ▸ List.prefix_refl _

/-- When the types of a namespace are registered it comes in behind the classes of all of them, or
not at all. -/
theorem upholds_registerTypes (hcompiled : env.compiler.namespace? name = .ok space) :
    Upholds Stocked (fun error => error.missesClass = false) (registerTypes env space) := by
  intro bridge hstocked
  have hextends := Extends.of_run ((registers_extends env).enrols.within_registerTypes hcompiled
    bridge)
  cases hresult : registerTypes env space bridge with
  | error error after =>
      rw [hresult] at hextends
      obtain ⟨_, hkept, rfl, _⟩ := registerTypes_again hresult
      exact ⟨hstocked.mono hextends.natives hkept, rfl⟩
  | ok _ after =>
      obtain ⟨_, middle, hclasses, hrest⟩ := of_bind_eq_ok hresult
      obtain ⟨_, last, hrecords, hpublish⟩ := of_bind_eq_ok hrest
      obtain ⟨hknows, _, hkept, hnatives⟩ := of_enterClasses_eq_ok hclasses
      obtain ⟨hrecordsKnown, _, hsame, hmore⟩ := of_registerRecords_eq_ok hrecords
      have hbefore : last.Stocked := hstocked.mono (hnatives.trans hmore) (hsame.trans hkept)
      cases hpublish
      intro entry hentry native hnative
      rcases List.mem_append.1 hentry with hold | hnew
      · exact (hbefore entry hold native hnative).mono (List.prefix_refl _)
      · obtain rfl := List.mem_singleton.1 hnew
        rcases List.mem_append.1 hnative with hmem | hmem
        · obtain ⟨cls, hcls, rfl⟩ := List.mem_map.1 hmem
          exact (hknows cls hcls).mono hmore
        · obtain ⟨record, hrecord, rfl⟩ := List.mem_map.1 hmem
          exact (hrecordsKnown record hrecord).mono (List.prefix_refl _)

/-- By induction on how deep dependencies are followed. -/
theorem upholds_registerWithin (env : Env H) (depth : Nat) (name : String) :
    Upholds Stocked (fun error => error.missesClass = false) (registerWithin env depth name) := by
  induction depth generalizing name with
  | zero => exact upholds_throw rfl
  | succ depth ih =>
      refine upholds_get.bind fun bridge => ?_
      cases bridge.namespace? name with
      | some space => exact upholds_pure space
      | none =>
          cases hcompiled : env.compiler.namespace? name with
          | error error =>
              simp only
              exact upholds_throw rfl
          | ok space =>
              simp only
              refine (upholds_registerTypes hcompiled).bind fun _ => ?_
              refine Upholds.bind (Upholds.forM (fun name => ?_) _) fun _ => upholds_pure space
              exact (ih name).bind fun _ => upholds_pure _

/-! ## States in which namespaces were registered -/

/-- What can happen to a bridge at once if namespaces are only entered by registering them. -/
inductive Advance (env : Env H) : Bridge H → Bridge H → Prop
  | change {bridge bridge' : Bridge H} (h : Change env bridge bridge')
      (hnamespaces : bridge'.namespaces = bridge.namespaces) : Advance env bridge bridge'
  | register (bridge : Bridge H) (name : String) :
      Advance env bridge (ending (registerNamespace env name bridge))

/-- A state of a program that enters namespaces only by registering them. -/
def Arises (env : Env H) (bridge : Bridge H) : Prop :=
  ∃ host, ReflTransGen (Advance env) (start host) bridge

theorem arises_start (env : Env H) (host : H.State) : Arises env (start host : Bridge H) :=
  ⟨host, .refl⟩

theorem Arises.trans (h : Arises env bridge) (hrun : ReflTransGen (Advance env) bridge bridge') :
    Arises env bridge' := by
  obtain ⟨host, hstart⟩ := h
  exact ⟨host, hstart.trans hrun⟩

/-- Registering is itself a run of changes. -/
theorem Advance.changes (h : Advance env bridge bridge') :
    ReflTransGen (Change env) bridge bridge' := by
  cases h with
  | change h => exact .single h
  | register name => exact (permits_change env).enrols.within_registerWithin _ name bridge

theorem changes_of_run (h : ReflTransGen (Advance env) bridge bridge') :
    ReflTransGen (Change env) bridge bridge' := by
  induction h with
  | refl => exact .refl
  | tail _ hstep ih => exact ih.trans hstep.changes

theorem Arises.attained (h : Arises env bridge) : Attained env bridge := by
  obtain ⟨host, hrun⟩ := h
  exact ⟨host, changes_of_run hrun⟩

theorem Advance.stocked (h : Advance env bridge bridge') (hstocked : bridge.Stocked) :
    bridge'.Stocked := by
  cases h with
  | change h hnamespaces => exact hstocked.mono h.prefix_classes hnamespaces
  | register name => exact (upholds_registerWithin env _ name bridge hstocked).ending

theorem Arises.stocked (h : Arises env bridge) : bridge.Stocked := by
  obtain ⟨host, hrun⟩ := h
  induction hrun with
  | refl => exact stocked_start host
  | tail _ hstep ih => exact hstep.stocked ih

theorem Stocked.exists_get?_of_mem (hstocked : bridge.Stocked)
    (hcompiled : env.compiler.namespace? name = .ok space)
    (hspace : bridge.namespace? name = some space) {native : NativeClass}
    (hnative : native ∈ space.nativeClasses) :
    ∃ cls, bridge.registry.classes.get? native.typeName = some cls := by
  have hknown := (hstocked _ (Lists.mem_of_lookup hspace) native hnative).known
  rw [(of_mem_nativeClasses hcompiled hnative).1] at hknown
  exact Option.isSome_iff_exists.1 hknown

/-- Once its namespace is there, a type that can have instances can be wrapped as. -/
theorem Stocked.exists_get? (hnames : (repo env).WellNamed) (hstocked : bridge.Stocked)
    (hqualified : (repo env).HasInstances qualified)
    (hname : (splitQualified qualified).1 = some name)
    (hcompiled : env.compiler.namespace? name = .ok space)
    (hspace : bridge.namespace? name = some space) :
    ∃ cls, bridge.registry.classes.get? (schemaTypeName (repo env) qualified) = some cls := by
  obtain ⟨⟨source, decl⟩, hresolve, hmembers⟩ := hqualified
  obtain rfl := hnames.space_eq hname hresolve
  obtain ⟨hsource, hdecl, rfl⟩ := Repository.of_resolveQualified?_eq_some hresolve
  obtain ⟨typeName, htype⟩ := Declaration.exists_typeName? hmembers (source.qualify decl.name)
  obtain ⟨found, hfound, _, rfl⟩ := Compiler.of_namespace?_eq_ok hcompiled
  have hsame : (repo env).space? source.name = some source := find?_of_mem hnames.spaces hsource
  obtain rfl : found = source := Option.some.inj (hfound.symm.trans hsame)
  obtain ⟨native, hnative, hnamed⟩ :=
    Compiler.exists_nativeClass hnames.distinct hsource hdecl htype
  rw [hnames.distinct.schemaTypeName_eq hsource hdecl htype, ← hnamed]
  exact hstocked.exists_get?_of_mem hcompiled hspace hnative

end Bridge

end Interop
