import Interop.Proofs.Bridge.Permits
import Interop.Proofs.Registry.Nearest
import Interop.Proofs.Registry.Wrappers

/-! # Namespaces when they are needed

The namespace of a qualified name is what the compiler makes of it, whether it was registered before
or is registered now, and afterwards it is registered.
-/

namespace Interop

open Schema Relation Steps

variable {H : Host}

namespace Bridge

variable {env : Env H} {R : Bridge H → Bridge H → Prop} {bridge bridge' : Bridge H} {name : String}
  {space : NamespaceBinding}

/-- What becomes of a class that is to be registered: it is new, it or one with its hash is there
already, or it has no name and is refused. -/
inductive NativeCase (native : NativeClass) (bridge : Bridge H) :
    EStateM.Result BindError (Bridge H) Unit → Prop
  | new (hnamed : native.typeName.isEmpty = false)
      (hnew : bridge.registry.classes.findHash? native.hash = none) :
      NativeCase native bridge (.ok () { bridge with registry := { bridge.registry with
        classes := ⟨bridge.registry.classes.classes ++ [native]⟩ } })
  | known (hnamed : native.typeName.isEmpty = false)
      (hknown : (bridge.registry.classes.findHash? native.hash).isSome = true) :
      NativeCase native bridge (.ok () bridge)
  | unnamed (hunnamed : native.typeName.isEmpty = true) :
      NativeCase native bridge (.error (.registration .emptyTypeName) bridge)

theorem registerNative_cases (native : NativeClass) (bridge : Bridge H) :
    NativeCase native bridge (registerNative native bridge) := by
  unfold registerNative
  rw [get_bind, Registry.registerClass, ClassTable.register]
  cases hnamed : native.typeName.isEmpty with
  | true => exact .unnamed hnamed
  | false =>
      cases hfound : bridge.registry.classes.findHash? native.hash with
      | none => exact .new hnamed hfound
      | some found => exact .known hnamed (Option.isSome_iff_exists.2 ⟨found, hfound⟩)

/-- A class enters the table of classes and the hierarchy. -/
def enterClass (env : Env H) (library : String) (cls : ClassBinding) : Run H Unit := do
  registerNative (cls.nativeClass library)
  modify fun bridge => { bridge with hierarchy := linkClass (repo env) cls bridge.hierarchy }

theorem registerWithin_succ (env : Env H) (depth : Nat) (name : String) (bridge : Bridge H) :
    registerWithin env (depth + 1) name bridge =
      match bridge.namespace? name, env.compiler.namespace? name with
      | some space, _ => .ok space bridge
      | none, .error error => .error (.mapping error) bridge
      | none, .ok space => (do
          registerTypes env space
          (dependencies space).forM fun name => discard (registerWithin env depth name)
          return space : Run H NamespaceBinding) bridge := by
  rw [registerWithin, get_bind]
  cases bridge.namespace? name with
  | some space => rfl
  | none => cases env.compiler.namespace? name <;> rfl

/-- A namespace is there already, or its types are registered and after it the namespaces that it
depends on. -/
theorem of_registerWithin_succ_eq_ok {depth : Nat}
    (h : registerWithin env (depth + 1) name bridge = .ok space bridge') :
    (bridge.namespace? name = some space ∧ bridge' = bridge) ∨
      bridge.namespace? name = none ∧ env.compiler.namespace? name = .ok space ∧
        ∃ middle, registerTypes env space bridge = .ok ⟨⟩ middle ∧
          ((dependencies space).forM fun name => discard (registerWithin env depth name)) middle =
            .ok ⟨⟩ bridge' := by
  rw [registerWithin_succ] at h
  cases hfound : bridge.namespace? name with
  | some found =>
      rw [hfound] at h
      cases h
      exact .inl ⟨rfl, rfl⟩
  | none =>
      cases hcompiled : env.compiler.namespace? name with
      | error error =>
          rw [hfound, hcompiled] at h
          cases h
      | ok compiled =>
          rw [hfound, hcompiled] at h
          obtain ⟨_, middle, htypes, h⟩ := of_bind_eq_ok h
          obtain ⟨_, last, hothers, h⟩ := of_bind_eq_ok h
          cases h
          exact .inr ⟨rfl, rfl, middle, htypes, hothers⟩

theorem mem_nativeClasses {cls : ClassBinding} (h : cls ∈ space.classes) :
    cls.nativeClass space.library ∈ space.nativeClasses :=
  List.mem_append_left _ (List.mem_map_of_mem h)

namespace Enlists

variable (h : Enlists env R)
include h

theorem within_registerNative {cls : NativeClass}
    (hcompiled : env.compiler.namespace? name = .ok space) (hcls : cls ∈ space.nativeClasses) :
    Within R (registerNative cls : Run H Unit) := by
  intro bridge
  unfold registerNative
  rw [get_bind]
  cases hregister : bridge.registry.registerClass cls with
  | ok registry => exact .single (h.registerClass hcompiled hcls hregister)
  | error error => cases error <;> exact .refl

theorem within_enterClass (hcompiled : env.compiler.namespace? name = .ok space)
    {cls : ClassBinding} (hcls : cls ∈ space.classes) :
    Within R (enterClass env space.library cls) :=
  (h.within_registerNative hcompiled (mem_nativeClasses hcls)).bind fun _ =>
    within_modify fun _ => .single (h.link hcompiled hcls)

theorem within_enterClasses (hcompiled : env.compiler.namespace? name = .ok space) :
    Within R (space.classes.forM (enterClass env space.library)) :=
  Within.forM_of_mem fun _ hcls => h.within_enterClass hcompiled hcls

theorem within_registerRecords (hcompiled : env.compiler.namespace? name = .ok space) :
    Within R
      (space.records.forM fun record => registerNative (record.nativeClass space.library) :
        Run H Unit) := by
  refine Within.forM_of_mem fun record hrecord => h.within_registerNative hcompiled ?_
  exact List.mem_append_right _ (List.mem_map_of_mem hrecord)

end Enlists

namespace Enrols

variable (h : Enrols env R)
include h

theorem within_registerTypes (hcompiled : env.compiler.namespace? name = .ok space) :
    Within R (registerTypes env space) :=
  (h.within_enterClasses hcompiled).bind fun _ => (h.within_registerRecords hcompiled).bind
    fun _ => within_modify fun _ => .single (h.register hcompiled)

/-- Registering is done by induction on how deep dependencies are followed. -/
theorem within_registerWithin (depth : Nat) (name : String) :
    Within R (registerWithin env depth name) := by
  induction depth generalizing name with
  | zero => exact within_throw _
  | succ depth ih =>
      refine within_get.bind fun bridge => ?_
      cases bridge.namespace? name with
      | some space => exact within_pure space
      | none =>
          cases hcompiled : env.compiler.namespace? name with
          | error error =>
              simp only
              exact within_throw _
          | ok space =>
              simp only
              refine (h.within_registerTypes hcompiled).bind fun _ => ?_
              refine Within.bind (Within.forM (fun name => ?_) _) fun _ => within_pure space
              exact (ih name).bind fun _ => within_pure _

theorem within_dependencies (depth : Nat) (names : List String) :
    Within R (names.forM fun name => discard (registerWithin env depth name)) :=
  Within.forM (fun name => (h.within_registerWithin depth name).bind fun _ => within_pure _) names

theorem within_namespaceOf (qualified : String) : Within R (namespaceOf env qualified) := by
  unfold namespaceOf
  split
  next => exact h.within_registerWithin _ _
  next => exact within_throw _

end Enrols

theorem within_namespaceOf (qualified : String) :
    Within (Step env) (namespaceOf env qualified) :=
  (permits_step env).enrols.within_namespaceOf qualified

/-- A namespace is found under its name once it has been added: if there was one of that name, it
has been compiled from the same declarations. -/
theorem Valid.namespace?_register (hvalid : bridge.Valid env)
    (h : env.compiler.namespace? name = .ok space) :
    { bridge with namespaces := bridge.namespaces ++ [(space.name, space)] }.namespace? name =
      some space := by
  obtain rfl := Compiler.name_of_namespace?_eq_ok h
  rw [namespace?, List.lookup_append]
  cases hfound : bridge.namespaces.lookup space.name with
  | none => rw [Option.none_or, List.lookup_cons_self]
  | some other =>
      have hsame := hvalid.namespace?_eq hfound
      rw [h] at hsame
      cases hsame
      rfl

theorem namespace?_of_registerTypes (hvalid : bridge.Valid env)
    (hcompiled : env.compiler.namespace? name = .ok space) {u : Unit}
    (h : registerTypes env space bridge = .ok u bridge') :
    bridge'.namespace? name = some space := by
  obtain ⟨_, middle, hclasses, h⟩ := of_bind_eq_ok h
  obtain ⟨_, last, hrecords, h⟩ := of_bind_eq_ok h
  have hmiddle : Evolves env bridge middle :=
    ((permits_step env).within_enterClasses hcompiled).of_eq_ok hclasses
  have hlast : Evolves env middle last :=
    ((permits_step env).within_registerRecords hcompiled).of_eq_ok hrecords
  cases h
  exact (Evolves.valid (hmiddle.trans hlast) hvalid).namespace?_register hcompiled

/-- The namespace of a name is the one that is compiled for it, and it is registered afterwards. -/
theorem of_registerWithin_eq_ok {depth : Nat} (hvalid : bridge.Valid env)
    (h : registerWithin env depth name bridge = .ok space bridge') :
    env.compiler.namespace? name = .ok space ∧ bridge'.namespace? name = some space := by
  cases depth with
  | zero => cases h
  | succ depth =>
      rcases of_registerWithin_succ_eq_ok h with
        ⟨hfound, rfl⟩ | ⟨_, hcompiled, middle, htypes, hothers⟩
      · exact ⟨hvalid.namespace?_eq hfound, hfound⟩
      · -- it is registered before its dependencies, and stays what it is
        have hregistered := namespace?_of_registerTypes hvalid hcompiled htypes
        have hevolves := ((permits_step env).enrols.within_dependencies depth
          (dependencies space)).of_eq_ok hothers
        exact ⟨hcompiled, Evolves.namespace?_eq hevolves hregistered⟩

theorem of_namespaceOf_eq_ok {qualified : String} (hvalid : bridge.Valid env)
    (h : namespaceOf env qualified bridge = .ok space bridge') :
    ∃ name, (splitQualified qualified).1 = some name ∧
      env.compiler.namespace? name = .ok space ∧ bridge'.namespace? name = some space := by
  unfold namespaceOf at h
  cases hname : (splitQualified qualified).1 with
  | none =>
      rw [hname] at h
      cases h
  | some name =>
      rw [hname] at h
      exact ⟨name, rfl, of_registerWithin_eq_ok hvalid h⟩

/-- Nothing happens if the namespace is registered. -/
theorem namespaceOf_eq_ok {qualified : String}
    (hname : (splitQualified qualified).1 = some name)
    (h : bridge.namespace? name = some space) :
    namespaceOf env qualified bridge = .ok space bridge := by
  unfold namespaceOf
  rw [hname]
  simp only [registerNamespace, registerWithin, get_bind, h]
  rfl

end Bridge

end Interop
