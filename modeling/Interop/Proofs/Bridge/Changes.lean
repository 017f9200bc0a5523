import Interop.Proofs.Bridge.Operations
import Interop.Proofs.Memory.Spaced
import Interop.Proofs.Registry.Filed

/-! # States of a program

The registry of a bridge changes by the operations of registries and by nothing else: classes are
registered, handles wrapped, and wrappers cloned and dropped.
-/

namespace Interop

open Schema Relation Steps

variable {H : Host}

namespace Bridge

/-- What can happen to a bridge at once, told also of its registry. -/
inductive Change (env : Env H) : Bridge H → Bridge H → Prop
  | heap {bridge : Bridge H} {heap : Heap} (h : bridge.heap.Step heap) :
      Change env bridge { bridge with heap }
  | register {bridge : Bridge H} {name : String} {space : NamespaceBinding}
      (h : env.compiler.namespace? name = .ok space) :
      Change env bridge { bridge with namespaces := bridge.namespaces ++ [(space.name, space)] }
  | registerClass {bridge : Bridge H} {cls : NativeClass} {registry : Registry}
      (h : bridge.registry.registerClass cls = .ok registry) :
      Change env bridge { bridge with registry }
  | wrap (bridge : Bridge H) (handle : Handle) (target : Option String) (ownership : Ownership) :
      Change env bridge { bridge with registry :=
        (bridge.registry.wrap bridge.introspection handle target ownership).2 }
  | retain (bridge : Bridge H) (id : WrapperId) :
      Change env bridge { bridge with registry := bridge.registry.retain id }
  | drop (bridge : Bridge H) (id : WrapperId) :
      Change env bridge { bridge with registry := (bridge.registry.drop id).2 }
  | other {bridge bridge' : Bridge H} (hheap : bridge'.heap = bridge.heap)
      (hregistry : bridge'.registry = bridge.registry)
      (hnamespaces : bridge'.namespaces = bridge.namespaces) : Change env bridge bridge'

theorem permits_change (env : Env H) : Permits env (Change env) :=
  { shares_of_indifferent fun _ _ _ => .other rfl rfl rfl with
    heap := fun h => .heap h.step
    register := fun h => .register h
    registerClass := fun _ _ h => .registerClass h
    link := fun _ _ => .other rfl rfl rfl
    wrap := .wrap
    retain := .retain
    drop := .drop
    other := fun h => .other h.heap h.registry h.namespaces }

theorem governs_change_silent (repo : Repository) :
    Governs (silentEnv repo) (Change (silentEnv repo)) :=
  { permits_change _ with native := nofun, effect := nofun, managed := nofun }

/-- A state of a program whose registry is only used as registries are. -/
def Attained (env : Env H) (bridge : Bridge H) : Prop :=
  ∃ host, ReflTransGen (Change env) (start host) bridge

variable {env : Env H} {bridge bridge' : Bridge H}

theorem attained_start (env : Env H) (host : H.State) : Attained env (start host : Bridge H) :=
  ⟨host, .refl⟩

theorem Attained.trans (h : Attained env bridge) (hrun : ReflTransGen (Change env) bridge bridge') :
    Attained env bridge' := by
  obtain ⟨host, hstart⟩ := h
  exact ⟨host, hstart.trans hrun⟩

theorem Change.step (h : Change env bridge bridge') : Step env bridge bridge' := by
  cases h with
  | heap h => exact .heap h
  | register h => exact .register h
  | registerClass | wrap | retain | drop => exact .other rfl rfl
  | other hheap _ hnamespaces => exact .other hheap hnamespaces

theorem Attained.reachable (h : Attained env bridge) : Reachable env bridge := by
  obtain ⟨host, hrun⟩ := h
  exact ⟨host, ReflTransGen.mono (fun _ _ => Change.step) _ _ hrun⟩

theorem Change.filed (h : Change env bridge bridge') (hfiled : bridge.registry.Filed) :
    bridge'.registry.Filed := by
  cases h with
  | heap h => exact hfiled
  | register h => exact hfiled
  | registerClass h => exact hfiled.registerClass h
  | wrap handle target ownership => exact hfiled.wrap _ handle target ownership
  | retain id => exact hfiled.modifyWrapper id fun _ => rfl
  | drop id => exact hfiled.drop id
  | other _ hregistry _ => exact hregistry ▸ hfiled

/-- In every state of a program entries lead to wrappers of their handles. -/
theorem Attained.filed (h : Attained env bridge) : bridge.registry.Filed := by
  obtain ⟨host, hrun⟩ := h
  induction hrun with
  | refl => exact Registry.filed_empty
  | tail _ hchange ih => exact hchange.filed ih

theorem Change.get?_eq {typeName : String} {cls : NativeClass} (h : Change env bridge bridge')
    (hcls : bridge.registry.classes.get? typeName = some cls) :
    bridge'.registry.classes.get? typeName = some cls := by
  cases h with
  | heap | register | retain => exact hcls
  | registerClass h => exact Registry.get?_of_registerClass_eq_ok h hcls
  | wrap => rwa [Registry.classes_wrap]
  | drop => rwa [Registry.classes_drop]
  | other _ hregistry _ => rwa [hregistry]

/-- A class that is registered is found in every later state. -/
theorem get?_of_run {typeName : String} {cls : NativeClass}
    (h : ReflTransGen (Change env) bridge bridge')
    (hcls : bridge.registry.classes.get? typeName = some cls) :
    bridge'.registry.classes.get? typeName = some cls := by
  induction h with
  | refl => exact hcls
  | tail _ hchange ih => exact hchange.get?_eq ih

theorem Change.heap_run (h : Change env bridge bridge') :
    ReflTransGen Heap.Step bridge.heap bridge'.heap := by
  cases h with
  | heap h => exact .single h
  | other hheap _ _ => rw [hheap]
  | _ => exact .refl

theorem heap_of_changes (h : ReflTransGen (Change env) bridge bridge') :
    ReflTransGen Heap.Step bridge.heap bridge'.heap := by
  induction h with
  | refl => exact .refl
  | tail _ hchange ih => exact ih.trans hchange.heap_run

/-- In every state of a program the blocks lie apart. -/
theorem Attained.spaced (h : Attained env bridge) : bridge.heap.Spaced := by
  obtain ⟨host, hrun⟩ := h
  exact Heap.spaced_of_reflTransGen (heap_of_changes hrun) Heap.spaced_empty

end Bridge

end Interop
