import Interop.Bridge.Fields
import Interop.Proofs.Bindings.Compiled
import Interop.Proofs.Memory.Evolution

/-! # How bridges change

Whatever the two sides of a program do, the native heap changes by the operations of heaps, and a
namespace that is registered is what the compiler makes of it and stays registered. The functions
of the host cannot do anything else either: a host is lawful if entering them is a run of such
changes.
-/

namespace Interop

open Schema Relation Steps

variable {H : Host}

namespace Bridge

/-- What can happen to a bridge at once. Nothing is said about what is neither heap nor
namespaces. -/
inductive Step (env : Env H) : Bridge H → Bridge H → Prop
  | heap {bridge : Bridge H} {heap : Heap} (h : bridge.heap.Step heap) :
      Step env bridge { bridge with heap }
  | register {bridge : Bridge H} {name : String} {space : NamespaceBinding}
      (h : env.compiler.namespace? name = .ok space) :
      Step env bridge
        { bridge with namespaces := bridge.namespaces ++ [(space.name, space)] }
  | other {bridge bridge' : Bridge H} (hheap : bridge'.heap = bridge.heap)
      (hnamespaces : bridge'.namespaces = bridge.namespaces) : Step env bridge bridge'

/-- One state of the bridge comes after another. -/
abbrev Evolves (env : Env H) : Bridge H → Bridge H → Prop := ReflTransGen (Step env)

/-- A state of a program that started with an empty heap. -/
def Reachable (env : Env H) (bridge : Bridge H) : Prop :=
  ∃ host, Evolves env (start host) bridge

/-- There are no overlapping blocks, and every registered namespace has been compiled. -/
structure Valid (env : Env H) (bridge : Bridge H) : Prop where
  sound : bridge.heap.Sound
  compiled : ∀ entry ∈ bridge.namespaces, env.compiler.namespace? entry.1 = .ok entry.2

variable {env : Env H} {bridge bridge' : Bridge H}

theorem valid_start (env : Env H) (host : H.State) : (start host : Bridge H).Valid env :=
  ⟨Heap.sound_empty, fun _ h => absurd h List.not_mem_nil⟩

theorem Step.valid (h : Step env bridge bridge') (hvalid : bridge.Valid env) :
    bridge'.Valid env := by
  cases h with
  | heap h => exact ⟨h.sound hvalid.sound, hvalid.compiled⟩
  | @register name space h =>
      refine ⟨hvalid.sound, fun entry hentry => ?_⟩
      rcases List.mem_append.1 hentry with hold | hnew
      · exact hvalid.compiled entry hold
      -- a namespace is entered under the name it was compiled for
      · obtain rfl := List.mem_singleton.1 hnew
        rw [Compiler.name_of_namespace?_eq_ok h]
        exact h
  | other hheap hnamespaces =>
      refine ⟨hheap ▸ hvalid.sound, ?_⟩
      rw [hnamespaces]
      exact hvalid.compiled

theorem Evolves.valid (h : Evolves env bridge bridge') (hvalid : bridge.Valid env) :
    bridge'.Valid env := by
  induction h with
  | refl => exact hvalid
  | tail _ hstep ih => exact hstep.valid ih

/-- Every state of a program is valid. -/
theorem Reachable.valid (h : Reachable env bridge) : bridge.Valid env := by
  obtain ⟨host, hevolves⟩ := h
  exact hevolves.valid (valid_start env host)

theorem Step.next_le (h : Step env bridge bridge') : bridge.heap.next ≤ bridge'.heap.next := by
  cases h with
  | heap h => exact h.next_le
  | register h => exact Nat.le_refl _
  | other hheap _ => exact Nat.le_of_eq (congrArg Heap.next hheap).symm

theorem Evolves.next_le (h : Evolves env bridge bridge') :
    bridge.heap.next ≤ bridge'.heap.next := by
  induction h with
  | refl => exact Nat.le_refl _
  | tail _ hstep ih => exact Nat.le_trans ih hstep.next_le

theorem Step.namespace?_eq {name : String} {space : NamespaceBinding}
    (h : Step env bridge bridge') (hfound : bridge.namespace? name = some space) :
    bridge'.namespace? name = some space := by
  cases h with
  | heap h => exact hfound
  | register h =>
      rw [namespace?, List.lookup_append]
      exact Option.or_eq_some_iff.2 (.inl hfound)
  | other _ hnamespaces => rwa [namespace?, hnamespaces]

/-- A registered namespace stays what it is. -/
theorem Evolves.namespace?_eq {name : String} {space : NamespaceBinding}
    (h : Evolves env bridge bridge') (hfound : bridge.namespace? name = some space) :
    bridge'.namespace? name = some space := by
  induction h with
  | refl => exact hfound
  | tail _ hstep ih => exact hstep.namespace?_eq ih

theorem Valid.namespace?_eq {name : String} {space : NamespaceBinding}
    (hvalid : bridge.Valid env) (hfound : bridge.namespace? name = some space) :
    env.compiler.namespace? name = .ok space :=
  hvalid.compiled _ (Lists.mem_of_lookup hfound)

end Bridge

/-- The functions of the host change the bridge only as anything does. -/
structure Env.Lawful (env : Env H) : Prop where
  native (fn : H.Native) (call : NativeCall) : Within (Bridge.Step env) (env.native fn call)
  effect (fn : H.Native) (call : NativeCall) : Within (Bridge.Step env) (env.effect fn call)
  managed (fn : H.Managed) (captured args : List Value) (bridge : Bridge H) :
    Bridge.Evolves env bridge (env.managed fn captured args bridge).2

namespace Bridge

/-! ## A host without functions -/

/-- A host without functions. -/
def silent : Host := ⟨Empty, Empty, Unit⟩

/-- What a program is that has no functions but those of the core library. -/
def silentEnv (repo : Repository) : Env silent where
  compiler := .ofRepository repo {}
  native := nofun
  effect := nofun
  managed := nofun

theorem lawful_silentEnv (repo : Repository) : (silentEnv repo).Lawful := ⟨nofun, nofun, nofun⟩

end Bridge

end Interop
