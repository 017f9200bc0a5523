import Interop.Proofs.Bridge.Retry

/-! # How deep dependencies are followed

The bound on how deep dependencies are followed is never met: each step down finds one more
namespace of the repository registered. So registering a namespace registers those that it depends
on in the same way, whatever its place among the dependencies of others.
-/

namespace Interop

open Schema Relation Steps

variable {H : Host}

namespace Bridge

variable {env : Env H} {bridge bridge' : Bridge H} {name : String} {space : NamespaceBinding}

/-- How many namespaces of the repository are not registered. -/
def unregistered (env : Env H) (bridge : Bridge H) : Nat :=
  ((repo env).spaces.filter fun space => (bridge.namespace? space.name).isNone).length

theorem unregistered_le (env : Env H) (bridge : Bridge H) :
    unregistered env bridge ≤ (repo env).spaces.length :=
  List.length_filter_le _ _

/-- What is not registered later has not been registered before. -/
theorem Extends.isNone_of_isNone (h : bridge.Extends bridge')
    (hnone : (bridge'.namespace? name).isNone = true) :
    (bridge.namespace? name).isNone = true := by
  cases hfound : bridge.namespace? name with
  | none => rfl
  | some space =>
      rw [h.namespace?_eq hfound] at hnone
      cases hnone

theorem Extends.unregistered_le (h : bridge.Extends bridge') :
    unregistered env bridge' ≤ unregistered env bridge :=
  Lists.length_filter_le fun _ _ => h.isNone_of_isNone

theorem Extends.unregistered_lt (h : bridge.Extends bridge')
    (hcompiled : env.compiler.namespace? name = .ok space)
    (hnone : bridge.namespace? name = none) (hsome : bridge'.namespace? name = some space) :
    unregistered env bridge' < unregistered env bridge := by
  obtain ⟨declared, hfind, hmem, _⟩ := Compiler.of_namespace?_eq_ok hcompiled
  have hname := List.find?_some hfind
  obtain rfl : declared.name = name := eq_of_beq hname
  refine Lists.length_filter_lt (fun _ _ => h.isNone_of_isNone) hmem ?_ ?_
  · rw [hnone]
    rfl
  · rw [hsome]
    rfl

theorem extends_of_registerWithin (env : Env H) (depth : Nat) (name : String)
    (bridge : Bridge H) : bridge.Extends (ending (registerWithin env depth name bridge)) :=
  .of_run ((registers_extends env).enrols.within_registerWithin depth name bridge)

/-- By induction on the names. More and more namespaces are registered on the way. -/
theorem dependencies_congr {depth other bound : Nat}
    (hsame : ∀ (name : String) (bridge : Bridge H), unregistered env bridge ≤ bound →
      registerWithin env depth name bridge = registerWithin env other name bridge)
    (names : List String) (hbound : unregistered env bridge ≤ bound) :
    (names.forM fun name => discard (registerWithin env depth name)) bridge =
      (names.forM fun name => discard (registerWithin env other name)) bridge := by
  induction names generalizing bridge with
  | nil => rfl
  | cons name rest ih =>
      change ((registerWithin env depth name >>= fun _ => pure PUnit.unit) >>= fun _ => _ :
        Run H PUnit) bridge =
          ((registerWithin env other name >>= fun _ => pure PUnit.unit) >>= fun _ => _) bridge
      refine bind_congr_of_eq (bind_congr_of_eq (hsame name bridge hbound) fun _ _ _ => rfl) ?_
      intro _ middle hmiddle
      obtain ⟨space, after, hregister, hdone⟩ := of_bind_eq_ok hmiddle
      cases hdone
      have hextends := extends_of_registerWithin env other name bridge
      rw [hregister] at hextends
      exact ih (Nat.le_trans hextends.unregistered_le hbound)

/-- The bound does not matter as long as there are fewer namespaces left to be registered. By
induction on how many there are. -/
theorem registerWithin_congr {depth other : Nat} (hdepth : unregistered env bridge < depth)
    (hother : unregistered env bridge < other) :
    registerWithin env depth name bridge = registerWithin env other name bridge := by
  induction hleft : unregistered env bridge using Nat.strongRecOn
    generalizing bridge name depth other with
  | ind left ih =>
      obtain ⟨depth, rfl⟩ := Nat.exists_eq_add_one_of_ne_zero (Nat.ne_zero_of_lt hdepth)
      obtain ⟨other, rfl⟩ := Nat.exists_eq_add_one_of_ne_zero (Nat.ne_zero_of_lt hother)
      rw [registerWithin_succ, registerWithin_succ]
      cases hfound : bridge.namespace? name with
      | some space => rfl
      | none =>
          cases hcompiled : env.compiler.namespace? name with
          | error failure => rfl
          | ok space =>
              refine bind_congr_of_eq rfl fun _ middle htypes => ?_
              refine bind_congr_of_eq ?_ fun _ _ _ => rfl
              have hextends := Extends.of_run
                ((registers_extends env).enrols.within_registerTypes hcompiled bridge)
              rw [htypes] at hextends
              have hless : unregistered env middle < unregistered env bridge :=
                hextends.unregistered_lt hcompiled hfound
                  (namespace?_of_registerTypes_of_none hcompiled hfound htypes)
              refine dependencies_congr (fun name later hlater => ?_) _ (Nat.le_refl _)
              exact ih _ (hleft ▸ Nat.lt_of_le_of_lt hlater hless) (by omega) (by omega) rfl

/-- Registering a namespace registers its types and then, in the same way, the namespaces that it
depends on. -/
theorem registerNamespace_eq (env : Env H) (name : String) (bridge : Bridge H) :
    registerNamespace env name bridge =
      match bridge.namespace? name, env.compiler.namespace? name with
      | some space, _ => .ok space bridge
      | none, .error error => .error (.mapping error) bridge
      | none, .ok space => (do
          registerTypes env space
          (dependencies space).forM fun name => discard (registerNamespace env name)
          return space : Run H NamespaceBinding) bridge := by
  have hbound := unregistered_le env bridge
  have hdeeper : registerNamespace env name bridge =
      registerWithin env ((repo env).spaces.length + 2) name bridge :=
    registerWithin_congr (by omega) (by omega)
  rw [hdeeper, registerWithin_succ]
  rfl

end Bridge

end Interop
