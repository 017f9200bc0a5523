import Interop.Proofs.Bridge.Calls
import Interop.Proofs.Registry.Nearest

/-! # What a type descends from

The parent of a type is told by the runtime, and where the runtime knows none by the schema. Each of
the two may contradict the other, and a circle may need entries of both. The question whether a type
descends from another is answered by a walk from parent to parent that gives up at the first name it
has seen before. Nothing is lost by that: whatever steps to the parent lead to is seen before a
name comes back.
-/

namespace Interop

open Relation Steps

variable {H : Host}

namespace Bridge

variable {bridge bridge' : Bridge H} {name ancestor : String}

/-- The parent that the runtime knows of a type, or else the one that the schema declares. -/
def parent? (bridge : Bridge H) (name : String) : Option String :=
  (bridge.runtimeParent? name).or (bridge.hierarchy.parent? name)

/-- Steps to the parent lead from the first type to the second, or they are the same. -/
def Descends (bridge : Bridge H) : String → String → Prop :=
  ReflTransGen fun child parent => bridge.parent? child = some parent

/-- So many rounds of a walk to the ancestor that is looked for, or none if they are too few. The
names that were seen before are passed along. -/
def walk (bridge : Bridge H) (ancestor : String) :
    Nat → List String → String → Option Bool
  | 0, _, _ => none
  | rounds + 1, seen, name =>
      if name == ancestor then some true
      else if seen.contains name then some false
      else match bridge.parent? name with
        | none => some false
        | some parent => bridge.walk ancestor rounds (name :: seen) parent

/-! ## The runtime's types -/

/-- A runtime type is defined, in place of any earlier one of its name, or types stay as they are. -/
inductive Retypes : Bridge H → Bridge H → Prop
  | define (bridge : Bridge H) (name : String) (parent : Option String) :
      Retypes bridge (bridge.defineType name parent)
  | other {bridge bridge' : Bridge H} (h : bridge'.types = bridge.types) : Retypes bridge bridge'

/-- The bridge itself defines no types. -/
theorem permits_retypes (env : Env H) : Permits env (Retypes : Bridge H → Bridge H → Prop) where
  registerClass _ _ _ := .other rfl
  link _ _ := .other rfl
  register _ := .other rfl
  other h := .other h.types
  toShares := shares_of_indifferent fun _ _ _ => .other rfl
  heap _ := .other rfl
  wrap _ _ _ _ := .other rfl
  retain _ _ := .other rfl
  drop _ _ := .other rfl

theorem Retypes.nodup (h : Retypes bridge bridge') (hnodup : (bridge.types.map Prod.fst).Nodup) :
    (bridge'.types.map Prod.fst).Nodup := by
  cases h with
  | define name parent =>
      refine List.nodup_cons.2 ⟨?_, hnodup.sublist (List.filter_sublist.map _)⟩
      simp
  | other h => rwa [h]

/-- In every state of a program a runtime type is defined once. -/
theorem nodup_types {host : H.State} (h : ReflTransGen Retypes (start host) bridge) :
    (bridge.types.map Prod.fst).Nodup := by
  induction h with
  | refl => exact .nil
  | tail _ hstep ih => exact hstep.nodup ih

/-- If each name has one entry, leaving out those without a value loses nothing. -/
theorem lookup_filterMap_eq_join {entries : List (String × Option String)}
    (h : (entries.map Prod.fst).Nodup) :
    (entries.filterMap fun entry => entry.2.map (entry.1, ·)).lookup name =
      (entries.lookup name).join := by
  induction entries with
  | nil => rfl
  | cons entry rest ih =>
      obtain ⟨key, value?⟩ := entry
      obtain ⟨hnew, hrest⟩ := List.nodup_cons.1 (List.map_cons ▸ h)
      by_cases hkey : name = key
      · subst hkey
        rw [List.lookup_cons_self]
        cases value? with
        | some value => exact List.lookup_cons_self
        | none =>
            have hgone : rest.lookup name = none := by
              refine List.lookup_eq_none_iff.2 fun entry hentry => ?_
              have hother : name ≠ entry.1 := fun hsame =>
                hnew (List.mem_map.2 ⟨entry, hentry, hsame.symm⟩)
              simpa using hother
            refine (ih hrest).trans ?_
            rw [hgone]
            rfl
      · have hkey' : (name == key) = false := beq_false_of_ne hkey
        rw [List.lookup_cons, hkey']
        cases value? with
        | none => exact ih hrest
        | some value =>
            refine Eq.trans ?_ (ih hrest)
            simp only [List.filterMap_cons, Option.map_some, List.lookup_cons, hkey']

theorem lookup_parents (h : (bridge.types.map Prod.fst).Nodup) (name : String) :
    bridge.parents.lookup name = bridge.parent? name := by
  rw [parents, List.lookup_append, lookup_filterMap_eq_join h]
  rfl

theorem length_parents_le (bridge : Bridge H) :
    bridge.parents.length ≤ bridge.types.length + bridge.hierarchy.parents.length := by
  rw [parents, List.length_append]
  exact Nat.add_le_add_right (List.length_filterMap_le _ _) _

theorem isA_iff_mem : bridge.isA name ancestor = true ↔ ancestor ∈ bridge.parents.chain name :=
  List.contains_iff_mem

theorem isA_iff (h : (bridge.types.map Prod.fst).Nodup) :
    bridge.isA name ancestor = true ↔ bridge.Descends name ancestor := by
  rw [isA_iff_mem, (bridge.parents.isChain_chain name).mem_iff, Descends]
  simp only [lookup_parents h]

/-- A walk that goes on for longer than what is left of the chain ends, and has found the ancestor
if the chain has it. By induction over the rest of the chain. -/
theorem walk_eq (h : (bridge.types.map Prod.fst).Nodup) (seen : List String) (name : String)
    (hunseen : ancestor ∉ seen) {rounds : Nat}
    (hrounds : (bridge.parents.chainFrom seen name).length < rounds) :
    bridge.walk ancestor rounds seen name =
      some ((bridge.parents.chainFrom seen name).contains ancestor) := by
  induction seen, name using ParentTable.chainFrom.induct bridge.parents generalizing rounds with
  | case1 seen name hseen =>
      rw [ParentTable.chainFrom, dif_pos hseen] at hrounds ⊢
      obtain ⟨rounds, rfl⟩ := Nat.exists_eq_succ_of_ne_zero (Nat.ne_of_gt hrounds)
      have hother : name ≠ ancestor := fun hsame =>
        hunseen (hsame ▸ List.contains_iff_mem.1 hseen)
      rw [walk, if_neg (by simpa using hother), if_pos hseen]
      rfl
  | case2 seen name hseen ih =>
      rw [ParentTable.chainFrom, dif_neg hseen] at hrounds ⊢
      obtain ⟨rounds, rfl⟩ := Nat.exists_eq_succ_of_ne_zero (Nat.ne_of_gt (Nat.zero_lt_of_lt hrounds))
      by_cases hfound : name = ancestor
      · rw [walk, if_pos (by simpa using hfound), hfound, List.contains_cons, BEq.rfl, Bool.true_or]
      · have hbehind : ancestor ∉ name :: seen :=
          List.not_mem_cons_of_ne_of_not_mem (Ne.symm hfound) hunseen
        rw [walk, if_neg (by simpa using hfound), if_neg hseen, ← lookup_parents h,
          List.contains_cons, beq_false_of_ne (Ne.symm hfound), Bool.false_or]
        split
        next hparent => rw [hparent]; rfl
        next parent hparent =>
            rw [hparent] at hrounds ⊢
            exact ih parent hparent hbehind (Nat.lt_of_succ_lt_succ hrounds)

/-- Whatever users do between definitions of types, the types are as after such definitions only. -/
theorem retypes_commands {env : Env H} (h : Governs env Retypes) {host : H.State}
    (hreached : ReflTransGen Retypes (start host) bridge) (commands : List (Command H)) :
    ReflTransGen Retypes (start host) (commands.foldl (Command.perform env) bridge) :=
  hreached.trans (h.commands commands bridge)

/-- If the functions of the host define types one by one, whatever users do, a type is another one
just if steps to the parent lead there. -/
theorem isA_commands_iff {env : Env H}
    (hnative : ∀ fn call, Within Retypes (env.native fn call))
    (heffect : ∀ fn call, Within Retypes (env.effect fn call))
    (hmanaged : ∀ fn captured args bridge,
      ReflTransGen Retypes bridge (env.managed fn captured args bridge).2) {host : H.State}
    (hreached : ReflTransGen Retypes (start host) bridge) (commands : List (Command H)) :
    (commands.foldl (Command.perform env) bridge).isA name ancestor = true ↔
      (commands.foldl (Command.perform env) bridge).Descends name ancestor := by
  have hgoverns : Governs env Retypes :=
    { permits_retypes env with native := hnative, effect := heffect, managed := hmanaged }
  exact isA_iff (nodup_types (retypes_commands hgoverns hreached commands))

/-- In every state of a program the question whether a type descends from another is answered, after
no more rounds than there are entries of parents and two, and the answer is whether steps to the
parent lead there. -/
theorem isA_descends {host : H.State} (h : ReflTransGen Retypes (start host) bridge) :
    (∀ name ancestor rounds, bridge.types.length + bridge.hierarchy.parents.length + 2 ≤ rounds →
        bridge.walk ancestor rounds [] name = some (bridge.isA name ancestor)) ∧
      (∀ name ancestor, bridge.isA name ancestor = true ↔ bridge.Descends name ancestor) ∧
      (∀ name, bridge.isA name name = true) ∧
      ∀ first second third, bridge.isA first second = true → bridge.isA second third = true →
        bridge.isA first third = true := by
  have hnodup := nodup_types h
  refine ⟨fun name ancestor rounds hrounds => ?_, fun _ _ => isA_iff hnodup,
    fun _ => (isA_iff hnodup).2 .refl, fun first second third hfirst hsecond => ?_⟩
  · refine walk_eq hnodup [] name List.not_mem_nil ?_
    have hchain := (bridge.parents.isChain_chain name).length_le_succ
    have hentries := length_parents_le bridge
    rw [ParentTable.chain] at hchain
    omega
  · rw [isA_iff hnodup] at hfirst hsecond ⊢
    exact hfirst.trans hsecond

/-- Two runtime types and three types of the schema. The two sides do not agree on the parent of the
second, and its circle goes through both. -/
def tangled : Bridge silent :=
  { ((start ()).defineType "Panel" (some "Frame")).defineType "Stack" (some "Panel") with
    hierarchy := ((({} : Hierarchy).setParent "Window" "Panel").setParent "Panel" "Widget").setParent
      "Frame" "Stack" }

theorem tangled_reached : ReflTransGen Retypes (start ()) tangled :=
  .tail (.tail (.single (.define _ _ _)) (.define _ _ _)) (.other rfl)

theorem tangled_descends :
    ReflTransGen Retypes (start ()) tangled ∧ tangled.walk "Widget" 7 [] "Window" = some false ∧
      tangled.Descends "Window" "Stack" ∧ ¬ tangled.Descends "Window" "Widget" ∧
      tangled.isA "Frame" "Frame" = true := by
  obtain ⟨hwalk, hdescends, hrefl, _⟩ := isA_descends tangled_reached
  have hround : tangled.isA "Window" "Stack" = true := by decide +kernel
  have hgone : tangled.isA "Window" "Widget" = false := by decide +kernel
  refine ⟨tangled_reached, ?_, (hdescends _ _).1 hround, ?_, hrefl _⟩
  · rw [hwalk "Window" "Widget" 7 (by decide +kernel), hgone]
  · rw [← hdescends, hgone]
    exact Bool.false_ne_true

end Bridge

end Interop
