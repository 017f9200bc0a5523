import Mathlib.Data.List.Induction
import Mathlib.Data.String.Basic
import Mathlib.Logic.Relation
import Interop.Proofs.Bridge.Links
import Interop.Proofs.Registry.Nearest

/-! # What a hierarchy knows of its types

A hierarchy is built by edits that come in any order: a parent is set and set again, an interface is
added more than once, a type becomes its own parent. What is read from it depends on the edits in a
simple way: the parent is the one that was set last, the interfaces are all that were ever added,
and the children are both relations read backwards.
-/

namespace Interop

open Relation

namespace Hierarchy

variable {hierarchy : Hierarchy} {name child parent interface : String} {chain : List String}

/-! ## Reading the tables -/

theorem pairwise_sorted (names : List String) : (sorted names).Pairwise (· ≤ ·) := by
  have hpairs := @List.pairwise_mergeSort String (fun a b => decide (a ≤ b))
    (fun a b c => by simpa using String.le_trans) (fun a b => by simpa using String.le_total a b)
    names
  simpa only [sorted, decide_eq_true_eq] using hpairs

theorem mem_sorted {names : List String} : name ∈ sorted names ↔ name ∈ names :=
  (List.mergeSort_perm names _).mem_iff

theorem mem_interfacesOf :
    interface ∈ hierarchy.interfacesOf name ↔ (name, interface) ∈ hierarchy.interfaces := by
  simp [interfacesOf, mem_sorted]

theorem mem_children : child ∈ hierarchy.children name ↔
    (child, name) ∈ hierarchy.parents ∨ (child, name) ∈ hierarchy.interfaces := by
  simp [children, mem_sorted]

/-- Entries that are there once give each type every interface once. -/
theorem ascending_interfacesOf (h : hierarchy.interfaces.Nodup) :
    (hierarchy.interfacesOf name).Pairwise (· < ·) := by
  have hdistinct : (hierarchy.interfacesOf name).Nodup := by
    refine (List.mergeSort_perm _ _).nodup_iff.2 ((h.filter _).map_on fun a ha b hb hsame => ?_)
    have hfirst := (List.mem_filter.1 ha).2
    have hsecond := (List.mem_filter.1 hb).2
    exact Prod.ext ((eq_of_beq hfirst).trans (eq_of_beq hsecond).symm) hsame
  exact ((pairwise_sorted _).and hdistinct).imp fun h => lt_of_le_of_ne h.1 h.2

theorem contains_iff : hierarchy.contains name = true ↔ name ∈ hierarchy.names :=
  List.contains_iff_mem

/-- A chain of parents that starts behind a type and goes on until it has no parent or would come
back to a name that it has passed. -/
structure IsLineage (hierarchy : Hierarchy) (name : String) (chain : List String) : Prop where
  steps : (name :: chain).IsChain fun child parent => hierarchy.parent? child = some parent
  nodup : (name :: chain).Nodup
  stops : ∀ parent, hierarchy.parent? ((name :: chain).getLast (List.cons_ne_nil name chain)) =
    some parent → parent ∈ name :: chain

/-- From the first type steps to the parent lead to the second one, or they are the same. -/
def Descends (hierarchy : Hierarchy) : String → String → Prop :=
  ReflTransGen fun child parent => hierarchy.parent? child = some parent

theorem isLineage_iff_isChain :
    hierarchy.IsLineage name chain ↔ hierarchy.parents.IsChain name (name :: chain) := by
  have hlast : (name :: chain)[chain.length]? =
      some ((name :: chain).getLast (List.cons_ne_nil name chain)) :=
    List.getLast?_eq_getElem?.symm.trans (List.getLast?_eq_some_getLast _)
  constructor
  · intro h
    have hplaces : ∀ place < (name :: chain).length,
        (name :: chain)[place]? = hierarchy.parents.ancestor? name place := by
      intro place hplace
      induction place with
      | zero => rfl
      | succ place ih =>
          have hstep := List.isChain_iff_getElem.1 h.steps place hplace
          rw [ParentTable.ancestor?, ← ih (Nat.lt_of_succ_lt hplace),
            List.getElem?_eq_getElem hplace, List.getElem?_eq_getElem (Nat.lt_of_succ_lt hplace)]
          exact hstep.symm
    refine ⟨hplaces, h.nodup, fun next hnext => h.stops next ?_⟩
    rw [List.length_cons, ParentTable.ancestor?, ← hplaces chain.length (Nat.lt_succ_self _),
      hlast] at hnext
    exact hnext
  · intro h
    refine ⟨List.isChain_iff_getElem.2 fun place hplace => ?_, h.nodup, fun next hnext => ?_⟩
    · have hnext := h.getElem?_eq (place + 1) hplace
      rw [ParentTable.ancestor?, ← h.getElem?_eq place (Nat.lt_of_succ_lt hplace),
        List.getElem?_eq_getElem hplace, List.getElem?_eq_getElem (Nat.lt_of_succ_lt hplace)] at hnext
      exact hnext.symm
    · refine h.stops next ?_
      rw [List.length_cons, ParentTable.ancestor?,
        ← h.getElem?_eq chain.length (Nat.lt_succ_self _), hlast]
      exact hnext

theorem isLineage_ancestors (hierarchy : Hierarchy) (name : String) :
    hierarchy.IsLineage name (hierarchy.ancestors name) := by
  have hchain := hierarchy.parents.isChain_chain name
  rw [isLineage_iff_isChain]
  obtain ⟨first, rest, hfirst⟩ := List.exists_cons_of_ne_nil hchain.ne_nil
  have hzero := hchain.getElem?_eq 0 (List.length_pos_iff.2 hchain.ne_nil)
  rw [hfirst] at hzero
  obtain rfl : first = name := Option.some.inj hzero
  rw [ancestors, ParentTable.ancestors, hfirst, List.tail_cons]
  exact hfirst ▸ hchain

/-- Of all lists one is the lineage of a type, and it is that of its ancestors. -/
theorem isLineage_iff : hierarchy.IsLineage name chain ↔ chain = hierarchy.ancestors name := by
  have hancestors := hierarchy.isLineage_ancestors name
  refine ⟨fun h => ?_, fun h => h ▸ hancestors⟩
  have hsame := (isLineage_iff_isChain.1 hancestors).unique (isLineage_iff_isChain.1 h)
  exact (List.cons.inj hsame).2

/-- The ancestors miss no type that steps to the parent lead to. -/
theorem mem_ancestors {ancestor : String} : ancestor ∈ hierarchy.ancestors name ↔
    ancestor ≠ name ∧ hierarchy.Descends name ancestor := by
  have hancestors := hierarchy.isLineage_ancestors name
  have hself := (List.nodup_cons.1 hancestors.nodup).1
  have hmem : hierarchy.Descends name ancestor ↔
      ancestor = name ∨ ancestor ∈ hierarchy.ancestors name :=
    (isLineage_iff_isChain.1 hancestors).mem_iff.symm.trans List.mem_cons
  rw [hmem]
  refine ⟨fun h => ⟨fun hsame => hself (hsame ▸ h), .inr h⟩, ?_⟩
  rintro ⟨hother, hsame | h⟩
  · exact absurd hsame hother
  · exact h

/-! ## Editing -/

/-- What may be done to a hierarchy. -/
inductive Edit
  | add (name : String)
  | setParent (child parent : String)
  | addInterface (name interface : String)
  deriving DecidableEq, Repr

namespace Edit

def apply (hierarchy : Hierarchy) : Edit → Hierarchy
  | .add name => hierarchy.add name
  | .setParent child parent => hierarchy.setParent child parent
  | .addInterface name interface => hierarchy.addInterface name interface

/-- The names that an edit mentions. -/
def names : Edit → List String
  | .add name => [name]
  | .setParent child parent => [child, parent]
  | .addInterface name interface => [name, interface]

def parents : Edit → ParentTable
  | .setParent child parent => [(child, parent)]
  | _ => []

def interfaces : Edit → List (String × String)
  | .addInterface name interface => [(name, interface)]
  | _ => []

theorem apply_eq (edit : Edit) (hierarchy : Hierarchy) : edit.apply hierarchy =
    { names := Lists.including hierarchy.names edit.names
      parents := hierarchy.parents.replacing edit.parents
      interfaces := Lists.including hierarchy.interfaces edit.interfaces } := by
  cases edit with
  | add name => exact add_eq hierarchy name
  | setParent child parent => exact setParent_eq hierarchy child parent
  | addInterface name interface => exact addInterface_eq hierarchy name interface

/-- The last of the edits that set a parent for a type has set this one. -/
def LastParent (edits : List Edit) (child parent : String) : Prop :=
  ∃ before behind, edits = before ++ .setParent child parent :: behind ∧
    ∀ other, .setParent child other ∉ behind

theorem mem_parents {edit : Edit} : (child, parent) ∈ edit.parents ↔
    edit = .setParent child parent := by
  cases edit <;> simp [parents, eq_comm]

theorem mem_interfaces {edit : Edit} : (name, interface) ∈ edit.interfaces ↔
    edit = .addInterface name interface := by
  cases edit <;> simp [interfaces, eq_comm]

theorem lastParent_concat {edits : List Edit} {edit : Edit} :
    LastParent (edits ++ [edit]) child parent ↔ edit = .setParent child parent ∨
      (∀ other, edit ≠ .setParent child other) ∧ LastParent edits child parent := by
  constructor
  · rintro ⟨before, behind, hedits, hlast⟩
    rcases List.eq_nil_or_concat behind with rfl | ⟨behind, last, rfl⟩
    · exact .inl (List.append_inj_right' hedits rfl |> List.singleton_inj.1)
    · rw [List.concat_eq_append, ← List.cons_append, ← List.append_assoc] at hedits
      obtain ⟨rfl, hsame⟩ := List.append_inj' hedits rfl
      obtain rfl := List.singleton_inj.1 hsame
      refine .inr ⟨fun other hother => hlast other (by simp [hother]), before, behind, rfl, ?_⟩
      exact fun other hother => hlast other (by simp [hother])
  · rintro (rfl | ⟨hother, before, behind, rfl, hlast⟩)
    · exact ⟨edits, [], rfl, fun _ => List.not_mem_nil⟩
    · refine ⟨before, behind ++ [edit], by simp, fun other hmem => ?_⟩
      rcases List.mem_append.1 hmem with hbehind | hedit
      · exact hlast other hbehind
      · exact hother other (List.mem_singleton.1 hedit).symm

theorem exists_lastParent_iff {edits : List Edit} :
    (∃ parent, LastParent edits child parent) ↔ ∃ parent, .setParent child parent ∈ edits := by
  refine ⟨fun ⟨parent, _, _, hedits, _⟩ => ⟨parent, by simp [hedits]⟩, ?_⟩
  rintro ⟨parent, hmem⟩
  induction edits using List.reverseRecOn with
  | nil => cases hmem
  | append_singleton edits edit ih =>
      by_cases hedit : ∃ other, edit = .setParent child other
      · obtain ⟨other, rfl⟩ := hedit
        exact ⟨other, lastParent_concat.2 (.inl rfl)⟩
      · rcases List.mem_append.1 hmem with hold | hnew
        · obtain ⟨last, hlast⟩ := ih hold
          exact ⟨last, lastParent_concat.2 (.inr ⟨fun other h => hedit ⟨other, h⟩, hlast⟩)⟩
        · exact absurd ⟨parent, (List.mem_singleton.1 hnew).symm⟩ hedit

end Edit

/-- The hierarchy that edits one after the other make of the empty one. -/
def after (edits : List Edit) : Hierarchy := edits.foldl Edit.apply {}

/-- The tables of a hierarchy hold what these edits have said, each entry once. -/
structure Records (hierarchy : Hierarchy) (edits : List Edit) : Prop where
  mem_parents : ∀ child parent,
    (child, parent) ∈ hierarchy.parents ↔ Edit.LastParent edits child parent
  mem_interfaces : ∀ name interface,
    (name, interface) ∈ hierarchy.interfaces ↔ .addInterface name interface ∈ edits
  mem_names : ∀ name, name ∈ hierarchy.names ↔ ∃ edit ∈ edits, name ∈ edit.names
  nodup_parents : (hierarchy.parents.map Prod.fst).Nodup
  nodup_interfaces : hierarchy.interfaces.Nodup

theorem mem_replacing {table : ParentTable} {edit : Edit} :
    (child, parent) ∈ table.replacing edit.parents ↔ edit = .setParent child parent ∨
      (∀ other, edit ≠ .setParent child other) ∧ (child, parent) ∈ table := by
  cases edit with
  | add => simp [ParentTable.replacing, Edit.parents]
  | addInterface => simp [ParentTable.replacing, Edit.parents]
  | setParent first second =>
      by_cases hchild : child = first
      · subst hchild
        simp [ParentTable.replacing, Edit.parents, eq_comm]
      · simp [ParentTable.replacing, Edit.parents, hchild, Ne.symm hchild]

theorem nodup_replacing {table : ParentTable} {edit : Edit}
    (h : (table.map Prod.fst).Nodup) : ((table.replacing edit.parents).map Prod.fst).Nodup := by
  cases edit with
  | add => exact h
  | addInterface => exact h
  | setParent first second =>
      refine List.nodup_cons.2 ⟨?_, h.sublist (List.filter_sublist.map _)⟩
      simp

theorem Records.apply {edits : List Edit} (h : hierarchy.Records edits) (edit : Edit) :
    (edit.apply hierarchy).Records (edits ++ [edit]) := by
  rw [Edit.apply_eq]
  refine ⟨fun child parent => ?_, fun name interface => ?_, fun name => ?_,
    nodup_replacing h.nodup_parents, Lists.nodup_including h.nodup_interfaces⟩
  · rw [Edit.lastParent_concat, ← h.mem_parents, mem_replacing]
  · rw [Lists.mem_including, h.mem_interfaces, Edit.mem_interfaces, List.mem_append,
      List.mem_singleton, eq_comm (a := edit)]
  · rw [Lists.mem_including, h.mem_names]
    simp [or_and_right, exists_or]

theorem records_after (edits : List Edit) : (after edits).Records edits := by
  induction edits using List.reverseRecOn with
  | nil =>
      refine ⟨fun child parent => ?_, fun _ _ => ?_, fun _ => ?_, .nil, .nil⟩
      · exact ⟨fun h => absurd h List.not_mem_nil,
          fun ⟨before, _, h, _⟩ => by cases before <;> cases h⟩
      · simp [after]
      · simp [after]
  | append_singleton edits edit ih =>
      rw [after, List.foldl_append]
      exact ih.apply edit

/-- What is read from a hierarchy is what these edits have said, and no more. -/
structure Reflects (hierarchy : Hierarchy) (edits : List Edit) : Prop where
  parent?_eq_some_iff : ∀ child parent,
    hierarchy.parent? child = some parent ↔ Edit.LastParent edits child parent
  parent?_eq_none_iff : ∀ child,
    hierarchy.parent? child = none ↔ ∀ parent, .setParent child parent ∉ edits
  mem_interfacesOf : ∀ name interface,
    interface ∈ hierarchy.interfacesOf name ↔ .addInterface name interface ∈ edits
  ascending : ∀ name, (hierarchy.interfacesOf name).Pairwise (· < ·)
  mem_children : ∀ name child, child ∈ hierarchy.children name ↔
    hierarchy.parent? child = some name ∨ name ∈ hierarchy.interfacesOf child
  contains_iff : ∀ name, hierarchy.contains name = true ↔ ∃ edit ∈ edits, name ∈ edit.names
  lineage : ∀ name chain, hierarchy.IsLineage name chain ↔ chain = hierarchy.ancestors name
  mem_ancestors : ∀ name ancestor, ancestor ∈ hierarchy.ancestors name ↔
    ancestor ≠ name ∧ hierarchy.Descends name ancestor

namespace Records

variable {edits : List Edit} (h : hierarchy.Records edits)
include h

theorem parent?_eq_some_iff :
    hierarchy.parent? child = some parent ↔ Edit.LastParent edits child parent :=
  (lookup_eq_some_iff_mem h.nodup_parents).trans (h.mem_parents child parent)

theorem parent?_eq_none_iff :
    hierarchy.parent? child = none ↔ ∀ parent, .setParent child parent ∉ edits := by
  rw [Option.eq_none_iff_forall_ne_some, ← not_exists, ← not_exists, ← Edit.exists_lastParent_iff]
  exact not_congr (exists_congr fun _ => h.parent?_eq_some_iff)

theorem reflects : hierarchy.Reflects edits where
  parent?_eq_some_iff _ _ := h.parent?_eq_some_iff
  parent?_eq_none_iff _ := h.parent?_eq_none_iff
  mem_interfacesOf name interface := mem_interfacesOf.trans (h.mem_interfaces name interface)
  ascending _ := ascending_interfacesOf h.nodup_interfaces
  mem_children name child := by
    rw [mem_children, mem_interfacesOf, parent?, lookup_eq_some_iff_mem h.nodup_parents]
  contains_iff name := contains_iff.trans (h.mem_names name)
  lineage _ _ := isLineage_iff
  mem_ancestors _ _ := mem_ancestors

end Records

/-- Whatever the order of the edits, and whether or not they make parents go round in circles, the
hierarchy they leave is read as they say. -/
theorem reflects_after (edits : List Edit) : (after edits).Reflects edits :=
  (records_after edits).reflects

/-- A circle is gone through once, and an interface is not a parent. -/
example : (after [.setParent "A" "B", .addInterface "B" "I", .setParent "B" "C",
    .setParent "C" "A"]).ancestors "A" = ["B", "C"] := by
  decide +kernel

end Hierarchy

end Interop
