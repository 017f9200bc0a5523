import Mathlib.Data.List.Nodup
import Mathlib.Data.Set.Function
import Mathlib.Logic.Relation
import Interop.Proofs.Keys
import Interop.Registry.Classes

/-! # The nearest class of a type

A type is wrapped as the first type of its chain that has a class. The chain goes from parent to
parent and ends before the first name that was in it already, so it ends also where parents go round
in circles. If no name in it has a class, all of it is reported.
-/

namespace Interop

open Relation

namespace ParentTable

/-- The name that so many steps from a name to its parent lead to. -/
def ancestor? (table : ParentTable) (name : String) : Nat → Option String
  | 0 => some name
  | steps + 1 => (table.ancestor? name steps).bind fun last => table.lookup last

/-- The names that steps to the parent lead to, from none on. The step behind them leads nowhere or
to one of them. -/
structure IsChain (table : ParentTable) (name : String) (chain : List String) : Prop where
  getElem?_eq : ∀ place < chain.length, chain[place]? = table.ancestor? name place
  nodup : chain.Nodup
  stops : ∀ next, table.ancestor? name chain.length = some next → next ∈ chain

variable {table : ParentTable} {name parent : String} {chain other : List String}

theorem ancestor?_succ_of_lookup (h : table.lookup name = some parent) (steps : Nat) :
    table.ancestor? name (steps + 1) = table.ancestor? parent steps := by
  induction steps with
  | zero => exact h
  | succ steps ih =>
      rw [ancestor?, ih]
      rfl

/-- The chain of a name that must not enter a path. It ends where the path or itself would be
entered. -/
structure IsChainOff (table : ParentTable) (path : List String) (name : String)
    (chain : List String) : Prop where
  getElem?_eq : ∀ place < chain.length, chain[place]? = table.ancestor? name place
  nodup : chain.Nodup
  off : ∀ found ∈ chain, found ∉ path
  stops : ∀ next, table.ancestor? name chain.length = some next → next ∈ path ∨ next ∈ chain

section Off

variable {path : List String}

theorem IsChainOff.nil (h : name ∈ path) : table.IsChainOff path name [] where
  getElem?_eq _ hplace := absurd hplace (Nat.not_lt_zero _)
  nodup := .nil
  off _ hfound := absurd hfound List.not_mem_nil
  stops _ hnext := .inl (Option.some.inj hnext ▸ h)

theorem IsChainOff.single (h : name ∉ path) (hroot : table.lookup name = none) :
    table.IsChainOff path name [name] where
  getElem?_eq place hplace := by
    obtain rfl := Nat.lt_one_iff.1 hplace
    rfl
  nodup := List.nodup_singleton name
  off found hfound := List.mem_singleton.1 hfound ▸ h
  stops next hnext := by
    cases hroot.symm.trans hnext

/-- The chain of a parent that goes neither into the path nor back to the name goes on for it. -/
theorem IsChainOff.cons (h : name ∉ path) (hparent : table.lookup name = some parent)
    (hchain : table.IsChainOff (name :: path) parent chain) :
    table.IsChainOff path name (name :: chain) where
  getElem?_eq place hplace := by
    cases place with
    | zero => rfl
    | succ place =>
        rw [List.getElem?_cons_succ, ancestor?_succ_of_lookup hparent]
        exact hchain.getElem?_eq place (Nat.lt_of_succ_lt_succ hplace)
  nodup := List.nodup_cons.2 ⟨fun hname => hchain.off name hname List.mem_cons_self, hchain.nodup⟩
  off found hfound := by
    rcases List.mem_cons.1 hfound with rfl | hrest
    · exact h
    · exact fun hmem => hchain.off found hrest (List.mem_cons_of_mem _ hmem)
  stops next hnext := by
    rw [List.length_cons, ancestor?_succ_of_lookup hparent] at hnext
    rcases hchain.stops next hnext with hmem | hmem
    · rcases List.mem_cons.1 hmem with rfl | hmem
      · exact .inr List.mem_cons_self
      · exact .inl hmem
    · exact .inr (List.mem_cons_of_mem _ hmem)

/-- By induction over the steps that are left. -/
theorem isChainOff_chainFrom (table : ParentTable) (path : List String) (name : String) :
    table.IsChainOff path name (table.chainFrom path name) := by
  induction path, name using chainFrom.induct table with
  | case1 path name hpath =>
      rw [chainFrom, dif_pos hpath]
      exact .nil (by simpa using hpath)
  | case2 path name hpath ih =>
      have hoff : name ∉ path := by simpa using hpath
      rw [chainFrom, dif_neg hpath]
      split
      next hroot => exact .single hoff hroot
      next parent hparent => exact .cons hoff hparent (ih parent hparent)

end Off

theorem isChain_chain (table : ParentTable) (name : String) :
    table.IsChain name (table.chain name) := by
  obtain ⟨hplaces, hnodup, _, hstops⟩ := table.isChainOff_chainFrom [] name
  exact ⟨hplaces, hnodup, fun next hnext => (hstops next hnext).resolve_left List.not_mem_nil⟩

/-- The ancestors of a name are the names that steps to the parent lead to. -/
theorem exists_ancestor?_iff {ancestor : String} :
    (∃ steps, table.ancestor? name steps = some ancestor) ↔
      ReflTransGen (fun child parent => table.lookup child = some parent) name ancestor := by
  constructor
  · rintro ⟨steps, hsteps⟩
    induction steps generalizing ancestor with
    | zero => exact Option.some.inj hsteps ▸ .refl
    | succ steps ih =>
        obtain ⟨last, hlast, hparent⟩ := Option.bind_eq_some_iff.1 hsteps
        exact (ih hlast).tail hparent
  · intro hpath
    induction hpath with
    | refl => exact ⟨0, rfl⟩
    | tail _ hparent ih =>
        obtain ⟨steps, hsteps⟩ := ih
        exact ⟨steps + 1, Option.bind_eq_some_iff.2 ⟨_, hsteps, hparent⟩⟩

namespace IsChain

/-- A chain that went on behind another one would repeat a name. -/
theorem length_le (h : table.IsChain name chain) (hother : table.IsChain name other) :
    other.length ≤ chain.length := by
  by_contra hlonger
  have hlt := Nat.lt_of_not_le hlonger
  have hbehind := (List.getElem?_eq_getElem hlt).symm.trans (hother.getElem?_eq _ hlt)
  obtain ⟨place, hrepeated⟩ := List.mem_iff_getElem?.1 (h.stops _ hbehind.symm)
  obtain ⟨hplace, _⟩ := List.getElem?_eq_some_iff.1 hrepeated
  rw [h.getElem?_eq place hplace,
    ← hother.getElem?_eq place (Nat.lt_trans hplace hlt)] at hrepeated
  have hsame := (List.getElem?_inj (Nat.lt_trans hplace hlt) hother.nodup).1
    (hrepeated.trans (List.getElem?_eq_getElem hlt).symm)
  omega

/-- A name has one chain. -/
theorem unique (h : table.IsChain name chain) (hother : table.IsChain name other) :
    other = chain := by
  have hlength := Nat.le_antisymm (h.length_le hother) (hother.length_le h)
  refine List.ext_getElem? fun place => ?_
  by_cases hplace : place < chain.length
  · rw [h.getElem?_eq place hplace, hother.getElem?_eq place (hlength ▸ hplace)]
  · rw [List.getElem?_eq_none (Nat.le_of_not_lt hplace),
      List.getElem?_eq_none (hlength ▸ Nat.le_of_not_lt hplace)]

/-- Every name of a chain but the last has a parent, so a chain is not much longer than the table. -/
theorem length_le_succ (h : table.IsChain name chain) : chain.length ≤ table.length + 1 := by
  have hparents : chain.dropLast ⊆ table.map Prod.fst := by
    intro found hfound
    obtain ⟨place, hplace⟩ := List.mem_iff_getElem?.1 hfound
    rw [List.getElem?_dropLast] at hplace
    split at hplace
    next hlt =>
      have hnext := (List.getElem?_eq_getElem (Nat.add_lt_of_lt_sub hlt)).symm.trans
        (h.getElem?_eq (place + 1) (Nat.add_lt_of_lt_sub hlt))
      rw [ancestor?, ← h.getElem?_eq place (by omega), hplace] at hnext
      exact List.mem_map_of_mem (Lists.mem_of_lookup hnext.symm)
    next => cases hplace
  have hle := (h.nodup.sublist (List.dropLast_sublist _)).length_le_of_subset hparents
  rw [List.length_dropLast, List.length_map] at hle
  omega

section Members

variable {ancestor : String} (h : table.IsChain name chain)
include h

theorem ne_nil : chain ≠ [] := by
  rintro rfl
  exact List.not_mem_nil (h.stops name rfl)

/-- What follows a name of the chain is in the chain: it is the next one, or the chain ends there. -/
theorem mem_of_lookup {child parent : String} (hchild : child ∈ chain)
    (hparent : table.lookup child = some parent) : parent ∈ chain := by
  obtain ⟨place, hplace⟩ := List.mem_iff_getElem?.1 hchild
  obtain ⟨hlt, _⟩ := List.getElem?_eq_some_iff.1 hplace
  have hnext : table.ancestor? name (place + 1) = some parent :=
    Option.bind_eq_some_iff.2 ⟨child, (h.getElem?_eq place hlt) ▸ hplace, hparent⟩
  rcases Nat.lt_or_ge (place + 1) chain.length with hinside | hend
  · exact List.mem_iff_getElem?.2 ⟨place + 1, (h.getElem?_eq _ hinside).trans hnext⟩
  · obtain hlast : place + 1 = chain.length := by omega
    exact h.stops parent (hlast ▸ hnext)

/-- Also where parents go round in a circle, a chain misses no name that they lead to. -/
theorem mem_iff : ancestor ∈ chain ↔
    ReflTransGen (fun child parent => table.lookup child = some parent) name ancestor := by
  rw [← exists_ancestor?_iff]
  constructor
  · intro hmem
    obtain ⟨place, hplace⟩ := List.mem_iff_getElem?.1 hmem
    obtain ⟨hlt, _⟩ := List.getElem?_eq_some_iff.1 hplace
    exact ⟨place, (h.getElem?_eq place hlt).symm.trans hplace⟩
  · intro hsteps
    have hpath := exists_ancestor?_iff.1 hsteps
    induction hpath with
    | refl =>
        have hfirst := h.getElem?_eq 0 (List.length_pos_iff.2 h.ne_nil)
        exact List.mem_iff_getElem?.2 ⟨0, hfirst⟩
    | tail hpath hparent ih => exact h.mem_of_lookup (ih (exists_ancestor?_iff.2 hpath)) hparent

end Members

end IsChain

end ParentTable

namespace ClassTable

/-- A table that classes have come into by being registered, each under the hash of its name. -/
inductive Registered : ClassTable → Prop
  | empty : Registered {}
  | register {table table' : ClassTable} {cls : NativeClass} (h : Registered table)
      (hhash : cls.hash = .ofName cls.typeName) (hregister : table.register cls = .ok table') :
      Registered table'

/-- The classes of a type name. -/
def Holds (table : ClassTable) (typeName : String) (cls : NativeClass) : Prop :=
  cls ∈ table.classes ∧ cls.typeName = typeName

variable {table table' : ClassTable} {cls : NativeClass}

/-- A class is added behind those that are there, none of which has its hash. -/
theorem of_register_eq_ok (h : table.register cls = .ok table') :
    cls.hash ∉ table.classes.map (·.hash) ∧ table'.classes = table.classes ++ [cls] := by
  unfold register at h
  split at h
  next => cases h
  next =>
    split at h
    next => cases h
    next hfresh =>
      cases h
      refine ⟨fun hmem => hfresh ?_, rfl⟩
      obtain ⟨other, hother, hsame⟩ := List.mem_map.1 hmem
      exact List.find?_isSome.2 ⟨other, hother, by simpa using hsame⟩

namespace Registered

theorem hash_eq (h : table.Registered) : ∀ cls ∈ table.classes, cls.hash = .ofName cls.typeName := by
  induction h with
  | empty => exact fun _ hcls => by cases hcls
  | register _ hhash hregister ih =>
      rw [(of_register_eq_ok hregister).2]
      intro other hother
      rcases List.mem_append.1 hother with hold | hnew
      · exact ih other hold
      · exact List.mem_singleton.1 hnew ▸ hhash

theorem nodup (h : table.Registered) : (table.classes.map (·.hash)).Nodup := by
  induction h with
  | empty => exact .nil
  | register _ _ hregister ih =>
      obtain ⟨hfresh, hclasses⟩ := of_register_eq_ok hregister
      rw [hclasses, List.map_append, List.map_singleton]
      exact List.nodup_append.2 ⟨ih, List.nodup_singleton _, fun hash hold other hnew hsame =>
        hfresh (List.mem_singleton.1 hnew ▸ hsame ▸ hold)⟩

variable {names : Set String}

/-- If no two names have the same hash, the class that is found for a name is the one of that name. -/
theorem get?_eq_some_iff (h : table.Registered) (hhash : Set.InjOn TypeHash.ofName names)
    (hnames : ∀ cls ∈ table.classes, cls.typeName ∈ names) {typeName : String}
    (hname : typeName ∈ names) : table.get? typeName = some cls ↔ table.Holds typeName cls := by
  constructor
  · intro hfound
    have hmem := List.mem_of_find?_eq_some hfound
    have hsame : cls.hash = .ofName typeName := by simpa using List.find?_some hfound
    exact ⟨hmem, hhash (hnames cls hmem) hname ((h.hash_eq cls hmem).symm.trans hsame)⟩
  · rintro ⟨hmem, rfl⟩
    have hfound := find?_of_mem h.nodup hmem
    rwa [h.hash_eq cls hmem] at hfound

theorem get?_eq_none_iff (h : table.Registered) (hhash : Set.InjOn TypeHash.ofName names)
    (hnames : ∀ cls ∈ table.classes, cls.typeName ∈ names) {typeName : String}
    (hname : typeName ∈ names) :
    table.get? typeName = none ↔ ∀ cls, ¬ table.Holds typeName cls := by
  rw [Option.eq_none_iff_forall_ne_some]
  exact forall_congr' fun cls => not_congr (h.get?_eq_some_iff hhash hnames hname)

end Registered

theorem resolve_eq (table : ClassTable) (parents : ParentTable) (typeName : String) :
    table.resolve parents typeName = ((parents.chain typeName).findSome? table.get?).elim
      (.error (.unregisteredType typeName (parents.chain typeName))) .ok := by
  rw [resolve]
  cases (parents.chain typeName).findSome? table.get? <;> rfl

/-- A type has one chain. The class that it is wrapped as is that of the first name in the chain that
has a class, and if none has, the whole chain is reported. -/
theorem resolve_nearest (h : table.Registered) (parents : ParentTable) (typeName : String)
    (hhash : Set.InjOn TypeHash.ofName
      {name | name ∈ parents.chain typeName ∨ ∃ cls, table.Holds name cls}) :
    ∃ chain, (∀ other, parents.IsChain typeName other ↔ other = chain) ∧
      chain.length ≤ parents.length + 1 ∧
      (∀ cls, table.resolve parents typeName = .ok cls ↔
        ∃ before nearest behind, chain = before ++ nearest :: behind ∧
          (∀ name ∈ before, ∀ other, ¬ table.Holds name other) ∧ table.Holds nearest cls) ∧
      ∀ error, table.resolve parents typeName = .error error ↔
        (∀ name ∈ chain, ∀ other, ¬ table.Holds name other) ∧
          error = .unregisteredType typeName chain := by
  have hchain := parents.isChain_chain typeName
  generalize hnames : {name | name ∈ parents.chain typeName ∨ ∃ cls, table.Holds name cls} = names
    at hhash
  have hclasses : ∀ cls ∈ table.classes, cls.typeName ∈ names := fun cls hcls =>
    hnames ▸ .inr ⟨cls, hcls, rfl⟩
  -- classes are found by hashes, which tell the names in question apart
  have hsome : ∀ name ∈ parents.chain typeName, ∀ cls,
      table.get? name = some cls ↔ table.Holds name cls := fun name hname cls =>
    h.get?_eq_some_iff hhash hclasses (hnames ▸ .inl hname)
  have hnone : ∀ name ∈ parents.chain typeName,
      table.get? name = none ↔ ∀ cls, ¬ table.Holds name cls := fun name hname =>
    h.get?_eq_none_iff hhash hclasses (hnames ▸ .inl hname)
  refine ⟨parents.chain typeName, fun other => ⟨hchain.unique, fun hsame => hsame ▸ hchain⟩,
    hchain.length_le_succ, fun cls => ?_, fun error => ?_⟩
  · have hfirst : table.resolve parents typeName = .ok cls ↔
        (parents.chain typeName).findSome? table.get? = some cls := by
      rw [resolve_eq]
      cases (parents.chain typeName).findSome? table.get? <;> simp
    rw [hfirst, List.findSome?_eq_some_iff]
    refine exists_congr fun before => exists_congr fun nearest => exists_congr fun behind => ?_
    refine and_congr_right fun hsplit => ?_
    have hnearest : nearest ∈ parents.chain typeName := by simp [hsplit]
    have hbefore : ∀ name ∈ before, name ∈ parents.chain typeName := fun name hname => by
      simp [hsplit, hname]
    rw [hsome nearest hnearest, and_comm]
    exact and_congr_left' (forall₂_congr fun name hname => hnone name (hbefore name hname))
  · have hfails : table.resolve parents typeName = .error error ↔
        (parents.chain typeName).findSome? table.get? = none ∧
          error = .unregisteredType typeName (parents.chain typeName) := by
      rw [resolve_eq]
      cases (parents.chain typeName).findSome? table.get? <;> simp [eq_comm]
    rw [hfails, List.findSome?_eq_none_iff]
    exact and_congr_left' (forall₂_congr hnone)

/-- Three types whose parents go round in a circle that a fourth one leads into. -/
def circle : ParentTable := [("A", "B"), ("B", "C"), ("C", "D"), ("D", "B")]

/-- A table with a class of one type of the circle. -/
def circled : ClassTable := ⟨[.named "D" .gobject]⟩

theorem registered_circled : circled.Registered :=
  @Registered.register {} circled (.named "D" .gobject) .empty rfl (by rfl)

theorem injOn_circled :
    Set.InjOn TypeHash.ofName
      {name | name ∈ circle.chain "A" ∨ ∃ cls, circled.Holds name cls} := by
  have hnodup : ((circle.chain "A").map TypeHash.ofName).Nodup := by decide +kernel
  have hnames : ∀ name, (name ∈ circle.chain "A" ∨ ∃ cls, circled.Holds name cls) →
      name ∈ circle.chain "A" := by
    rintro name (hname | ⟨cls, hcls, rfl⟩)
    · exact hname
    · obtain rfl := List.mem_singleton.1 hcls
      decide +kernel
  exact fun _ ha _ hb => List.inj_on_of_nodup_map hnodup (hnames _ ha) (hnames _ hb)

theorem circle_nearest :
    ∃ cls, circled.resolve circle "A" = .ok cls ∧ circled.Holds "D" cls := by
  obtain ⟨chain, hunique, _, hok, _⟩ :=
    resolve_nearest registered_circled circle "A" injOn_circled
  have hchain : circle.chain "A" = ["A", "B", "C", "D"] := by decide +kernel
  obtain rfl := (hunique _).1 (ParentTable.isChain_chain circle "A")
  have hholds : circled.Holds "D" (.named "D" .gobject) := ⟨List.mem_cons_self, rfl⟩
  refine ⟨_, (hok _).2 ⟨["A", "B", "C"], "D", [], hchain, ?_, hholds⟩, hholds⟩
  rintro name hname other ⟨hother, rfl⟩
  obtain rfl := List.mem_singleton.1 hother
  revert hname
  decide +kernel

end ClassTable

end Interop
