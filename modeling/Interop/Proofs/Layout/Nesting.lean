import Mathlib.Logic.Relation
import Interop.Layout.Compute

/-! # Types stored inside of each other

A compound type stores another one if a field of it, or an element of an array in a field, holds a
value of that type in place. The layout of a type depends on the types stored in it, and on what is
open around it only if one of those is among them.
-/

namespace Interop

open Schema Relation

namespace Slot

/-- A layout depends on the compound type in the slot and on no other. -/
theorem layout_congr {slot : Slot} {left right : String → TypeLayout}
    (h : ∀ inner, slot.compound? = some inner → left inner = right inner) :
    slot.layout left = slot.layout right := by
  induction slot with
  | scalar layout => rfl
  | nested qualified => exact h qualified rfl
  | repeated count element ih =>
      rw [layout, layout, ih h]

end Slot

namespace Platform

variable (platform : Platform)

/-- One of the fields holds a value of the given type in place. An array does so with its elements,
however many they are. -/
def StoredIn (space : String) (fields : List Field) (inner : String) : Prop :=
  ∃ field ∈ fields,
    (Slot.ofType platform.repo platform.pointerSize space false field.type).compound? = some inner

/-- A field of the outer type holds a value of the inner type in place. -/
def Stores (outer inner : String) : Prop :=
  ∃ compound, Compound.find? platform.repo outer = some compound ∧
    platform.StoredIn compound.space compound.fields inner

/-- No type that is stored in the given one, at any depth, is stored in itself. -/
def Acyclic (qualified : String) : Prop :=
  ∀ inner, ReflTransGen platform.Stores qualified inner → ¬ TransGen platform.Stores inner inner

/-- Going from a type to one stored in it comes to an end. -/
def Settled (qualified : String) : Prop :=
  Acc (fun inner outer => platform.Stores outer inner) qualified

variable {platform}

theorem Acyclic.stored {outer inner : String} (h : platform.Acyclic outer)
    (hstores : platform.Stores outer inner) : platform.Acyclic inner :=
  fun deeper hdeeper => h deeper (hdeeper.head hstores)

theorem Settled.stored {outer inner : String} (h : platform.Settled outer)
    (hstores : platform.Stores outer inner) : platform.Settled inner :=
  h.inv hstores

theorem Settled.of_reflTransGen {outer inner : String} (h : platform.Settled outer)
    (hreach : ReflTransGen platform.Stores outer inner) : platform.Settled inner := by
  induction hreach with
  | refl => exact h
  | tail _ hstores ih => exact ih.stored hstores

theorem Settled.not_transGen {qualified : String} (h : platform.Settled qualified) :
    ¬ TransGen platform.Stores qualified qualified := by
  have hacc := Acc.transGen h
  -- the cycle itself is a descent, so the induction goes around it
  induction hacc with
  | intro qualified _ ih =>
      intro hcycle
      exact ih qualified (transGen_swap.1 hcycle) h hcycle

theorem resolveQualified?_of_find? {repo : Repository} {qualified : String} {compound : Compound}
    (h : Compound.find? repo qualified = some compound) :
    ∃ type, repo.resolveQualified? qualified = some type :=
  let ⟨type, htype, _⟩ := Option.bind_eq_some_iff.1 h
  ⟨type, htype⟩

theorem Stores.resolves {outer inner : String} (h : platform.Stores outer inner) :
    ∃ type, platform.repo.resolveQualified? outer = some type :=
  let ⟨_, hfind, _⟩ := h
  resolveQualified?_of_find? hfind

/-- Without a cycle every descent ends, since each step opens a declared name that is not open. -/
theorem Acyclic.settled {qualified : String} (h : platform.Acyclic qualified) :
    platform.Settled qualified := by
  suffices hpath : ∀ path : List String,
      (∀ outer ∈ path, TransGen platform.Stores outer qualified) → platform.Settled qualified from
    hpath [] (by simp)
  intro path
  -- names are opened one after the other, so fewer declared ones remain at every step
  induction hmeasure : platform.repo.remaining path using Nat.strongRecOn
    generalizing path qualified with
  | ind bound ih =>
      intro hopen
      refine Acc.intro qualified fun inner hstores => ?_
      obtain ⟨type, htype⟩ := hstores.resolves
      have hnot : path.contains qualified = false := by
        rw [List.contains_eq_mem, decide_eq_false_iff_not]
        exact fun hmem => h qualified .refl (hopen qualified hmem)
      have hless := Repository.remaining_cons_lt htype hnot
      refine ih _ (hmeasure ▸ hless) (h.stored hstores) (qualified :: path) rfl ?_
      intro outer houter
      rcases List.mem_cons.1 houter with rfl | houter
      · exact .single hstores
      · exact (hopen outer houter).tail hstores

theorem settled_of_find?_eq_none {qualified : String}
    (h : Compound.find? platform.repo qualified = none) : platform.Settled qualified := by
  refine Acc.intro qualified fun inner hstores => ?_
  obtain ⟨compound, hfind, _⟩ := hstores
  simp [h] at hfind

theorem stores_iff_storedIn {outer inner : String} {compound : Compound}
    (hfind : Compound.find? platform.repo outer = some compound) :
    platform.Stores outer inner ↔ platform.StoredIn compound.space compound.fields inner := by
  rw [Stores, hfind]
  simp

theorem settled_of_find?_eq_some {qualified : String} {compound : Compound}
    (hfind : Compound.find? platform.repo qualified = some compound)
    (h : ∀ inner, platform.StoredIn compound.space compound.fields inner →
      platform.Settled inner) : platform.Settled qualified :=
  Acc.intro qualified fun inner hstores => h inner ((stores_iff_storedIn hfind).1 hstores)

/-- Whether the rank falls from every declared type to the types stored in it. -/
def ranked (platform : Platform) (rank : String → Nat) : Bool :=
  platform.repo.index.all fun entry =>
    (Compound.find? platform.repo entry.1).all fun compound =>
      compound.fields.all fun field =>
        (Slot.ofType platform.repo platform.pointerSize compound.space false
          field.type).compound?.all fun inner => rank inner < rank entry.1

theorem Stores.rank_lt {rank : String → Nat} (h : platform.ranked rank = true)
    {outer inner : String} (hstores : platform.Stores outer inner) : rank inner < rank outer := by
  obtain ⟨compound, hfind, field, hfield, hinner⟩ := hstores
  obtain ⟨type, htype, _⟩ := Option.bind_eq_some_iff.1 hfind
  obtain ⟨site, hsite, _⟩ := Option.bind_eq_some_iff.1 htype
  have hentry := List.all_eq_true.1 h _ (Lists.mem_of_lookup hsite)
  rw [hfind, Option.all_some] at hentry
  have hslot := List.all_eq_true.1 hentry field hfield
  rw [hinner, Option.all_some] at hslot
  exact of_decide_eq_true hslot

/-- A rank that falls shows that there are no cycles. -/
theorem acyclic_of_ranked {rank : String → Nat} (h : platform.ranked rank = true)
    (qualified : String) : platform.Acyclic qualified := by
  intro inner _ hcycle
  have hfalls : ∀ {a b : String}, TransGen platform.Stores a b → rank b < rank a := by
    intro a b hab
    induction hab with
    | single hstores => exact hstores.rank_lt h
    | tail _ hstores ih => exact Nat.lt_trans (hstores.rank_lt h) ih
  exact Nat.lt_irrefl _ (hfalls hcycle)

/-! ## Expansion -/

theorem expand?_of_mem {path : List String} {qualified : String} (h : qualified ∈ path) :
    platform.expand? path qualified = some (.pointer platform.pointerSize) := by
  rw [expand?, dif_pos (by simpa using h)]

theorem expand?_of_find?_eq_none {path : List String} {qualified : String} (hmem : qualified ∉ path)
    (hfind : Compound.find? platform.repo qualified = none) :
    platform.expand? path qualified = none := by
  rw [expand?, dif_neg (by simpa using hmem)]
  split
  next => rfl
  next compound hsome => simp [hfind] at hsome

theorem expand?_of_find?_eq_some {path : List String} {qualified : String} {compound : Compound}
    (hmem : qualified ∉ path) (hfind : Compound.find? platform.repo qualified = some compound) :
    platform.expand? path qualified =
      some (platform.place (qualified :: path) compound.space compound.kind compound.fields).2 := by
  rw [expand?, dif_neg (by simpa using hmem)]
  split
  next hnone => simp [hfind] at hnone
  next other hsome =>
    rw [hfind, Option.some.injEq] at hsome
    subst hsome
    simp only [place, Compound.slots, List.map_map]
    rfl

/-- The names that are open matter only as far as they are stored in the type. -/
theorem expand?_congr {path path' : List String} {qualified : String}
    (h : ∀ inner, ReflTransGen platform.Stores qualified inner →
      (inner ∈ path ↔ inner ∈ path')) :
    platform.expand? path qualified = platform.expand? path' qualified := by
  -- both paths grow by the same names, so it is enough to measure one of them
  induction hmeasure : platform.repo.remaining path using Nat.strongRecOn
    generalizing path path' qualified with
  | ind bound ih =>
      by_cases hmem : qualified ∈ path
      · rw [expand?_of_mem hmem, expand?_of_mem ((h qualified .refl).1 hmem)]
      have hmem' : qualified ∉ path' := fun hin => hmem ((h qualified .refl).2 hin)
      cases hfind : Compound.find? platform.repo qualified with
      | none => rw [expand?_of_find?_eq_none hmem hfind, expand?_of_find?_eq_none hmem' hfind]
      | some compound =>
          obtain ⟨type, htype⟩ := resolveQualified?_of_find? hfind
          have hnot : path.contains qualified = false := by simpa using hmem
          have hless := Repository.remaining_cons_lt htype hnot
          rw [expand?_of_find?_eq_some hmem hfind, expand?_of_find?_eq_some hmem' hfind]
          suffices hslots : ∀ field ∈ compound.fields,
              platform.slotLayout (qualified :: path) compound.space false field.type =
                platform.slotLayout (qualified :: path') compound.space false field.type by
            simp only [place]
            rw [List.map_congr_left fun field hfield => by rw [hslots field hfield]]
          intro field hfield
          refine Slot.layout_congr fun inner hinner => ?_
          have hstores : platform.Stores qualified inner := ⟨compound, hfind, field, hfield, hinner⟩
          have hopen : ∀ deeper, ReflTransGen platform.Stores inner deeper →
              (deeper ∈ qualified :: path ↔ deeper ∈ qualified :: path') := by
            intro deeper hdeeper
            simp only [List.mem_cons, h deeper (hdeeper.head hstores)]
          rw [ih _ (hmeasure ▸ hless) hopen rfl]

/-- A settled type has the same layout wherever it is met below types that store it. -/
theorem Settled.expand?_eq {path : List String} {qualified : String}
    (h : platform.Settled qualified)
    (hopen : ∀ outer ∈ path, TransGen platform.Stores outer qualified) :
    platform.expand? path qualified = platform.expand? [] qualified := by
  refine expand?_congr fun inner hinner => ?_
  -- an open name that is met again would close a cycle
  have hnot : inner ∉ path := fun hmem =>
    (h.of_reflTransGen hinner).not_transGen (TransGen.trans_left (hopen inner hmem) hinner)
  simp [hnot]

end Platform

end Interop
