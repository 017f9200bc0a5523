import Interop.Proofs.Layout.Memo

/-! # Which types are remembered

A calculator remembers every type with fields that a question has led to and from which no by-value
cycle can be reached, and no others. A cycle next to such a type makes no difference: a type that is
met while it is open is not expanded again, but it is being expanded further up, so what is stored
in it is met there.
-/

namespace Interop

open Schema Relation

namespace Platform

variable (platform : Platform)

/-- There is a layout for the name in the table. -/
def Has (memo : List (String × TypeLayout)) (name : String) : Prop := name ∈ memo.map Prod.fst

/-- A type with fields, and going into the types stored in it comes to an end. -/
def Lasting (name : String) : Prop :=
  (Compound.find? platform.repo name).isSome = true ∧ platform.Settled name

/-- What is remembered is right, it stands there once, and with a type the types that are stored in
it are remembered. -/
structure Kept (memo : List (String × TypeLayout)) : Prop where
  sound : platform.Sound memo
  nodup : (memo.map Prod.fst).Nodup
  stored : ∀ outer inner, Has memo outer → platform.Stores outer inner →
    (Compound.find? platform.repo inner).isSome = true → Has memo inner

/-- From one walk to a later one the table is kept and nothing is forgotten. Afterwards there is at
least what had to come in and at most what could, and the walk has become provisional only if it was
not to stay calm. -/
structure Grown (walk walk' : Walk) (least most : String → Prop) (calm : Prop) : Prop where
  kept : platform.Kept walk'.memo
  old : ∀ name, Has walk.memo name → Has walk'.memo name
  least : ∀ name, least name → Has walk'.memo name
  most : ∀ name, Has walk'.memo name → Has walk.memo name ∨ most name
  calm : calm → walk'.provisional = walk.provisional

/-- The step grows any table that is kept. -/
def Adds {α : Type} (step : StateM Walk α) (least most : String → Prop) (calm : Prop) : Prop :=
  ∀ walk : Walk, platform.Kept walk.memo →
    platform.Grown walk (step walk).2 least most calm

/-- The second type is met when the first one is expanded, on a way that enters no type on the
path. -/
def Meets (path : List String) : String → String → Prop :=
  ReflTransGen fun outer inner => platform.Stores outer inner ∧ inner ∉ path

variable {platform}

/-! ## Growing tables -/

theorem has_iff_lookup {memo : List (String × TypeLayout)} {name : String} :
    Has memo name ↔ (memo.lookup name).isSome = true := by
  cases hlookup : memo.lookup name with
  | some layout => exact iff_of_true (List.mem_map_of_mem (Lists.mem_of_lookup hlookup)) rfl
  | none =>
      refine iff_of_false (fun hname => ?_) (by simp)
      obtain ⟨entry, hentry, rfl⟩ := List.mem_map.1 hname
      simpa using List.lookup_eq_none_iff.1 hlookup entry hentry

theorem kept_nil : platform.Kept [] :=
  ⟨sound_nil, List.nodup_nil, fun _ _ h => absurd h List.not_mem_nil⟩

namespace Adds

variable {α β : Type} {least least' most most' : String → Prop} {calm calm' : Prop}

theorem weaken {step : StateM Walk α} (h : platform.Adds step least most calm)
    (hleast : ∀ name, least' name → least name) (hmost : ∀ name, most name → most' name)
    (hcalm : calm' → calm) : platform.Adds step least' most' calm' := by
  intro walk hkept
  have hgrown := h walk hkept
  exact ⟨hgrown.kept, hgrown.old, fun name hname => hgrown.least name (hleast name hname),
    fun name hname => (hgrown.most name hname).imp_right (hmost name),
    fun hquiet => hgrown.calm (hcalm hquiet)⟩

theorem pure (value : α) : platform.Adds (pure value) (fun _ => False) (fun _ => False) True :=
  fun _ hkept => ⟨hkept, fun _ h => h, fun _ h => h.elim, fun _ h => .inl h, fun _ => rfl⟩

theorem bind {step : StateM Walk α} {next : α → StateM Walk β}
    (hstep : platform.Adds step least most calm)
    (hnext : ∀ a, platform.Adds (next a) least' most' calm') :
    platform.Adds (step >>= next) (fun name => least name ∨ least' name)
      (fun name => most name ∨ most' name) (calm ∧ calm') := by
  intro walk hkept
  have hfirst := hstep walk hkept
  have hsecond := hnext (step walk).1 (step walk).2 hfirst.kept
  refine ⟨hsecond.kept, fun name hname => hsecond.old name (hfirst.old name hname), ?_, ?_, ?_⟩
  · rintro name (hname | hname)
    · exact hsecond.old name (hfirst.least name hname)
    · exact hsecond.least name hname
  · intro name hname
    rcases hsecond.most name hname with hmiddle | hnew
    · exact (hfirst.most name hmiddle).imp_right .inl
    · exact .inr (.inr hnew)
  · exact fun hquiet => (hsecond.calm hquiet.2).trans (hfirst.calm hquiet.1)

theorem map {step : StateM Walk α} (f : α → β) (h : platform.Adds step least most calm) :
    platform.Adds (do return f (← step)) least most calm :=
  (h.bind fun a => .pure (f a)).weaken (fun _ => .inl) (fun _ h => h.elim id False.elim)
    fun hquiet => ⟨hquiet, trivial⟩

theorem mapM {step : α → StateM Walk β} {least most : α → String → Prop} {calm : α → Prop}
    {items : List α}
    (h : ∀ item ∈ items, platform.Adds (step item) (least item) (most item) (calm item)) :
    platform.Adds (items.mapM step) (fun name => ∃ item ∈ items, least item name)
      (fun name => ∃ item ∈ items, most item name) (∀ item ∈ items, calm item) := by
  induction items with
  | nil => exact (Adds.pure []).weaken (by simp) (by simp) fun _ => trivial
  | cons item rest ih =>
      rw [List.mapM_cons]
      have hrest := ih fun other hother => h other (List.mem_cons_of_mem item hother)
      refine ((h item List.mem_cons_self).bind fun first => hrest.map (first :: ·)).weaken ?_ ?_ ?_
      · exact fun name hname => by simpa using hname
      · exact fun name hname => by simpa using hname
      · exact List.forall_mem_cons.1

end Adds

/-! ## Slots and fields -/

/-- A step over a slot adds what the step for the type in it does. -/
theorem slotStep_adds {compound : String → StateM Walk TypeLayout}
    {least most : String → String → Prop} {calm : String → Prop} {slot : Slot}
    (h : ∀ inner, slot.compound? = some inner →
      platform.Adds (compound inner) (least inner) (most inner) (calm inner)) :
    platform.Adds (slotStep compound slot)
      (fun name => ∃ inner, slot.compound? = some inner ∧ least inner name)
      (fun name => ∃ inner, slot.compound? = some inner ∧ most inner name)
      (∀ inner, slot.compound? = some inner → calm inner) := by
  induction slot with
  | scalar known =>
      exact (Adds.pure known).weaken (by simp [Slot.compound?]) (by simp) fun _ => trivial
  | nested qualified =>
      refine (h qualified rfl).weaken ?_ (fun name hname => ⟨qualified, rfl, hname⟩)
        fun hcalm => hcalm qualified rfl
      rintro name ⟨inner, hinner, hname⟩
      cases hinner
      exact hname
  | repeated count element ih => exact (ih h).map (·.times count)

section Place

variable {path : List String} {least most : String → String → Prop} {calm : String → Prop}

theorem slot_adds (space : String) (inArray : Bool) (type : TypeRef)
    (h : ∀ inner, (Slot.ofType platform.repo platform.pointerSize space inArray type).compound? =
        some inner →
      platform.Adds (platform.memoized? path inner) (least inner) (most inner) (calm inner)) :
    platform.Adds (Calculator.slot platform path space inArray type)
      (fun name => ∃ inner, (Slot.ofType platform.repo platform.pointerSize space inArray
        type).compound? = some inner ∧ least inner name)
      (fun name => ∃ inner, (Slot.ofType platform.repo platform.pointerSize space inArray
        type).compound? = some inner ∧ most inner name)
      (∀ inner, (Slot.ofType platform.repo platform.pointerSize space inArray type).compound? =
        some inner → calm inner) :=
  slotStep_adds fun inner hinner => (h inner hinner).map (·.getD (.pointer platform.pointerSize))

theorem place_adds (space : String) (kind : RecordKind) (fields : List Field)
    (h : ∀ inner, platform.StoredIn space fields inner →
      platform.Adds (platform.memoized? path inner) (least inner) (most inner) (calm inner)) :
    platform.Adds (Calculator.place platform path space kind fields)
      (fun name => ∃ inner, platform.StoredIn space fields inner ∧ least inner name)
      (fun name => ∃ inner, platform.StoredIn space fields inner ∧ most inner name)
      (∀ inner, platform.StoredIn space fields inner → calm inner) := by
  have hfields := Adds.mapM fun field (hfield : field ∈ fields) =>
    (slot_adds space false field.type fun inner hinner =>
      h inner ⟨field, hfield, hinner⟩).map (field.name, ·)
  refine (hfields.map (Placement.ofKind kind)).weaken ?_ ?_ ?_
  · rintro name ⟨inner, ⟨field, hfield, hinner⟩, hname⟩
    exact ⟨field, hfield, inner, hinner, hname⟩
  · rintro name ⟨field, hfield, inner, hinner, hname⟩
    exact ⟨inner, ⟨field, hfield, hinner⟩, hname⟩
  · exact fun hcalm field hfield inner hinner => hcalm inner ⟨field, hfield, hinner⟩

end Place

/-! ## Declared types -/

theorem Meets.cases {path : List String} {qualified name : String}
    (h : platform.Meets path qualified name) :
    name = qualified ∨ ∃ inner, platform.Stores qualified inner ∧ inner ∉ qualified :: path ∧
      platform.Meets (qualified :: path) inner name := by
  induction h with
  | refl => exact .inl rfl
  | @tail outer inner _ hstep ih =>
      by_cases hself : inner = qualified
      · exact .inl hself
      have hnot : inner ∉ qualified :: path := by simp [hself, hstep.2]
      rcases ih with rfl | ⟨first, hfirst, hfree, hway⟩
      · exact .inr ⟨inner, hstep.1, hnot, .refl⟩
      · exact .inr ⟨first, hfirst, hfree, hway.tail ⟨hstep.1, hnot⟩⟩

theorem Meets.reflTransGen {path : List String} {qualified name : String}
    (h : platform.Meets path qualified name) : ReflTransGen platform.Stores qualified name :=
  ReflTransGen.mono (fun _ _ hstep => hstep.1) _ _ h

theorem Stores.isSome_find? {outer inner : String} (h : platform.Stores outer inner) :
    (Compound.find? platform.repo outer).isSome = true :=
  let ⟨_, hfind, _⟩ := h
  Option.isSome_iff_exists.2 ⟨_, hfind⟩

/-- With a type all types that can be met below it are remembered. -/
theorem Kept.has_of_reflTransGen {memo : List (String × TypeLayout)} (h : platform.Kept memo)
    {qualified name : String} (hhas : Has memo qualified)
    (hway : ReflTransGen platform.Stores qualified name)
    (hfind : (Compound.find? platform.repo name).isSome = true) : Has memo name := by
  induction hway with
  | refl => exact hhas
  | tail _ hstores ih => exact h.stored _ _ (ih hstores.isSome_find?) hstores hfind

theorem has_remember {walk : Walk} {qualified name : String} {layout : TypeLayout} :
    Has (walk.remember qualified layout).memo name ↔ name = qualified ∨ Has walk.memo name := by
  unfold Walk.remember
  split
  next hknown =>
    refine ⟨.inr, ?_⟩
    rintro (rfl | h)
    · exact has_iff_lookup.2 hknown
    · exact h
  next => simp [Has]

theorem Kept.remember {walk : Walk} {qualified : String} {layout : TypeLayout}
    (h : platform.Kept walk.memo) (hsettled : platform.Settled qualified)
    (hlayout : platform.expand? [] qualified = some layout)
    (hstored : ∀ inner, platform.Stores qualified inner →
      (Compound.find? platform.repo inner).isSome = true → Has walk.memo inner) :
    platform.Kept (walk.remember qualified layout).memo := by
  refine ⟨h.sound.remember hsettled hlayout, ?_, fun outer inner houter hstores hfind => ?_⟩
  · unfold Walk.remember
    split
    next => exact h.nodup
    next hnew => exact List.nodup_cons.2 ⟨fun hknown => hnew (has_iff_lookup.1 hknown), h.nodup⟩
  · rcases has_remember.1 houter with rfl | houter
    · exact has_remember.2 (.inr (hstored inner hstores hfind))
    · exact has_remember.2 (.inr (h.stored outer inner houter hstores hfind))

/-- What the expansion of a type on the path adds: all lasting types that it meets, and none that
are not below it. -/
def Explores (platform : Platform) (path : List String) (qualified : String) : Prop :=
  platform.Adds (platform.memoized? path qualified)
    (fun name => qualified ∉ path ∧ platform.Meets path qualified name ∧ platform.Lasting name)
    (ReflTransGen platform.Stores qualified) (platform.Settled qualified)

section Fields

variable {path : List String} {qualified : String} {compound : Compound} {walk : Walk}
  (hfind : Compound.find? platform.repo qualified = some compound)
  (hkept : platform.Kept walk.memo)
include hfind hkept

/-- If the types stored in its fields are explored, the fields of a type add all that is met below
it, but for the type itself. -/
theorem place_grows (h : ∀ inner, platform.StoredIn compound.space compound.fields inner →
    platform.Explores (qualified :: path) inner) :
    platform.Grown { walk with provisional := false }
      (Calculator.place platform (qualified :: path) compound.space compound.kind compound.fields
        { walk with provisional := false }).2
      (fun name => name ≠ qualified ∧ platform.Meets path qualified name ∧ platform.Lasting name)
      (ReflTransGen platform.Stores qualified) (platform.Settled qualified) := by
  have hgrown := place_adds _ compound.kind _ h { walk with provisional := false } hkept
  refine ⟨hgrown.kept, hgrown.old, ?_, fun name hname => ?_, fun hsettled => ?_⟩
  · rintro name ⟨hne, hway, hlasting⟩
    rcases hway.cases with rfl | ⟨inner, hinner, hfree, hway⟩
    · exact absurd rfl hne
    · exact hgrown.least name
        ⟨inner, (stores_iff_storedIn hfind).1 hinner, hfree, hway, hlasting⟩
  · refine (hgrown.most name hname).imp_right ?_
    rintro ⟨inner, hinner, hway⟩
    exact hway.head ((stores_iff_storedIn hfind).2 hinner)
  · exact hgrown.calm fun inner hinner =>
      hsettled.stored ((stores_iff_storedIn hfind).2 hinner)

/-- What is found out about the fields of a type is its layout, if it is settled, and the walk stays
calm only then. -/
theorem layout_place (hmem : qualified ∉ path)
    (hopen : ∀ outer ∈ path, TransGen platform.Stores outer qualified) :
    let placed := Calculator.place platform (qualified :: path) compound.space compound.kind
      compound.fields { walk with provisional := false }
    (placed.2.provisional = false → platform.Settled qualified) ∧
      (platform.Settled qualified → platform.expand? [] qualified = some placed.1.2) := by
  have hgives : platform.Gives
      (Calculator.place platform (qualified :: path) compound.space compound.kind compound.fields)
      _ _ :=
    place_gives fun inner hinner =>
      memoized?_gives (transGen_of_mem_cons hopen ((stores_iff_storedIn hfind).2 hinner))
  obtain ⟨hplaced, _, hcondition⟩ := hgives { walk with provisional := false } hkept.sound
  refine ⟨fun hcalm => settled_of_find?_eq_some hfind (hcondition hcalm).2, fun hsettled => ?_⟩
  rw [← hsettled.expand?_eq hopen, hplaced]
  exact expand?_of_find?_eq_some hmem hfind

end Fields

/-- When all that is met below a type is known, and the walk is provisional just if the type is not
settled, the type is remembered if it is to be. -/
theorem Grown.close {path : List String} {qualified : String} {walk walk' : Walk}
    {layout : TypeLayout} (hopen : ∀ outer ∈ path, TransGen platform.Stores outer qualified)
    (hgrown : platform.Grown { walk with provisional := false } walk'
      (fun name => name ≠ qualified ∧ platform.Meets path qualified name ∧ platform.Lasting name)
      (ReflTransGen platform.Stores qualified) (platform.Settled qualified))
    (hcalm : walk'.provisional = false → platform.Settled qualified)
    (hlayout : platform.Settled qualified → platform.expand? [] qualified = some layout) :
    platform.Grown walk (walk'.close walk.provisional qualified layout)
      (fun name => platform.Meets path qualified name ∧ platform.Lasting name)
      (ReflTransGen platform.Stores qualified) (platform.Settled qualified) := by
  cases hprovisional : walk'.provisional with
  | true =>
      have hunsettled : ¬ platform.Settled qualified := fun hsettled =>
        Bool.false_ne_true ((hgrown.calm hsettled).symm.trans hprovisional)
      have hclose : walk'.close walk.provisional qualified layout = walk' := by
        rw [Walk.close, if_pos hprovisional]
      rw [hclose]
      refine ⟨hgrown.kept, hgrown.old, fun name hname => hgrown.least name ⟨?_, hname⟩,
        hgrown.most, fun h => absurd h hunsettled⟩
      rintro rfl
      exact hunsettled hname.2.2
  | false =>
      have hsettled := hcalm hprovisional
      have hclose : walk'.close walk.provisional qualified layout =
          { walk'.remember qualified layout with provisional := walk.provisional } := by
        rw [Walk.close, if_neg (by simp [hprovisional])]
      rw [hclose]
      refine ⟨hgrown.kept.remember hsettled (hlayout hsettled) fun inner hinner hcompound => ?_,
        fun name hname => has_remember.2 (.inr (hgrown.old name hname)),
        fun name hname => has_remember.2 ?_, fun name hname => ?_, fun _ => rfl⟩
      · -- what is stored in a settled type is not open, nor is it the type itself
        have hinnerSettled := hsettled.stored hinner
        have hfree : inner ∉ qualified :: path := fun hmem =>
          hinnerSettled.not_transGen (transGen_of_mem_cons hopen hinner inner hmem)
        rw [List.mem_cons, not_or] at hfree
        exact hgrown.least inner
          ⟨hfree.1, .single ⟨hinner, hfree.2⟩, hcompound, hinnerSettled⟩
      · by_cases hself : name = qualified
        · exact .inl hself
        · exact .inr (hgrown.least name ⟨hself, hname⟩)
      · rcases has_remember.1 hname with rfl | hhas
        · exact .inr .refl
        · exact hgrown.most name hhas

/-- The end of the expansion of a type with fields whose stored types are explored. -/
theorem place_grown {path : List String} {qualified : String} {compound : Compound} (walk : Walk)
    (hfind : Compound.find? platform.repo qualified = some compound) (hmem : qualified ∉ path)
    (hopen : ∀ outer ∈ path, TransGen platform.Stores outer qualified)
    (h : ∀ inner, platform.StoredIn compound.space compound.fields inner →
      platform.Explores (qualified :: path) inner)
    (hkept : platform.Kept walk.memo) :
    let placed := Calculator.place platform (qualified :: path) compound.space compound.kind
      compound.fields { walk with provisional := false }
    platform.Grown walk (placed.2.close walk.provisional qualified placed.1.2)
      (fun name => platform.Meets path qualified name ∧ platform.Lasting name)
      (ReflTransGen platform.Stores qualified) (platform.Settled qualified) :=
  have hlayout := layout_place hfind hkept hmem hopen
  (place_grows hfind hkept h).close hopen hlayout.1 hlayout.2

/-- A type met below types that store it is explored: by induction on how many declared names are
not open. -/
theorem explores {path : List String} {qualified : String}
    (hopen : ∀ outer ∈ path, TransGen platform.Stores outer qualified) :
    platform.Explores path qualified := by
  induction hmeasure : platform.repo.remaining path using Nat.strongRecOn
    generalizing path qualified with
  | ind bound ih =>
      intro walk hkept
      cases hlookup : walk.memo.lookup qualified with
      | some layout =>
          rw [memoized?_of_lookup hlookup]
          have hhas : Has walk.memo qualified := has_iff_lookup.2 (by rw [hlookup]; rfl)
          exact ⟨hkept, fun _ h => h, fun name hname =>
            hkept.has_of_reflTransGen hhas hname.2.1.reflTransGen hname.2.2.1,
            fun _ h => .inl h, fun _ => rfl⟩
      | none =>
          by_cases hmem : qualified ∈ path
          -- an open type is not expanded again, and it is not settled
          · rw [memoized?_of_mem hlookup hmem]
            exact ⟨hkept, fun _ h => h, fun _ h => absurd hmem h.1, fun _ h => .inl h,
              fun hsettled => absurd (hopen qualified hmem) hsettled.not_transGen⟩
          rw [memoized?_of_lookup_eq_none hlookup hmem]
          cases hfind : Compound.find? platform.repo qualified with
          | none =>
              refine ⟨hkept, fun _ h => h, fun name hname => ?_, fun _ h => .inl h, fun _ => rfl⟩
              obtain ⟨_, hway, hlasting⟩ := hname
              rcases hway.cases with rfl | ⟨inner, hinner, _⟩
              · simpa [hfind] using hlasting.1
              · simpa [hfind] using hinner.isSome_find?
          | some compound =>
              obtain ⟨type, htype⟩ := resolveQualified?_of_find? hfind
              have hnot : path.contains qualified = false := by simpa using hmem
              have hless := Repository.remaining_cons_lt htype hnot
              have hinner := fun inner (hstored : platform.StoredIn compound.space _ inner) =>
                ih _ (hmeasure ▸ hless)
                  (transGen_of_mem_cons hopen ⟨compound, hfind, hstored⟩) rfl
              have hgrown := place_grown _ hfind hmem hopen hinner hkept
              exact ⟨hgrown.kept, hgrown.old, fun name hname => hgrown.least name hname.2,
                hgrown.most, hgrown.calm⟩

/-- From nowhere in particular every lasting type below is met. -/
theorem explores_all (qualified : String) :
    platform.Adds (platform.memoized? [] qualified)
      (fun name => ReflTransGen platform.Stores qualified name ∧ platform.Lasting name)
      (ReflTransGen platform.Stores qualified) False := by
  have hexplores : platform.Explores [] qualified := explores (by simp)
  refine hexplores.weaken (fun name hname => ⟨List.not_mem_nil, ?_, hname.2⟩) (fun _ h => h)
    False.elim
  exact ReflTransGen.mono (fun _ _ hstores => ⟨hstores, List.not_mem_nil⟩) _ _ hname.1

theorem lasting_iff {name : String} :
    platform.Lasting name ↔
      (Compound.find? platform.repo name).isSome = true ∧ platform.Acyclic name :=
  and_congr_right fun _ => ⟨fun h _ hbelow => (h.of_reflTransGen hbelow).not_transGen,
    Acyclic.settled⟩

end Platform

/-! ## Questions -/

/-- The types that a question starts from: the one it asks about, or those that the given fields or
a value of the given type hold in place. -/
def LayoutQuery.Starts (platform : Platform) : LayoutQuery → String → Prop
  | .typeLayout qualified | .typeSize qualified | .recordShape qualified => (· = qualified)
  | .fields space _ members _ | .recordSize space _ members => platform.StoredIn space members
  | .fieldType space type => fun name =>
    (Slot.ofType platform.repo platform.pointerSize space false type).compound? = some name
  | .element space type => fun name =>
    (Slot.ofType platform.repo platform.pointerSize space true type).compound? = some name

/-- The question leads to the type: it starts from a type that stores it, at any depth. -/
def LayoutQuery.LeadsTo (platform : Platform) (query : LayoutQuery) (name : String) : Prop :=
  ∃ start, query.Starts platform start ∧ ReflTransGen platform.Stores start name

namespace Calculator

open Platform

variable {calculator : Calculator} {α β : Type}

/-- A question that starts from the given types was answered: the table is kept, and what has come
in are the lasting types below them. -/
structure Learns (calculator calculator' : Calculator) (Starts : String → Prop) : Prop where
  platform : calculator'.platform = calculator.platform
  kept : calculator.platform.Kept calculator'.memo
  has_iff : ∀ name, Has calculator'.memo name ↔ Has calculator.memo name ∨
    (∃ start, Starts start ∧ ReflTransGen calculator.platform.Stores start name) ∧
      calculator.platform.Lasting name

/-- A kept table has lasting types only. -/
theorem lasting_of_kept {platform : Platform} {memo : List (String × TypeLayout)}
    (h : platform.Kept memo) {name : String} (hhas : Has memo name) : platform.Lasting name := by
  obtain ⟨layout, hlookup⟩ := Option.isSome_iff_exists.1 (has_iff_lookup.1 hhas)
  obtain ⟨hsettled, hlayout⟩ := h.sound name layout hlookup
  refine ⟨?_, hsettled⟩
  cases hfind : Compound.find? platform.repo name with
  | some compound => rfl
  | none =>
      rw [expand?_of_find?_eq_none List.not_mem_nil hfind] at hlayout
      cases hlayout

theorem learns_of_grown {walk : Walk} {Starts : String → Prop}
    (h : calculator.platform.Grown ⟨calculator.memo, false⟩ walk
      (fun name => ∃ start, Starts start ∧ ReflTransGen calculator.platform.Stores start name ∧
        calculator.platform.Lasting name)
      (fun name => ∃ start, Starts start ∧ ReflTransGen calculator.platform.Stores start name)
      False) :
    calculator.Learns { calculator with memo := walk.memo } Starts := by
  refine ⟨rfl, h.kept, fun name => ⟨fun hname => ?_, ?_⟩⟩
  · exact (h.most name hname).imp_right fun hbelow => ⟨hbelow, lasting_of_kept h.kept hname⟩
  · rintro (hold | ⟨⟨start, hstart, hbelow⟩, hlasting⟩)
    · exact h.old name hold
    · exact h.least name ⟨start, hstart, hbelow, hlasting⟩

theorem query_learns {step : StateM Walk α} {Starts : String → Prop}
    (hkept : calculator.platform.Kept calculator.memo)
    (h : calculator.platform.Adds step
      (fun name => ∃ start, Starts start ∧ ReflTransGen calculator.platform.Stores start name ∧
        calculator.platform.Lasting name)
      (fun name => ∃ start, Starts start ∧ ReflTransGen calculator.platform.Stores start name)
      False) :
    calculator.Learns (calculator.query step).2 Starts :=
  learns_of_grown (h ⟨calculator.memo, false⟩ hkept)

theorem typeLayout?_learns (hkept : calculator.platform.Kept calculator.memo)
    (qualified : String) :
    calculator.Learns (calculator.typeLayout? qualified).2 (· = qualified) :=
  query_learns hkept ((explores_all qualified).weaken (by simp) (by simp) id)

theorem place_learns (f : List FieldLayout × TypeLayout → α)
    (hkept : calculator.platform.Kept calculator.memo) (space : String) (kind : RecordKind)
    (fields : List Field) :
    calculator.Learns (calculator.query do
      return f (← place calculator.platform [] space kind fields)).2
      (calculator.platform.StoredIn space fields) :=
  query_learns hkept <| ((place_adds _ _ _ fun inner _ => explores_all inner).map f).weaken
    (fun _ h => h) (fun _ h => h) False.elim

theorem slot_learns (hkept : calculator.platform.Kept calculator.memo) (space : String)
    (inArray : Bool) (type : TypeRef) :
    calculator.Learns (calculator.query (slot calculator.platform [] space inArray type)).2
      fun name => (Slot.ofType calculator.platform.repo calculator.platform.pointerSize space
        inArray type).compound? = some name :=
  query_learns hkept <| (slot_adds _ _ _ fun inner _ => explores_all inner).weaken
    (fun _ h => h) (fun _ h => h) False.elim

theorem recordShape?_learns (hkept : calculator.platform.Kept calculator.memo)
    (qualified : String) :
    calculator.Learns (calculator.recordShape? qualified).2 (· = qualified) := by
  cases hfind : Compound.find? calculator.platform.repo qualified with
  | none =>
      simp only [recordShape?, hfind]
      refine ⟨rfl, hkept, fun name => ⟨.inl, ?_⟩⟩
      rintro (hold | ⟨⟨start, rfl, hbelow⟩, hlasting⟩)
      · exact hold
      · -- nothing is stored in a type without fields
        rcases ReflTransGen.cases_head hbelow with rfl | ⟨inner, hinner, _⟩
        · simpa [hfind] using hlasting.1
        · simpa [hfind] using hinner.isSome_find?
  | some compound =>
      have hopen : ∀ outer ∈ [], TransGen calculator.platform.Stores outer qualified := by simp
      have hinner := fun inner
          (hstored : calculator.platform.StoredIn compound.space compound.fields inner) =>
        explores (transGen_of_mem_cons hopen ⟨compound, hfind, hstored⟩)
      have hgrown := place_grown ⟨calculator.memo, false⟩ hfind List.not_mem_nil hopen hinner hkept
      have hreply : (calculator.recordShape? qualified).2 = { calculator with
          memo := ((place calculator.platform [qualified] compound.space compound.kind
            compound.fields ⟨calculator.memo, false⟩).2.close false qualified
              (place calculator.platform [qualified] compound.space compound.kind
                compound.fields ⟨calculator.memo, false⟩).1.2).memo } := by
        simp only [recordShape?, hfind]
        rfl
      rw [hreply]
      refine learns_of_grown ⟨hgrown.kept, hgrown.old, ?_, ?_, False.elim⟩
      · rintro name ⟨_, rfl, hbelow, hlasting⟩
        refine hgrown.least name ⟨?_, hlasting⟩
        exact ReflTransGen.mono (fun _ _ hstores => ⟨hstores, List.not_mem_nil⟩) _ _ hbelow
      · exact fun name hname => (hgrown.most name hname).imp_right fun h => ⟨_, rfl, h⟩

theorem answer_learns (hkept : calculator.platform.Kept calculator.memo) (query : LayoutQuery) :
    calculator.Learns (calculator.answer query).2 (query.Starts calculator.platform) := by
  cases query with
  | typeLayout qualified => exact typeLayout?_learns hkept qualified
  | typeSize qualified => exact typeLayout?_learns hkept qualified
  | recordShape qualified => exact recordShape?_learns hkept qualified
  | fields space kind fields hidden =>
      exact place_learns (fun placed =>
        if hidden then placed.1 else Compound.shownOnly fields placed.1) hkept space kind fields
  | recordSize space kind fields => exact place_learns (·.2.size) hkept space kind fields
  | fieldType space type => exact slot_learns hkept space false type
  | element space type => exact slot_learns hkept space true type

/-- What is learned from two questions is what is below the types that either starts from. -/
theorem Learns.trans {calculator' calculator'' : Calculator} {Starts Starts' : String → Prop}
    (h : calculator.Learns calculator' Starts) (h' : calculator'.Learns calculator'' Starts') :
    calculator.Learns calculator'' fun name => Starts name ∨ Starts' name := by
  obtain ⟨hplatform, hkept, hhas⟩ := h'
  rw [h.platform] at hplatform hkept
  refine ⟨hplatform, hkept, fun name => ?_⟩
  rw [hhas, h.has_iff, h.platform]
  simp only [or_and_right, exists_or, or_assoc]

theorem answers_learns (calculator : Calculator)
    (hkept : calculator.platform.Kept calculator.memo) (queries : List LayoutQuery) :
    calculator.Learns (calculator.answers queries).2
      fun name => ∃ query ∈ queries, query.Starts calculator.platform name := by
  induction queries generalizing calculator with
  | nil => exact ⟨rfl, hkept, fun name => by simp [answers]⟩
  | cons query rest ih =>
      have hfirst := answer_learns hkept query
      have hrest := ih (calculator.answer query).2
        (by rw [hfirst.platform]; exact hfirst.kept)
      rw [hfirst.platform] at hrest
      have hstarts : (fun name => ∃ other ∈ query :: rest, other.Starts calculator.platform name) =
          fun name => query.Starts calculator.platform name ∨
            ∃ other ∈ rest, other.Starts calculator.platform name := by
        funext name
        simp
      rw [hstarts]
      exact hfirst.trans hrest

/-- After any questions a calculator remembers just the types with fields that a question has led to
and from which no by-value cycle can be reached, each of them once. -/
theorem mem_memo_answers_iff (platform : Platform) (queries : List LayoutQuery) :
    ((platform.calculator.answers queries).2.memo.map Prod.fst).Nodup ∧
      ∀ name, name ∈ (platform.calculator.answers queries).2.memo.map Prod.fst ↔
        (∃ compound, Compound.find? platform.repo name = some compound) ∧
          (∃ query ∈ queries, query.LeadsTo platform name) ∧ platform.Acyclic name := by
  have hlearns := answers_learns platform.calculator kept_nil queries
  refine ⟨hlearns.kept.nodup, fun name => (hlearns.has_iff name).trans ?_⟩
  rw [lasting_iff, Option.isSome_iff_exists]
  constructor
  · rintro (hnone | ⟨⟨start, ⟨query, hquery, hstart⟩, hbelow⟩, hfind, hacyclic⟩)
    · cases hnone
    · exact ⟨hfind, ⟨query, hquery, start, hstart, hbelow⟩, hacyclic⟩
  · rintro ⟨hfind, ⟨query, hquery, start, hstart, hbelow⟩, hacyclic⟩
    exact .inr ⟨⟨start, ⟨query, hquery, hstart⟩, hbelow⟩, hfind, hacyclic⟩

/-- A type that contains itself, and a pair beside it. -/
def selfish : Platform where
  repo := .ofSpaces [{
    name := "Cyc"
    records := [
      { name := "Loop"
        fields := [.shown "me" ((TypeRef.named "Loop").withCType "CycLoop"),
          .shown "pair" ((TypeRef.named "Pair").withCType "CycPair")] },
      { name := "Pair", fields := [.shown "x" (.named "gint32"), .shown "y" (.named "gint32")] }] }]
  pointerSize := 8

example : (selfish.calculator.answers [.typeLayout "Cyc.Loop"]).2.memo.map Prod.fst =
    ["Cyc.Pair"] := by decide +kernel

end Calculator

end Interop
