import Interop.Layout.Query
import Interop.Proofs.Layout.Nesting

/-! # Remembered layouts

A calculator gives the layouts that the plain expansion gives, whatever it has remembered. It
remembers a type only if no type met in its expansion was open, so that type is settled, and a
settled type has one layout wherever it is met.
-/

namespace Interop

open Schema Relation

namespace Platform

variable (platform : Platform)

/-- What is remembered is the layout of a settled type. -/
def Sound (memo : List (String × TypeLayout)) : Prop :=
  ∀ qualified layout, memo.lookup qualified = some layout →
    platform.Settled qualified ∧ platform.expand? [] qualified = some layout

/-- On a sound memo the step gives the value and leaves a sound memo. If nothing is provisional
behind it, nothing was before it, and the condition holds. -/
def Gives {α : Type} (step : StateM Walk α) (value : α) (condition : Prop) : Prop :=
  ∀ walk : Walk, platform.Sound walk.memo →
    (step walk).1 = value ∧ platform.Sound (step walk).2.memo ∧
      ((step walk).2.provisional = false → walk.provisional = false ∧ condition)

variable {platform}

theorem sound_nil : platform.Sound [] := by
  intro qualified layout h
  simp at h

theorem Sound.remember {walk : Walk} {qualified : String} {layout : TypeLayout}
    (h : platform.Sound walk.memo) (hsettled : platform.Settled qualified)
    (hlayout : platform.expand? [] qualified = some layout) :
    platform.Sound (walk.remember qualified layout).memo := by
  unfold Walk.remember
  split
  next => exact h
  next =>
    intro other found hfound
    rw [List.lookup_cons] at hfound
    cases hsame : other == qualified with
    | true =>
        rw [hsame] at hfound
        rw [eq_of_beq hsame]
        exact ⟨hsettled, hlayout.trans hfound⟩
    | false =>
        rw [hsame] at hfound
        exact h other found hfound

namespace Gives

variable {α β : Type} {condition condition' : Prop}

theorem pure (value : α) : platform.Gives (pure value) value True :=
  fun _ hsound => ⟨rfl, hsound, fun h => ⟨h, trivial⟩⟩

theorem bind {step : StateM Walk α} {next : α → StateM Walk β} {a : α} {b : β}
    (hstep : platform.Gives step a condition) (hnext : platform.Gives (next a) b condition') :
    platform.Gives (step >>= next) b (condition ∧ condition') := by
  intro walk hsound
  obtain ⟨hvalue, hsound, hcondition⟩ := hstep walk hsound
  obtain ⟨hvalue', hsound', hcondition'⟩ := hnext (step walk).2 hsound
  have hrun : (step >>= next) walk = next a (step walk).2 := by rw [← hvalue]; rfl
  rw [hrun]
  refine ⟨hvalue', hsound', fun h => ?_⟩
  have hmiddle := hcondition' h
  exact ⟨(hcondition hmiddle.1).1, (hcondition hmiddle.1).2, hmiddle.2⟩

theorem weaken {step : StateM Walk α} {a : α} (h : platform.Gives step a condition)
    (himp : condition → condition') : platform.Gives step a condition' := by
  intro walk hsound
  obtain ⟨hvalue, hsound, hcondition⟩ := h walk hsound
  exact ⟨hvalue, hsound, fun hnone => (hcondition hnone).imp_right himp⟩

/-- A step followed by a pure function of its value. -/
theorem map {step : StateM Walk α} {a : α} (f : α → β) (h : platform.Gives step a condition) :
    platform.Gives (do return f (← step)) (f a) condition :=
  (h.bind (.pure (f a))).weaken And.left

theorem mapM {step : α → StateM Walk β} {value : α → β} {condition : α → Prop} {items : List α}
    (h : ∀ item ∈ items, platform.Gives (step item) (value item) (condition item)) :
    platform.Gives (items.mapM step) (items.map value) (∀ item ∈ items, condition item) := by
  induction items with
  | nil => exact (Gives.pure []).weaken (by simp)
  | cons item rest ih =>
      rw [List.mapM_cons, List.map_cons]
      have hrest := ih fun other hother => h other (List.mem_cons_of_mem item hother)
      refine ((h item List.mem_cons_self).bind (hrest.map (value item :: ·))).weaken ?_
      rintro ⟨hitem, hrest⟩
      exact List.forall_mem_cons.2 ⟨hitem, hrest⟩

end Gives

/-! ## Slots and fields -/

/-- What a step over slots needs of the step for compound types. -/
theorem slotStep_gives {compound : String → StateM Walk TypeLayout} {layout : String → TypeLayout}
    {condition : String → Prop} {slot : Slot}
    (h : ∀ inner, slot.compound? = some inner →
      platform.Gives (compound inner) (layout inner) (condition inner)) :
    platform.Gives (slotStep compound slot) (slot.layout layout)
      (∀ inner, slot.compound? = some inner → condition inner) := by
  induction slot with
  | scalar known => exact (Gives.pure known).weaken (by simp [Slot.compound?])
  | nested qualified =>
      refine (h qualified rfl).weaken fun hcondition inner hinner => ?_
      rw [Slot.compound?, Option.some.injEq] at hinner
      exact hinner ▸ hcondition
  | repeated count element ih => exact (ih h).map (·.times count)

theorem slot_gives {path : List String} {space : String} {inArray : Bool} {type : TypeRef}
    (h : ∀ inner, (Slot.ofType platform.repo platform.pointerSize space inArray type).compound? =
        some inner →
      platform.Gives (platform.memoized? path inner) (platform.expand? path inner)
        (platform.Settled inner)) :
    platform.Gives (Calculator.slot platform path space inArray type)
      (platform.slotLayout path space inArray type)
      (∀ inner, (Slot.ofType platform.repo platform.pointerSize space inArray type).compound? =
        some inner → platform.Settled inner) :=
  slotStep_gives fun inner hinner => (h inner hinner).map (·.getD (.pointer platform.pointerSize))

theorem place_gives {path : List String} {space : String} {kind : RecordKind} {fields : List Field}
    (h : ∀ inner, platform.StoredIn space fields inner →
      platform.Gives (platform.memoized? path inner) (platform.expand? path inner)
        (platform.Settled inner)) :
    platform.Gives (Calculator.place platform path space kind fields)
      (platform.place path space kind fields)
      (∀ inner, platform.StoredIn space fields inner → platform.Settled inner) := by
  have hfields : platform.Gives
      (fields.mapM fun field => do
        return (field.name, ← Calculator.slot platform path space false field.type))
      (fields.map fun field => (field.name, platform.slotLayout path space false field.type)) _ :=
    Gives.mapM fun field hfield =>
      (slot_gives fun inner hinner => h inner ⟨field, hfield, hinner⟩).map (field.name, ·)
  refine (hfields.map (Placement.ofKind kind)).weaken ?_
  rintro hsettled inner ⟨field, hfield, hinner⟩
  exact hsettled field hfield inner hinner

/-! ## Declared types -/

theorem memoized?_of_lookup {path : List String} {qualified : String} {walk : Walk}
    {layout : TypeLayout} (h : walk.memo.lookup qualified = some layout) :
    platform.memoized? path qualified walk = (some layout, walk) := by
  rw [memoized?]
  simp only [bind, StateT.bind, get, getThe, MonadStateOf.get, StateT.get, pure, h]
  rfl

theorem memoized?_of_mem {path : List String} {qualified : String} {walk : Walk}
    (hnone : walk.memo.lookup qualified = none) (hmem : qualified ∈ path) :
    platform.memoized? path qualified walk =
      (some (.pointer platform.pointerSize), { walk with provisional := true }) := by
  rw [memoized?]
  have hcontains : path.contains qualified = true := by simpa using hmem
  simp only [bind, StateT.bind, get, getThe, MonadStateOf.get, StateT.get, pure, hnone, hcontains]
  rfl

/-- The expansion of a compound type that is neither remembered nor open. -/
def expansion (platform : Platform) (path : List String) (qualified : String)
    (compound : Compound) : StateM Walk (Option TypeLayout) := do
  let outer := (← get).provisional
  modify fun walk => { walk with provisional := false }
  let placed ← Calculator.place platform (qualified :: path) compound.space compound.kind
    compound.fields
  modify fun walk => walk.close outer qualified placed.2
  return some placed.2

theorem memoized?_of_lookup_eq_none {path : List String} {qualified : String} {walk : Walk}
    (hnone : walk.memo.lookup qualified = none) (hmem : qualified ∉ path) :
    platform.memoized? path qualified walk =
      (match Compound.find? platform.repo qualified with
      | none => pure none
      | some compound => platform.expansion path qualified compound : StateM Walk _) walk := by
  rw [memoized?]
  have hcontains : ¬ path.contains qualified = true := by simpa using hmem
  simp only [bind, StateT.bind, get, getThe, MonadStateOf.get, StateT.get, pure, hnone,
    dif_neg hcontains]
  refine congrFun ?_ walk
  split
  next hfind => rw [hfind]
  next compound hfind =>
    rw [hfind]
    simp only [Compound.slots, List.mapM_map]
    rfl

/-- Closing an expansion keeps the memo sound: what saw nothing provisional may be remembered. -/
theorem Sound.close {walk : Walk} {outer : Bool} {qualified : String} {layout : TypeLayout}
    (h : platform.Sound walk.memo)
    (hsettled : walk.provisional = false → platform.Settled qualified)
    (hlayout : platform.Settled qualified → platform.expand? [] qualified = some layout) :
    platform.Sound (walk.close outer qualified layout).memo ∧
      ((walk.close outer qualified layout).provisional = false →
        outer = false ∧ platform.Settled qualified) := by
  unfold Walk.close
  split
  next hprovisional => exact ⟨h, fun hnone => absurd (hprovisional.symm.trans hnone) (by simp)⟩
  next hprovisional =>
    have hdone := hsettled (by simpa using hprovisional)
    exact ⟨h.remember hdone (hlayout hdone), fun hnone => ⟨hnone, hdone⟩⟩

/-- The end of the expansion of a compound type whose stored types are expanded rightly. -/
theorem place_close {path : List String} {qualified : String} {compound : Compound} (walk : Walk)
    (outer : Bool) (hfind : Compound.find? platform.repo qualified = some compound)
    (hmem : qualified ∉ path)
    (hopen : ∀ outer ∈ path, TransGen platform.Stores outer qualified)
    (h : ∀ inner, platform.StoredIn compound.space compound.fields inner →
      platform.Gives (platform.memoized? (qualified :: path) inner)
        (platform.expand? (qualified :: path) inner) (platform.Settled inner))
    (hsound : platform.Sound walk.memo) :
    let placed := Calculator.place platform (qualified :: path) compound.space compound.kind
      compound.fields walk
    placed.1 = platform.place (qualified :: path) compound.space compound.kind compound.fields ∧
      platform.Sound (placed.2.close outer qualified placed.1.2).memo ∧
      ((placed.2.close outer qualified placed.1.2).provisional = false →
        outer = false ∧ platform.Settled qualified) := by
  intro placed
  obtain ⟨hplaced, hsound, hsettled⟩ := place_gives h walk hsound
  have hlayout := expand?_of_find?_eq_some hmem hfind
  rw [← hplaced] at hlayout
  refine ⟨hplaced, hsound.close ?_ ?_⟩
  · exact fun hnone => settled_of_find?_eq_some hfind (hsettled hnone).2
  · exact fun hdone => (hdone.expand?_eq hopen).symm.trans hlayout

/-- What is stored in a type is met below it and below all that is met above it. -/
theorem transGen_of_mem_cons {path : List String} {qualified inner : String}
    (hopen : ∀ outer ∈ path, TransGen platform.Stores outer qualified)
    (hstores : platform.Stores qualified inner) :
    ∀ outer ∈ qualified :: path, TransGen platform.Stores outer inner :=
  List.forall_mem_cons.2
    ⟨.single hstores, fun outer houter => (hopen outer houter).tail hstores⟩

/-- The expansion of a type met below types that store it gives its layout, and finds nothing
provisional only if the type is settled. -/
theorem memoized?_gives {path : List String} {qualified : String}
    (hopen : ∀ outer ∈ path, TransGen platform.Stores outer qualified) :
    platform.Gives (platform.memoized? path qualified) (platform.expand? path qualified)
      (platform.Settled qualified) := by
  induction hmeasure : platform.repo.remaining path using Nat.strongRecOn
    generalizing path qualified with
  | ind bound ih =>
      intro walk hsound
      cases hlookup : walk.memo.lookup qualified with
      | some layout =>
          obtain ⟨hsettled, hlayout⟩ := hsound qualified layout hlookup
          -- it was found below other open types, which makes no difference if it is settled
          rw [memoized?_of_lookup hlookup, hsettled.expand?_eq hopen]
          exact ⟨hlayout.symm, hsound, fun h => ⟨h, hsettled⟩⟩
      | none =>
          by_cases hmem : qualified ∈ path
          · rw [memoized?_of_mem hlookup hmem, expand?_of_mem hmem]
            exact ⟨rfl, hsound, fun h => absurd h (by simp)⟩
          rw [memoized?_of_lookup_eq_none hlookup hmem]
          cases hfind : Compound.find? platform.repo qualified with
          | none =>
              rw [expand?_of_find?_eq_none hmem hfind]
              exact ⟨rfl, hsound, fun h => ⟨h, settled_of_find?_eq_none hfind⟩⟩
          | some compound =>
              obtain ⟨type, htype⟩ := resolveQualified?_of_find? hfind
              have hnot : path.contains qualified = false := by simpa using hmem
              have hless := Repository.remaining_cons_lt htype hnot
              have hinner := fun inner (hstored : platform.StoredIn compound.space _ inner) =>
                ih _ (hmeasure ▸ hless)
                  (transGen_of_mem_cons hopen ⟨compound, hfind, hstored⟩) rfl
              -- the mark of the expansion around it is set aside until this one is closed
              obtain ⟨hplaced, hclosed⟩ := place_close { walk with provisional := false }
                walk.provisional hfind hmem hopen hinner hsound
              rw [expand?_of_find?_eq_some hmem hfind, ← hplaced]
              exact ⟨rfl, hclosed⟩

end Platform

/-! ## Questions -/

namespace Calculator

variable {α : Type} {calculator : Calculator}

/-- What a calculator remembers is right. -/
def Sound (calculator : Calculator) : Prop := calculator.platform.Sound calculator.memo

/-- The answer is the given one, and the calculator behind it is as good as the one before. -/
def Replies (calculator : Calculator) (reply : α × Calculator) (answer : α) : Prop :=
  reply.1 = answer ∧ reply.2.platform = calculator.platform ∧ reply.2.Sound

theorem Replies.map {β : Type} {reply : α × Calculator} {answer : α} (f : α → β)
    (h : calculator.Replies reply answer) : calculator.Replies (reply.map f id) (f answer) :=
  ⟨congrArg f h.1, h.2⟩

theorem query_replies {step : StateM Walk α} {answer : α} {condition : Prop}
    (hsound : calculator.Sound) (h : calculator.platform.Gives step answer condition) :
    calculator.Replies (calculator.query step) answer :=
  let ⟨hanswer, hmemo, _⟩ := h ⟨calculator.memo, false⟩ hsound
  ⟨hanswer, rfl, hmemo⟩

theorem place_gives (platform : Platform) (space : String) (kind : RecordKind)
    (fields : List Field) :
    platform.Gives (place platform [] space kind fields) (platform.place [] space kind fields)
      (∀ inner, platform.StoredIn space fields inner → platform.Settled inner) :=
  Platform.place_gives fun _ _ => Platform.memoized?_gives (by simp)

theorem slot_gives (platform : Platform) (space : String) (inArray : Bool) (type : TypeRef) :
    ∃ condition, platform.Gives (slot platform [] space inArray type)
      (platform.slotLayout [] space inArray type) condition :=
  ⟨_, Platform.slot_gives fun _ _ => Platform.memoized?_gives (by simp)⟩

theorem typeLayout?_replies (hsound : calculator.Sound) (qualified : String) :
    calculator.Replies (calculator.typeLayout? qualified)
      (calculator.platform.typeLayout? qualified) :=
  query_replies hsound (Platform.memoized?_gives (by simp))

theorem recordShape?_replies (hsound : calculator.Sound) (qualified : String) :
    calculator.Replies (calculator.recordShape? qualified)
      (calculator.platform.recordShape? qualified) := by
  cases hfind : Compound.find? calculator.platform.repo qualified with
  | none =>
      simp only [recordShape?, Platform.recordShape?, hfind]
      exact ⟨rfl, rfl, hsound⟩
  | some compound =>
      have hopen : ∀ outer ∈ [], TransGen calculator.platform.Stores outer qualified := by simp
      have hinner := fun inner (hstored : calculator.platform.StoredIn compound.space _ inner) =>
        Platform.memoized?_gives
          (Platform.transGen_of_mem_cons hopen ⟨compound, hfind, hstored⟩)
      obtain ⟨hplaced, hsound, _⟩ := Platform.place_close ⟨calculator.memo, false⟩ false hfind
        (by simp) hopen hinner hsound
      simp only [recordShape?, Platform.recordShape?, hfind]
      exact ⟨congrArg (some ∘ compound.shape) hplaced, rfl, hsound⟩

theorem layout_replies (hsound : calculator.Sound) (space : String) (kind : RecordKind)
    (fields : List Field) (hidden : Bool) :
    calculator.Replies (calculator.layout space kind fields hidden)
      (if hidden then (calculator.platform.place [] space kind fields).1
      else Compound.shownOnly fields (calculator.platform.place [] space kind fields).1) :=
  query_replies hsound ((place_gives _ space kind fields).map fun placed =>
    if hidden then placed.1 else Compound.shownOnly fields placed.1)

theorem typeSize_replies (hsound : calculator.Sound) (qualified : String) :
    calculator.Replies (calculator.typeSize qualified)
      (calculator.platform.typeSize qualified) := by
  obtain ⟨hlayout, hnext⟩ := typeLayout?_replies hsound qualified
  refine ⟨?_, hnext⟩
  simp only [typeSize, hlayout, hnext.1]
  rfl

theorem recordSize_replies (hsound : calculator.Sound) (space : String) (kind : RecordKind)
    (fields : List Field) :
    calculator.Replies (calculator.recordSize space kind fields)
      (calculator.platform.place [] space kind fields).2.size :=
  query_replies hsound ((place_gives _ space kind fields).map (·.2.size))

theorem fieldTypeLayout_replies (hsound : calculator.Sound) (space : String) (type : TypeRef) :
    calculator.Replies (calculator.fieldTypeLayout space type)
      (calculator.platform.fieldTypeLayout space type) :=
  let ⟨_, hslot⟩ := slot_gives calculator.platform space false type
  query_replies hsound hslot

theorem answer_replies (hsound : calculator.Sound) (query : LayoutQuery) :
    calculator.Replies (calculator.answer query) (calculator.platform.answer query) := by
  cases query with
  | typeLayout qualified =>
      exact (typeLayout?_replies hsound qualified).map _
  | typeSize qualified =>
      exact (typeSize_replies hsound qualified).map _
  | recordShape qualified => exact (recordShape?_replies hsound qualified).map _
  | fields space kind fields hidden =>
      exact (layout_replies hsound space kind fields hidden).map _
  | recordSize space kind fields =>
      exact (recordSize_replies hsound space kind fields).map _
  | fieldType space type => exact (fieldTypeLayout_replies hsound space type).map _
  | element space type =>
      obtain ⟨_, hslot⟩ := slot_gives calculator.platform space true type
      exact (query_replies hsound hslot).map _

theorem answers_replies (hsound : calculator.Sound) (queries : List LayoutQuery) :
    calculator.Replies (calculator.answers queries) (queries.map calculator.platform.answer) := by
  induction queries generalizing calculator with
  | nil => exact ⟨rfl, rfl, hsound⟩
  | cons query rest ih =>
      obtain ⟨hanswer, hplatform, hnext⟩ := answer_replies hsound query
      obtain ⟨hanswers, hplatforms, hlast⟩ := ih hnext
      rw [hplatform] at hanswers hplatforms
      exact ⟨congrArg₂ List.cons hanswer hanswers, hplatforms, hlast⟩

theorem calculator_sound (platform : Platform) : platform.calculator.Sound :=
  Platform.sound_nil

@[simp] theorem typeLayout?_calculator (platform : Platform) (qualified : String) :
    (platform.calculator.typeLayout? qualified).1 = platform.typeLayout? qualified :=
  (typeLayout?_replies (calculator_sound platform) qualified).1

@[simp] theorem typeSize_calculator (platform : Platform) (qualified : String) :
    (platform.calculator.typeSize qualified).1 = platform.typeSize qualified :=
  (typeSize_replies (calculator_sound platform) qualified).1

@[simp] theorem recordShape?_calculator (platform : Platform) (qualified : String) :
    (platform.calculator.recordShape? qualified).1 = platform.recordShape? qualified :=
  (recordShape?_replies (calculator_sound platform) qualified).1

@[simp] theorem layout_calculator (platform : Platform) (space : String) (kind : RecordKind)
    (fields : List Field) :
    (platform.calculator.layout space kind fields true).1 =
      (platform.place [] space kind fields).1 :=
  (layout_replies (calculator_sound platform) space kind fields true).1

/-- Asked any questions in any order, a calculator answers each one as a new calculator does. -/
theorem answers_eq_map_calculator_answer (platform : Platform) (queries : List LayoutQuery) :
    (platform.calculator.answers queries).1 =
      queries.map fun query => (platform.calculator.answer query).1 := by
  have hfresh := calculator_sound platform
  rw [(answers_replies hfresh queries).1]
  exact List.map_congr_left fun query _ => (answer_replies hfresh query).1.symm

end Calculator

end Interop
