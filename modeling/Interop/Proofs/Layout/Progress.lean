import Mathlib.Data.Finset.Basic
import Interop.Proofs.Layout.Shape
import Interop.Proofs.Schema.Index

/-! # Expansions in progress

Which types are being expanded is one set that all expansions share: each adds its name to the set
on the way in and takes it out again on the way out. Types are followed into each other for as long
as one is stored in the other, and no measure is kept that would get less. How deep this goes is
limited here only to tell whether the limit is met. It never is if it is above the number of names
in the repository, from whatever state: a name that is in the set is not expanded, so on the way
down no name comes twice.
-/

namespace Interop

open Schema

/-- What the expansions that are in progress share. -/
structure Progress where
  walk : Walk
  /-- The names of the types that are being expanded. -/
  active : Finset String := ∅
  /-- The chains of expansions so far, each at the moment at which its innermost one began, with
  that one first. The newest chain comes first. -/
  chains : List (List String) := []

/-- A computation that may expand types. There is no result if it goes deeper than it may. -/
abbrev Expanding (α : Type) := StateT Progress Option α

namespace Progress

/-- A name is seen in the course of its own expansion. -/
def markProvisional (progress : Progress) : Progress :=
  { progress with walk.provisional := true }

/-- The expansion of a type begins. -/
def enter (progress : Progress) (chain : List String) (qualified : String) : Progress where
  walk := { progress.walk with provisional := false }
  active := insert qualified progress.active
  chains := (qualified :: chain) :: progress.chains

/-- The expansion of a type is over. -/
def leave (progress : Progress) (outer : Bool) (qualified : String) (layout : TypeLayout) :
    Progress :=
  { progress with
    walk := progress.walk.close outer qualified layout
    active := progress.active.erase qualified }

end Progress

namespace Expanding

/-- The layout of a type in a slot, given computations for the layouts of compound types. -/
def slot (platform : Platform) (compound : String → Expanding (Option TypeLayout)) (space : String)
    (inArray : Bool) : TypeRef → Expanding TypeLayout
  | .plain spelling => do
    let single := Slot.ofSpelling platform.repo platform.pointerSize space inArray (.plain spelling)
    match single.compound? with
    | some inner => return (← compound inner).getD (.pointer platform.pointerSize)
    | none => return single.layout fun _ => .pointer platform.pointerSize
  | .array spelling form element => do
    match form.fixedSize with
    | some count =>
      if (TypeRef.plain spelling).isPointerSpelled then return .pointer platform.pointerSize
      else return (← slot platform compound space true element).times count
    | none => return .pointer platform.pointerSize

/-- Fields placed as a record of the given kind, one after the other. -/
def place (platform : Platform) (compound : String → Expanding (Option TypeLayout)) (space : String)
    (kind : RecordKind) (fields : List Field) : Expanding (List FieldLayout × TypeLayout) := do
  let layouts ← fields.mapM fun field =>
    return (field.name, ← slot platform compound space false field.type)
  return Placement.ofKind kind layouts

/-- The layout of a compound type, remembered or computed, with at most so many computations inside
of each other. The chain of the expansions around this one is only handed on. -/
def computeType (platform : Platform) :
    Nat → List String → String → Expanding (Option TypeLayout)
  | 0, _, _ => failure
  | depth + 1, chain, qualified => do
    match (← get).walk.memo.lookup qualified with
    | some layout => return some layout
    | none =>
      if qualified ∈ (← get).active then
        modify Progress.markProvisional
        return some (.pointer platform.pointerSize)
      else match Compound.find? platform.repo qualified with
        | none => return none
        | some compound =>
          let outer := (← get).walk.provisional
          modify (·.enter chain qualified)
          let placed ← place platform (computeType platform depth (qualified :: chain))
            compound.space compound.kind compound.fields
          modify (·.leave outer qualified placed.2)
          return some placed.2

/-- The answer to a question. The shape of a record is computed as if the record were being
expanded, so its name is in the set from the start. -/
def answer (platform : Platform) (depth : Nat) : LayoutQuery → Expanding LayoutAnswer
  | .typeLayout qualified => return .layout (← computeType platform depth [] qualified)
  | .typeSize qualified => do
    let layout ← computeType platform depth [] qualified
    return .size ((layout.map (·.size)).getD platform.pointerSize)
  | .recordShape qualified => do
    match Compound.find? platform.repo qualified with
    | none => return .shape none
    | some compound =>
      modify (·.enter [] qualified)
      let placed ← place platform (computeType platform depth [qualified]) compound.space
        compound.kind compound.fields
      modify fun progress =>
        { progress with walk := progress.walk.close false qualified placed.2 }
      return .shape (some (compound.shape placed))
  | .fields space kind fields hidden => do
    let (layouts, _) ← place platform (computeType platform depth []) space kind fields
    return .fields (if hidden then layouts else Compound.shownOnly fields layouts)
  | .recordSize space kind fields =>
    return .size (← place platform (computeType platform depth []) space kind fields).2.size
  | .fieldType space type =>
    return .layout (some (← slot platform (computeType platform depth []) space false type))
  | .element space type =>
    return .layout (some (← slot platform (computeType platform depth []) space true type))

end Expanding

/-! ## Chains -/

/-- The names are those of compound types, and none of them comes twice. -/
structure Schema.Repository.Admits (repo : Repository) (chain : List String) : Prop where
  nodup : chain.Nodup
  declared : ∀ name ∈ chain, (Compound.find? repo name).isSome

namespace Schema.Repository.Admits

variable {repo : Repository} {chain : List String} {qualified : String} {compound : Compound}

theorem nil (repo : Repository) : repo.Admits [] := ⟨List.nodup_nil, nofun⟩

theorem cons (h : repo.Admits chain) (hnew : qualified ∉ chain)
    (hfind : Compound.find? repo qualified = some compound) : repo.Admits (qualified :: chain) where
  nodup := List.nodup_cons.2 ⟨hnew, h.nodup⟩
  declared := List.forall_mem_cons.2 ⟨by rw [hfind]; rfl, h.declared⟩

/-- A chain is no longer than the index, where every name comes once. -/
theorem length_le (h : repo.Admits chain) : chain.length ≤ repo.typeCount := by
  have hindexed : chain ⊆ repo.index.map Prod.fst := by
    intro name hname
    obtain ⟨compound, hcompound⟩ := Option.isSome_iff_exists.1 (h.declared name hname)
    obtain ⟨type, hresolve, _⟩ := Option.bind_eq_some_iff.1 hcompound
    obtain ⟨site, hsite, _⟩ := Option.bind_eq_some_iff.1 hresolve
    exact List.mem_map_of_mem (Lists.mem_of_lookup hsite)
  have hle := (h.nodup.subperm hindexed).length_le
  rwa [List.length_map] at hle

end Schema.Repository.Admits

namespace Expanding

variable {platform : Platform} {path chain : List String} {α β : Type}

/-! ## Steps that end -/

/-- Whenever just the names of the path are in the set, the computation ends with what the step
gives, and the set is as it was. The chains that begin meanwhile are in order if that of the
computation is. -/
def Tracks (platform : Platform) (path chain : List String) (run : Expanding α)
    (step : StateM Walk α) : Prop :=
  ∀ progress : Progress, (∀ name, name ∈ progress.active ↔ name ∈ path) →
    ∃ begun, run progress = some ((step progress.walk).1,
        { progress with
          walk := (step progress.walk).2
          chains := begun ++ progress.chains }) ∧
      (platform.repo.Admits chain → chain ⊆ path → ∀ new ∈ begun, platform.repo.Admits new)

namespace Tracks

theorem pure (a : α) : Tracks platform path chain (pure a) (pure a) :=
  fun _ _ => ⟨[], rfl, fun _ _ => nofun⟩

theorem bind {run : Expanding α} {step : StateM Walk α} {next : α → Expanding β}
    {nextStep : α → StateM Walk β} (h : Tracks platform path chain run step)
    (hnext : ∀ a, Tracks platform path chain (next a) (nextStep a)) :
    Tracks platform path chain (run >>= next) (step >>= nextStep) := by
  intro progress hactive
  obtain ⟨begun, hrun, hbegun⟩ := h progress hactive
  obtain ⟨later, hlater, hnew⟩ := hnext (step progress.walk).1
    { progress with walk := (step progress.walk).2, chains := begun ++ progress.chains } hactive
  refine ⟨later ++ begun, ?_, fun hchain hpath =>
    List.forall_mem_append.2 ⟨hnew hchain hpath, hbegun hchain hpath⟩⟩
  have hrest : (run >>= next) progress = next (step progress.walk).1
      { progress with walk := (step progress.walk).2, chains := begun ++ progress.chains } := by
    simp only [Bind.bind, StateT.bind, hrun, Option.bind_some]
  rw [hrest, hlater, List.append_assoc]
  rfl

theorem map {run : Expanding α} {step : StateM Walk α} (f : α → β)
    (h : Tracks platform path chain run step) :
    Tracks platform path chain (do return f (← run)) (do return f (← step)) :=
  h.bind fun a => .pure (f a)

/-- A change of what is remembered. -/
theorem modify (f : Walk → Walk) : Tracks platform path chain
    (modify fun progress => { progress with walk := f progress.walk }) (modify f) :=
  fun _ _ => ⟨[], rfl, fun _ _ => nofun⟩

theorem mapM {run : α → Expanding β} {step : α → StateM Walk β}
    (h : ∀ a, Tracks platform path chain (run a) (step a)) (items : List α) :
    Tracks platform path chain (items.mapM run) (items.mapM step) := by
  induction items with
  | nil => exact .pure []
  | cons item rest ih =>
      rw [List.mapM_cons, List.mapM_cons]
      exact (h item).bind fun first => ih.map (first :: ·)

end Tracks

/-! ## Slots and fields -/

/-- A single value is of a compound type, or nothing is expanded for it. -/
theorem single_tracks {compound : String → Expanding TypeLayout}
    {step : String → StateM Walk TypeLayout}
    (h : ∀ inner, Tracks platform path chain (compound inner) (step inner))
    (unknown : String → TypeLayout) (space : String) (inArray : Bool) (type : TypeRef) :
    let single := Slot.ofSpelling platform.repo platform.pointerSize space inArray type
    Tracks platform path chain
      (match single.compound? with
      | some inner => compound inner
      | none => return single.layout unknown)
      (Platform.slotStep step single) :=
  Slot.ofSpelling_induction
    (motive := fun single => Tracks platform path chain
      (match single.compound? with
      | some inner => compound inner
      | none => return single.layout unknown)
      (Platform.slotStep step single))
    (.pure _) (fun _ => .pure _) (.pure _) h space inArray type

section Compound

variable {compound : String → Expanding (Option TypeLayout)}
  (h : ∀ inner, Tracks platform path chain (compound inner) (platform.memoized? path inner))
include h

/-- What a slot needs of the computation for compound types. By induction over the nesting of
arrays. -/
theorem slot_tracks (space : String) (inArray : Bool) (type : TypeRef) :
    Tracks platform path chain (slot platform compound space inArray type)
      (Calculator.slot platform path space inArray type) := by
  induction type generalizing inArray with
  | plain spelling =>
      rw [slot, Calculator.slot, Slot.ofType]
      exact single_tracks (fun inner => (h inner).map _) _ space inArray (.plain spelling)
  | array spelling form element ih =>
      rw [slot, Calculator.slot, Slot.ofType]
      cases form.fixedSize with
      | none => exact .pure _
      | some count =>
          dsimp only
          split
          next => exact .pure _
          next => exact (ih true).map (·.times count)

theorem place_tracks (space : String) (kind : RecordKind) (fields : List Field) :
    Tracks platform path chain (place platform compound space kind fields)
      (Calculator.place platform path space kind fields) := by
  rw [place, Calculator.place]
  exact (Tracks.mapM (fun field => (slot_tracks h space false field.type).map (field.name, ·))
    fields).map (Placement.ofKind kind)

end Compound

/-! ## Compound types -/

variable {depth : Nat} {qualified : String} {progress : Progress}

theorem computeType_of_lookup {layout : TypeLayout}
    (h : progress.walk.memo.lookup qualified = some layout) :
    computeType platform (depth + 1) chain qualified progress = some (some layout, progress) := by
  rw [computeType]
  simp only [Bind.bind, StateT.bind, get, getThe, MonadStateOf.get, StateT.get, Pure.pure,
    Option.bind_some, h]
  rfl

theorem computeType_of_mem (hnone : progress.walk.memo.lookup qualified = none)
    (hmem : qualified ∈ progress.active) :
    computeType platform (depth + 1) chain qualified progress =
      some (some (.pointer platform.pointerSize), progress.markProvisional) := by
  rw [computeType]
  simp only [Bind.bind, StateT.bind, get, getThe, MonadStateOf.get, StateT.get, Pure.pure,
    Option.bind_some, hnone, if_pos hmem]
  rfl

/-- The expansion of a compound type that is neither remembered nor being expanded. -/
def expansion (platform : Platform) (depth : Nat) (chain : List String) (qualified : String)
    (compound : Compound) : Expanding (Option TypeLayout) := do
  let outer := (← get).walk.provisional
  modify (·.enter chain qualified)
  let placed ← place platform (computeType platform depth (qualified :: chain)) compound.space
    compound.kind compound.fields
  modify (·.leave outer qualified placed.2)
  return some placed.2

theorem computeType_of_notMem (hnone : progress.walk.memo.lookup qualified = none)
    (hmem : qualified ∉ progress.active) :
    computeType platform (depth + 1) chain qualified progress =
      (match Compound.find? platform.repo qualified with
      | none => pure none
      | some compound => expansion platform depth chain qualified compound : Expanding _)
        progress := by
  rw [computeType]
  simp only [Bind.bind, StateT.bind, get, getThe, MonadStateOf.get, StateT.get, Pure.pure,
    Option.bind_some, hnone, if_neg hmem]
  cases Compound.find? platform.repo qualified <;> rfl

/-- The expansion of a type ends if those of the types in it do. While they go on its name is in the
set, where it was not before. -/
theorem expansion_tracks {compound : Compound} (hmem : qualified ∉ path)
    (hfind : Compound.find? platform.repo qualified = some compound)
    (h : ∀ inner, Tracks platform (qualified :: path) (qualified :: chain)
      (computeType platform depth (qualified :: chain) inner)
      (platform.memoized? (qualified :: path) inner)) :
    Tracks platform path chain (expansion platform depth chain qualified compound)
      (platform.expansion path qualified compound) := by
  intro progress hactive
  have hnew : qualified ∉ progress.active := fun hin => hmem ((hactive _).1 hin)
  obtain ⟨begun, hplace, hbegun⟩ := place_tracks h compound.space compound.kind compound.fields
    (progress.enter chain qualified) (by simp [Progress.enter, hactive])
  have hback : (insert qualified progress.active).erase qualified = progress.active :=
    Finset.erase_insert hnew
  refine ⟨begun ++ [qualified :: chain], ?_, fun hchain hpath => ?_⟩
  · calc expansion platform depth chain qualified compound progress
        = (place platform (computeType platform depth (qualified :: chain)) compound.space
            compound.kind compound.fields (progress.enter chain qualified)).bind
            fun (placed, inside) => some (some placed.2,
              inside.leave progress.walk.provisional qualified placed.2) := rfl
      _ = _ := by
          rw [hplace, Option.bind_some]
          dsimp only [Progress.leave, Progress.enter]
          rw [hback, List.append_assoc]
          rfl
  · have hadmits := hchain.cons (fun hin => hmem (hpath hin)) hfind
    refine List.forall_mem_append.2 ⟨hbegun hadmits (List.cons_subset_cons _ hpath), ?_⟩
    exact List.forall_mem_singleton.2 hadmits

/-- The expansion of a type ends before it gets deeper than there are names that may still be
expanded. By induction over the depth: on the way into a type there is one name less. -/
theorem computeType_tracks (hdepth : platform.repo.remaining path < depth)
    (chain : List String) (qualified : String) :
    Tracks platform path chain (computeType platform depth chain qualified)
      (platform.memoized? path qualified) := by
  induction depth generalizing path chain qualified with
  | zero => exact absurd hdepth (Nat.not_lt_zero _)
  | succ depth ih =>
      intro progress hactive
      cases hlookup : progress.walk.memo.lookup qualified with
      | some layout =>
          rw [computeType_of_lookup hlookup, Platform.memoized?_of_lookup hlookup]
          exact ⟨[], rfl, fun _ _ => nofun⟩
      | none =>
          by_cases hmem : qualified ∈ path
          · rw [computeType_of_mem hlookup ((hactive _).2 hmem),
              Platform.memoized?_of_mem hlookup hmem]
            exact ⟨[], rfl, fun _ _ => nofun⟩
          rw [computeType_of_notMem hlookup (fun hin => hmem ((hactive _).1 hin)),
            Platform.memoized?_of_lookup_eq_none hlookup hmem]
          cases hfind : Compound.find? platform.repo qualified with
          | none => exact ⟨[], rfl, fun _ _ => nofun⟩
          | some compound =>
              obtain ⟨type, htype⟩ := Platform.resolveQualified?_of_find? hfind
              have hnot : path.contains qualified = false := by simpa using hmem
              have hless := Repository.remaining_cons_lt htype hnot
              have hroom : platform.repo.remaining (qualified :: path) < depth := by omega
              exact expansion_tracks hmem hfind (ih hroom (qualified :: chain)) progress hactive

/-! ## Questions -/

/-- The computation ends from every state, and the set is behind it as it was before. -/
def Ends (run : Expanding α) : Prop :=
  ∀ progress, ∃ a after, run progress = some (a, after) ∧ after.active = progress.active

theorem Tracks.ends {run : Expanding α} {step : List String → StateM Walk α}
    (h : ∀ path, Tracks platform path chain run (step path)) : Ends run := by
  intro progress
  obtain ⟨begun, hrun, _⟩ := h progress.active.toList progress fun name => Finset.mem_toList.symm
  exact ⟨_, _, hrun, rfl⟩

/-- With this memo at the start the computation ends with the reply of the calculator, and no name
came twice in any of its chains. -/
def Answers (platform : Platform) (memo : List (String × TypeLayout)) (run : Expanding LayoutAnswer)
    (reply : LayoutAnswer × Calculator) : Prop :=
  ∃ progress, run { walk := ⟨memo, false⟩ } = some (reply.1, progress) ∧
    progress.walk.memo = reply.2.memo ∧
    ∀ chain ∈ progress.chains, chain.Nodup ∧ chain.length ≤ platform.repo.typeCount

theorem Answers.of_admits {memo : List (String × TypeLayout)} {run : Expanding LayoutAnswer}
    {reply : LayoutAnswer × Calculator} {progress : Progress}
    (hrun : run { walk := ⟨memo, false⟩ } = some (reply.1, progress))
    (hmemo : progress.walk.memo = reply.2.memo)
    (hchains : ∀ chain ∈ progress.chains, platform.repo.Admits chain) :
    Answers platform memo run reply :=
  ⟨progress, hrun, hmemo, fun chain hchain =>
    ⟨(hchains chain hchain).nodup, (hchains chain hchain).length_le⟩⟩

theorem Tracks.answers {memo : List (String × TypeLayout)} {run : Expanding LayoutAnswer}
    {step : StateM Walk LayoutAnswer} (h : Tracks platform [] [] run step) :
    Answers platform memo run (Calculator.query ⟨platform, memo⟩ step) := by
  obtain ⟨begun, hrun, hbegun⟩ := h { walk := ⟨memo, false⟩ } (by simp)
  rw [List.append_nil] at hrun
  exact .of_admits hrun rfl (hbegun (.nil _) (List.Subset.refl _))

/-- The record itself is the first in every chain of the computation of its shape. -/
theorem recordShape_answers (hdepth : platform.repo.remaining [qualified] < depth)
    (memo : List (String × TypeLayout)) :
    Answers platform memo (answer platform depth (.recordShape qualified))
      (Calculator.answer ⟨platform, memo⟩ (.recordShape qualified)) := by
  rw [Calculator.answer, Calculator.recordShape?, answer]
  cases hfind : Compound.find? platform.repo qualified with
  | none => exact ⟨{ walk := ⟨memo, false⟩ }, rfl, rfl, nofun⟩
  | some compound =>
      have hadmits := (Repository.Admits.nil platform.repo).cons List.not_mem_nil hfind
      have hshape : Tracks platform [qualified] [qualified] _ _ :=
        (place_tracks (computeType_tracks hdepth [qualified])
          compound.space compound.kind compound.fields).bind fun placed =>
            (Tracks.modify fun walk => walk.close false qualified placed.2).bind fun _ =>
              .pure (LayoutAnswer.shape (some (compound.shape placed)))
      obtain ⟨begun, hrun, hbegun⟩ := hshape
        (Progress.enter { walk := ⟨memo, false⟩ } [] qualified) (by simp [Progress.enter])
      exact .of_admits hrun rfl (List.forall_mem_append.2
        ⟨hbegun hadmits (List.Subset.refl _), List.forall_mem_singleton.2 hadmits⟩)

/-- Every question about layouts is answered, whatever has been remembered before and however the
types of the repository are stored in each other. From every state the expansion of a type ends and
leaves the set of active names as it was. Types are never expanded into each other more deeply than
there are declarations in the index, and on the way down no name is expanded twice; so a limit above
that makes no difference. -/
theorem answer_ends (platform : Platform) (spare : Nat) :
    let depth := platform.repo.typeCount + 1 + spare
    (∀ memo query, Answers platform memo (answer platform depth query)
      (Calculator.answer ⟨platform, memo⟩ query)) ∧
    (∀ chain qualified, Ends (computeType platform depth chain qualified)) ∧
    ∀ chain space inArray type,
      Ends (slot platform (computeType platform depth chain) space inArray type) := by
  intro depth
  have hdepth : ∀ path, platform.repo.remaining path < depth := by
    intro path
    have hle : platform.repo.remaining path ≤ platform.repo.typeCount :=
      List.length_filter_le _ _
    omega
  -- no more names can be active than are declared, so the limit is never met
  have hcompound : ∀ path chain qualified, Tracks platform path chain
      (computeType platform depth chain qualified) (platform.memoized? path qualified) :=
    fun path => computeType_tracks (hdepth path)
  refine ⟨fun memo query => ?_, fun chain qualified => ?_, fun chain space inArray type => ?_⟩
  · cases query with
    | typeLayout qualified => exact ((hcompound [] [] qualified).map .layout).answers
    | typeSize qualified =>
        exact ((hcompound [] [] qualified).map fun layout =>
          .size ((layout.map (·.size)).getD platform.pointerSize)).answers
    | recordShape qualified => exact recordShape_answers (hdepth [qualified]) memo
    | fields space kind fields hidden =>
        exact ((place_tracks (hcompound [] []) space kind fields).map fun placed =>
          .fields (if hidden then placed.1 else Compound.shownOnly fields placed.1)).answers
    | recordSize space kind fields =>
        exact ((place_tracks (hcompound [] []) space kind fields).map fun placed =>
          .size placed.2.size).answers
    | fieldType space type =>
        exact ((slot_tracks (hcompound [] []) space false type).map (.layout ∘ some)).answers
    | element space type =>
        exact ((slot_tracks (hcompound [] []) space true type).map (.layout ∘ some)).answers
  · exact Tracks.ends fun path => hcompound path chain qualified
  · exact Tracks.ends fun path => slot_tracks (hcompound path chain) space inArray type

end Expanding

end Interop
