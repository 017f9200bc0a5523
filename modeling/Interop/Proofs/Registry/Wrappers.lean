import Interop.Proofs.Keys
import Interop.Registry.Objects

/-! # What happens to a wrapper

Wrapping a handle gives a clone of the wrapper that is there, or a new wrapper; dropping a clone
counts a wrapper down, and the last one takes its entry with it. Either way at most one wrapper
changes, and all the others are as they were.
-/

namespace Interop

theorem ObjectKind.usesIdentityTable_iff {kind : ObjectKind} :
    kind.usesIdentityTable = true ↔ kind ≠ .struct := by
  cases kind <;> decide

namespace Wrapper

/-- A wrapper whose handle has been wrapped once more. -/
def rewrapped (wrapper : Wrapper) (ownership : Ownership) : Wrapper :=
  { wrapper with
    strong := wrapper.strong + 1
    owned := wrapper.owned || ownership.transfersReference }

/-- A wrapper of which a clone has been made. -/
def cloned (wrapper : Wrapper) : Wrapper := { wrapper with strong := wrapper.strong + 1 }

/-- A wrapper of which a clone has been dropped. -/
def dropped (wrapper : Wrapper) : Wrapper := { wrapper with strong := wrapper.strong - 1 }

/-- A new wrapper. -/
def made (handle : Handle) (cls : NativeClass) (ownership : Ownership) : Wrapper where
  handle := handle
  cls := cls
  owned := ownership.transfersReference
  strong := 1
  payload := cls.payload.map fun make => make handle

theorem isLive_iff {wrapper : Wrapper} : wrapper.isLive = true ↔ wrapper.strong ≠ 0 := bne_iff_ne

@[simp] theorem isLive_rewrapped (wrapper : Wrapper) (ownership : Ownership) :
    (wrapper.rewrapped ownership).isLive = true :=
  isLive_iff.2 (Nat.succ_ne_zero _)

@[simp] theorem isLive_cloned (wrapper : Wrapper) : wrapper.cloned.isLive = true :=
  isLive_iff.2 (Nat.succ_ne_zero _)

@[simp] theorem isLive_made (handle : Handle) (cls : NativeClass) (ownership : Ownership) :
    (made handle cls ownership).isLive = true := rfl

theorem isLive_dropped {wrapper : Wrapper} (h : 1 < wrapper.strong) :
    wrapper.dropped.isLive = true :=
  isLive_iff.2 (Nat.sub_ne_zero_of_lt h)

theorem isLive_dropped_last {wrapper : Wrapper} (h : wrapper.strong = 1) :
    wrapper.dropped.isLive = false := by
  simp [isLive, dropped, h]

end Wrapper

namespace Registry

variable {registry : Registry} {id other : WrapperId} {wrapper : Wrapper} {handle : Handle}
  {targetName : Option String} {ownership : Ownership}

/-! ## Changing one wrapper -/

/-- The registry with another wrapper in the place of one. -/
def replace (registry : Registry) (id : WrapperId) (wrapper : Wrapper) : Registry :=
  { registry with wrappers := registry.wrappers.setIfInBounds id.index wrapper }

theorem modifyWrapper_eq_replace (h : registry.wrapper? id = some wrapper)
    (f : Wrapper → Wrapper) : registry.modifyWrapper id f = registry.replace id (f wrapper) := by
  rw [modifyWrapper, replace]
  congr 1
  apply Array.ext_getElem?
  intro index
  rw [wrapper?] at h
  rw [Array.getElem?_modify, Array.getElem?_setIfInBounds]
  split
  next hindex =>
    obtain ⟨hbound, _⟩ := Array.getElem?_eq_some_iff.1 h
    rw [← hindex, h, if_pos hbound]
    rfl
  next => rfl

theorem wrapper?_replace (h : registry.wrapper? id = some wrapper) (new : Wrapper)
    (other : WrapperId) :
    (registry.replace id new).wrapper? other =
      if other = id then some new else registry.wrapper? other := by
  obtain ⟨hbound, _⟩ := Array.getElem?_eq_some_iff.1 h
  rw [wrapper?, replace, Array.getElem?_setIfInBounds]
  by_cases hsame : other = id
  · rw [if_pos hsame, if_pos (hsame ▸ rfl), if_pos hbound]
  · have hindex : id.index ≠ other.index := fun hindex => hsame (congrArg WrapperId.mk hindex.symm)
    rw [if_neg hsame, if_neg hindex, wrapper?]

@[simp] theorem replace_replace (registry : Registry) (id : WrapperId) (first second : Wrapper) :
    (registry.replace id first).replace id second = registry.replace id second := by
  simp only [replace, Array.setIfInBounds_setIfInBounds]

theorem retain_eq (h : registry.wrapper? id = some wrapper) :
    registry.retain id = registry.replace id wrapper.cloned :=
  modifyWrapper_eq_replace h _

theorem isLive_eq (h : registry.wrapper? id = some wrapper) :
    registry.isLive id = wrapper.isLive := by
  rw [isLive, h, Option.any_some]

/-! ## Entries of the dead -/

/-- The registry without the entry of a handle, if the wrapper of that entry is dead. -/
def sweep (registry : Registry) (handle : Handle) : Registry :=
  if (registry.identities.lookup handle).any fun id => !registry.isLive id then
    registry.forget handle
  else registry

/-- The entry of a live wrapper stays. -/
theorem sweep_eq_self
    (h : ∀ id, registry.identities.lookup handle = some id → registry.isLive id = true) :
    registry.sweep handle = registry := by
  unfold sweep
  cases hentry : registry.identities.lookup handle with
  | none => rfl
  | some id => simp [h id hentry]

theorem sweep_eq_forget (hentry : registry.identities.lookup handle = some id)
    (hdead : registry.isLive id = false) : registry.sweep handle = registry.forget handle := by
  simp [sweep, hentry, hdead]

/-- Nothing but an entry goes. -/
theorem exists_sweep_eq (registry : Registry) (handle : Handle) :
    ∃ identities, registry.sweep handle = { registry with identities } := by
  unfold sweep
  split <;> exact ⟨_, rfl⟩

@[simp] theorem classes_sweep (registry : Registry) (handle : Handle) :
    (registry.sweep handle).classes = registry.classes := by
  obtain ⟨identities, hsweep⟩ := registry.exists_sweep_eq handle
  rw [hsweep]

@[simp] theorem releases_sweep (registry : Registry) (handle : Handle) :
    (registry.sweep handle).releases = registry.releases := by
  obtain ⟨identities, hsweep⟩ := registry.exists_sweep_eq handle
  rw [hsweep]

theorem release?_sweep (registry : Registry) (handle : Handle) (wrapper : Wrapper) :
    (registry.sweep handle).release? wrapper = registry.release? wrapper := by
  rw [release?, releases_sweep, release?]

theorem lookup_forget (registry : Registry) (handle : Handle) :
    (registry.forget handle).identities.lookup handle = none := by
  rw [List.lookup_eq_none_iff]
  intro entry hentry
  obtain ⟨_, hkept⟩ := List.mem_filter.1 hentry
  rwa [bne_comm] at hkept

theorem lookup_of_live (hentry : registry.identities.lookup handle = some id)
    (hwrapper : registry.wrapper? id = some wrapper) (hlive : wrapper.isLive = true) :
    registry.lookup handle = (some id, registry.replace id wrapper.cloned) := by
  simp only [lookup, hentry, isLive_eq hwrapper, hlive, if_true, retain_eq hwrapper]

/-- Looking for the wrapper of a handle gives a clone of a live one, or there is no entry of the
handle any more. -/
theorem lookup_cases (registry : Registry) (handle : Handle) :
    (∃ id wrapper, registry.identities.lookup handle = some id ∧
      registry.wrapper? id = some wrapper ∧ wrapper.isLive = true ∧
      registry.lookup handle = (some id, registry.replace id wrapper.cloned)) ∨
    (registry.sweep handle).identities.lookup handle = none ∧
      registry.lookup handle = (none, registry.sweep handle) := by
  cases hentry : registry.identities.lookup handle with
  | none =>
      right
      rw [sweep_eq_self (by simp [hentry]), lookup, hentry]
      exact ⟨rfl, rfl⟩
  | some id =>
      cases hlive : registry.isLive id with
      | false =>
          right
          rw [sweep_eq_forget hentry hlive]
          refine ⟨lookup_forget registry handle, ?_⟩
          simp only [lookup, hentry, hlive, Bool.false_eq_true, if_false]
      | true =>
          left
          obtain ⟨wrapper, hwrapper, halive⟩ := (Option.any_eq_true _ _).1 hlive
          exact ⟨id, wrapper, rfl, hwrapper, halive, lookup_of_live hentry hwrapper halive⟩

/-! ## Wrapping -/

/-- The reference that comes in for a wrapper that has one already is given back. -/
def surplus? (registry : Registry) (wrapper : Wrapper) (ownership : Ownership) :
    Option Release :=
  if ownership.transfersReference && wrapper.owned then registry.release? wrapper else none

theorem reconcile_replace (h : registry.wrapper? id = some wrapper) :
    (registry.replace id wrapper.cloned).reconcile id ownership =
      (registry.surplus? wrapper ownership, registry.replace id (wrapper.rewrapped ownership)) := by
  have hcloned : (registry.replace id wrapper.cloned).wrapper? id = some wrapper.cloned := by
    rw [wrapper?_replace h, if_pos rfl]
  unfold reconcile surplus?
  rw [hcloned]
  cases hcomes : ownership.transfersReference with
  | false =>
      have hsame : wrapper.rewrapped ownership = wrapper.cloned := by
        simp [Wrapper.rewrapped, Wrapper.cloned, hcomes]
      rw [hsame]
      rfl
  | true =>
      cases howned : wrapper.owned with
      | true =>
          have hsame : wrapper.rewrapped ownership = wrapper.cloned := by
            simp [Wrapper.rewrapped, Wrapper.cloned, howned]
          rw [hsame]
          simp only [Wrapper.cloned, howned]
          rfl
      | false =>
          rw [modifyWrapper_eq_replace hcloned, replace_replace]
          simp only [Wrapper.cloned, Wrapper.rewrapped, howned, hcomes]
          rfl

/-- What wrapping a handle comes to: nothing for the null handle, an error, a clone of the wrapper
that is there, or a new wrapper. -/
inductive WrapCase (registry : Registry) (handle : Handle) (targetName : Option String)
    (ownership : Ownership) : Except IdentityError Wrapped × Registry → Prop
  | null (hnull : handle.isNull = true) :
      WrapCase registry handle targetName ownership (.ok { id := none }, registry)
  | failed {error : IdentityError} {swept : Registry}
      (hswept : swept = registry ∨ swept = registry.sweep handle) :
      WrapCase registry handle targetName ownership (.error error, swept)
  | found {id : WrapperId} {wrapper : Wrapper} (hnull : handle.isNull = false)
      (hentry : registry.identities.lookup handle = some id)
      (hwrapper : registry.wrapper? id = some wrapper) (hlive : wrapper.isLive = true)
      (htarget : ∀ name, targetName = some name →
        ∃ cls, registry.classes.get? name = some cls ∧ cls.kind ≠ .struct) :
      WrapCase registry handle targetName ownership
        (.ok { id := some id, release := registry.surplus? wrapper ownership },
          registry.replace id (wrapper.rewrapped ownership))
  | made {cls : NativeClass} {swept : Registry} (hnull : handle.isNull = false)
      (hswept : swept = registry ∨ swept = registry.sweep handle)
      (hfree : cls.kind ≠ .struct → swept.identities.lookup handle = none)
      (htarget : ∀ name, targetName = some name → registry.classes.get? name = some cls) :
      WrapCase registry handle targetName ownership
        (.ok { id := some (swept.create handle cls ownership).1 },
          (swept.create handle cls ownership).2)

/-- The same where code from outside is run meanwhile: it may be asked for the class, and then for
what the new wrapper carries along. -/
inductive AmidCase (registry : Registry) (handle : Handle) (targetName : Option String)
    (ownership : Ownership) (amid : Interlude) : Except IdentityError Wrapped × Registry → Prop
  | null (hnull : handle.isNull = true) :
      AmidCase registry handle targetName ownership amid (.ok { id := none }, registry)
  | untried {error : IdentityError} :
      AmidCase registry handle targetName ownership amid (.error error, registry)
  | failed {error : IdentityError} {asked : Registry}
      (hasked : amid.classOf (registry.sweep handle) = (.error error, asked)) :
      AmidCase registry handle targetName ownership amid (.error error, asked)
  | found {id : WrapperId} {wrapper : Wrapper} (hnull : handle.isNull = false)
      (hentry : registry.identities.lookup handle = some id)
      (hwrapper : registry.wrapper? id = some wrapper) (hlive : wrapper.isLive = true)
      (htarget : ∀ name, targetName = some name →
        ∃ cls, registry.classes.get? name = some cls ∧ cls.kind ≠ .struct) :
      AmidCase registry handle targetName ownership amid
        (.ok { id := some id, release := registry.surplus? wrapper ownership },
          registry.replace id (wrapper.rewrapped ownership))
  | made {cls : NativeClass} {swept asked built : Registry} (hnull : handle.isNull = false)
      (hswept : swept = registry ∨ swept = registry.sweep handle)
      (hfree : cls.kind ≠ .struct → swept.identities.lookup handle = none)
      (hasked : asked = swept ∨ amid.classOf swept = (.ok cls, asked))
      (hbuilt : built = asked ∨ built = amid.payload asked)
      (htarget : ∀ name, targetName = some name → registry.classes.get? name = some cls) :
      AmidCase registry handle targetName ownership amid
        (.ok { id := some (built.create handle cls ownership).1 },
          (built.create handle cls ownership).2)

theorem of_target_eq_ok {target : Option NativeClass}
    (h : registry.target targetName = .ok target) :
    ∀ name, targetName = some name → ∃ cls, target = some cls ∧
      registry.classes.get? name = some cls := by
  rintro name rfl
  simp only [Registry.target] at h
  split at h
  next cls hcls =>
    cases h
    exact ⟨cls, rfl, hcls⟩
  next => cases h

/-- Where no wrapper is found, the class decides: one that was given, or one that is asked for. -/
theorem AmidCase.of_classOf {target : Option NativeClass} {swept : Registry} {amid : Interlude}
    {answer : Except IdentityError NativeClass} {asked : Registry} (hnull : handle.isNull = false)
    (htarget : registry.target targetName = .ok target)
    (hswept : swept = registry ∧ (target.all fun cls => cls.kind.usesIdentityTable) = false ∨
      swept = registry.sweep handle ∧ swept.identities.lookup handle = none)
    (hanswer : (target.elim (amid.classOf swept) fun cls => (.ok cls, swept)) = (answer, asked)) :
    registry.AmidCase handle targetName ownership amid
      (match (answer, asked) with
        | (.error error, registry) => (.error error, registry)
        | (.ok cls, registry) =>
          let registry := if cls.payload.isSome then amid.payload registry else registry
          let (id, registry) := registry.create handle cls ownership
          (.ok { id := some id }, registry)) := by
  cases answer with
  | error error =>
      cases target with
      | some given => cases hanswer
      | none =>
          -- no class was given, so that the handle was looked up
          obtain ⟨rfl, _⟩ := hswept.resolve_left fun h => Bool.noConfusion h.2
          exact .failed hanswer
  | ok cls =>
      have hasked : asked = swept ∨ amid.classOf swept = (.ok cls, asked) := by
        cases target with
        | none => exact .inr hanswer
        | some given => exact .inl (congrArg Prod.snd hanswer).symm
      have hbuilt : ∀ built, built = (if cls.payload.isSome then amid.payload asked else asked) →
          built = asked ∨ built = amid.payload asked := by
        rintro built rfl
        split
        next => exact .inr rfl
        next => exact .inl rfl
      refine .made hnull (hswept.imp And.left And.left) (fun hkind => ?_) hasked (hbuilt _ rfl)
        fun name hname => ?_
      · rcases hswept with ⟨_, hkeeps⟩ | ⟨_, hfree⟩
        · cases target with
          | none => cases hkeeps
          | some given =>
              cases hanswer
              exact absurd hkeeps (by simpa using ObjectKind.usesIdentityTable_iff.2 hkind)
        · exact hfree
      · obtain ⟨given, rfl, hgiven⟩ := of_target_eq_ok htarget name hname
        cases hanswer
        exact hgiven

theorem wrapAmid_cases (registry : Registry) (handle : Handle) (targetName : Option String)
    (ownership : Ownership) (amid : Interlude) :
    registry.AmidCase handle targetName ownership amid
      (registry.wrapAmid handle targetName ownership amid) := by
  unfold wrapAmid
  split
  next hnull => exact .null hnull
  next hnull =>
    have hnull := Bool.eq_false_iff.2 hnull
    split
    next => exact .untried
    next target htarget =>
      cases hkeeps : target.all fun cls => cls.kind.usesIdentityTable with
      | false =>
          simp only [Bool.false_eq_true, if_false]
          exact .of_classOf hnull htarget (.inl ⟨rfl, hkeeps⟩) rfl
      | true =>
          simp only [if_true]
          rcases lookup_cases registry handle with
            ⟨id, wrapper, hentry, hwrapper, hlive, hlookup⟩ | ⟨hfree, hlookup⟩
          · rw [hlookup]
            simp only [reconcile_replace hwrapper]
            refine .found hnull hentry hwrapper hlive fun name hname => ?_
            obtain ⟨given, rfl, hgiven⟩ := of_target_eq_ok htarget name hname
            exact ⟨given, hgiven, ObjectKind.usesIdentityTable_iff.1 hkeeps⟩
          · rw [hlookup]
            exact .of_classOf hnull htarget (.inr ⟨rfl, hfree⟩) rfl

theorem wrap_cases (registry : Registry) (known : Introspection) (handle : Handle)
    (targetName : Option String) (ownership : Ownership) :
    registry.WrapCase handle targetName ownership
      (registry.wrap known handle targetName ownership) := by
  have hcase := registry.wrapAmid_cases handle targetName ownership (.quiet known handle)
  unfold wrap
  generalize registry.wrapAmid handle targetName ownership (.quiet known handle) = outcome at hcase
  cases hcase with
  | null hnull => exact .null hnull
  | untried => exact .failed (.inl rfl)
  | failed hasked => exact .failed (.inr (congrArg Prod.snd hasked).symm)
  | found hnull hentry hwrapper hlive htarget =>
      exact .found hnull hentry hwrapper hlive htarget
  | @made cls swept asked built hnull hswept hfree hasked hbuilt htarget =>
      obtain rfl : built = asked := hbuilt.elim id id
      obtain rfl : built = swept := hasked.elim id fun hasked => (congrArg Prod.snd hasked).symm
      exact .made hnull hswept hfree htarget

/-! ## New wrappers -/

section Create

variable (registry : Registry) (handle : Handle) (cls : NativeClass) (ownership : Ownership)

/-- A wrapper comes in addition, and maybe an entry. -/
theorem exists_create_eq :
    ∃ identities, (registry.create handle cls ownership).2 = { registry with
      wrappers := registry.wrappers.push (.made handle cls ownership)
      identities } := by
  unfold create
  dsimp only
  split <;> exact ⟨_, rfl⟩

@[simp] theorem wrappers_create :
    (registry.create handle cls ownership).2.wrappers =
      registry.wrappers.push (.made handle cls ownership) := by
  obtain ⟨identities, hcreate⟩ := registry.exists_create_eq handle cls ownership
  rw [hcreate]

@[simp] theorem classes_create :
    (registry.create handle cls ownership).2.classes = registry.classes := by
  obtain ⟨identities, hcreate⟩ := registry.exists_create_eq handle cls ownership
  rw [hcreate]

@[simp] theorem releases_create :
    (registry.create handle cls ownership).2.releases = registry.releases := by
  obtain ⟨identities, hcreate⟩ := registry.exists_create_eq handle cls ownership
  rw [hcreate]

end Create

theorem wrapper?_create (registry : Registry) (handle : Handle) (cls : NativeClass)
    (ownership : Ownership) (other : WrapperId) :
    (registry.create handle cls ownership).2.wrapper? other =
      if other = ⟨registry.wrappers.size⟩ then some (.made handle cls ownership)
      else registry.wrapper? other := by
  rw [wrapper?, wrappers_create, Array.getElem?_push]
  by_cases hsame : other = ⟨registry.wrappers.size⟩
  · rw [if_pos hsame, if_pos (congrArg WrapperId.index hsame)]
  · rw [if_neg hsame, if_neg fun hindex => hsame (congrArg WrapperId.mk hindex), wrapper?]

/-- No wrapper is there yet at the place of the next one. -/
theorem wrapper?_next (registry : Registry) :
    registry.wrapper? ⟨registry.wrappers.size⟩ = none :=
  Array.getElem?_size

/-- Wrappers that are there stay as they are when a new one is made. -/
theorem wrapper?_create_of_some {cls : NativeClass} (h : registry.wrapper? id = some wrapper) :
    (registry.create handle cls ownership).2.wrapper? id = some wrapper := by
  have hother : id ≠ ⟨registry.wrappers.size⟩ := by
    intro hnext
    rw [hnext, wrapper?_next] at h
    cases h
  rw [wrapper?_create, if_neg hother, h]

theorem forget_eq_of_free (h : registry.identities.lookup handle = none) :
    registry.forget handle = registry := by
  have hkept : registry.identities.filter (fun entry => entry.1 != handle) =
      registry.identities := by
    rw [List.filter_eq_self]
    intro entry hentry
    rw [bne_comm]
    exact List.lookup_eq_none_iff.1 h entry hentry
  rw [forget, hkept]

/-- A new wrapper of a handle that has no entry gets one, unless it is one without identity. -/
theorem identities_create {cls : NativeClass}
    (hfree : cls.kind ≠ .struct → registry.identities.lookup handle = none) :
    (registry.create handle cls ownership).2.identities =
      if cls.kind = .struct then registry.identities
      else registry.identities ++ [(handle, ⟨registry.wrappers.size⟩)] := by
  unfold create identify
  dsimp only
  by_cases hkind : cls.kind = .struct
  · rw [if_pos hkind, if_neg (by simp [ObjectKind.usesIdentityTable_iff, hkind])]
  · rw [if_neg hkind, if_pos (ObjectKind.usesIdentityTable_iff.2 hkind), forget_eq_of_free]
    exact hfree hkind

/-! ## Dropping clones -/

/-- What dropping a clone of a wrapper comes to: one clone less, or the end of the wrapper. -/
inductive DropCase (registry : Registry) (id : WrapperId) (wrapper : Wrapper) :
    Option Release × Registry → Prop
  | shared (h : wrapper.strong ≠ 1 ∨ wrapper.foreign = true) :
      DropCase registry id wrapper (none, registry.replace id wrapper.dropped)
  | last (hlast : wrapper.strong = 1) (hown : wrapper.foreign = false) :
      DropCase registry id wrapper
        (if wrapper.owned then registry.release? wrapper else none,
          (registry.replace id wrapper.dropped).sweep wrapper.handle)

theorem drop_cases (h : registry.wrapper? id = some wrapper) :
    registry.DropCase id wrapper (registry.drop id) := by
  have hdrop : registry.drop id =
      if wrapper.strong != 1 || wrapper.foreign then (none, registry.replace id wrapper.dropped)
      else
        let swept := (registry.replace id wrapper.dropped).sweep wrapper.handle
        (if wrapper.owned then swept.release? wrapper else none, swept) := by
    rw [drop, h]
    simp only [modifyWrapper_eq_replace h]
    rfl
  rw [hdrop]
  split
  next hshared => exact .shared (by simpa using hshared)
  next hlast =>
    obtain ⟨hlast, hown⟩ : wrapper.strong = 1 ∧ wrapper.foreign = false := by simpa using hlast
    simp only [release?_sweep]
    exact .last hlast hown

/-! ## Registering classes -/

theorem of_registerClass_eq_ok {cls : NativeClass} {registry' : Registry}
    (h : registry.registerClass cls = .ok registry') :
    ∃ classes, registry.classes.register cls = .ok classes ∧
      registry' = { registry with classes } := by
  unfold registerClass at h
  cases hclasses : registry.classes.register cls with
  | error error =>
      rw [hclasses] at h
      cases h
  | ok classes =>
      rw [hclasses] at h
      cases h
      exact ⟨classes, rfl, rfl⟩

/-- A class that is found is found for good. -/
theorem get?_of_registerClass_eq_ok {cls found : NativeClass} {registry' : Registry}
    {typeName : String} (h : registry.registerClass cls = .ok registry')
    (hfound : registry.classes.get? typeName = some found) :
    registry'.classes.get? typeName = some found := by
  obtain ⟨classes, hregister, rfl⟩ := of_registerClass_eq_ok h
  unfold ClassTable.register at hregister
  split at hregister
  next => cases hregister
  next =>
    split at hregister
    next => cases hregister
    next =>
      cases hregister
      exact (List.find?_append ..).trans (Option.or_eq_some_iff.2 (.inl hfound))

@[simp] theorem classes_wrap (registry : Registry) (known : Introspection) (handle : Handle)
    (targetName : Option String) (ownership : Ownership) :
    (registry.wrap known handle targetName ownership).2.classes = registry.classes := by
  have hcase := registry.wrap_cases known handle targetName ownership
  generalize registry.wrap known handle targetName ownership = outcome at hcase
  cases hcase with
  | null => rfl
  | failed hswept => rcases hswept with hsame | hsame <;> simp [hsame]
  | found => rfl
  | made _ hswept => rcases hswept with hsame | hsame <;> simp [hsame]

@[simp] theorem classes_drop (registry : Registry) (id : WrapperId) :
    (registry.drop id).2.classes = registry.classes := by
  cases hwrapper : registry.wrapper? id with
  | none => rw [drop, hwrapper]
  | some wrapper =>
      have hcase := drop_cases hwrapper
      generalize registry.drop id = outcome at hcase
      cases hcase with
      | shared => rfl
      | last => exact classes_sweep _ _

end Registry

end Interop
