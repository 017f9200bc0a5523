import Interop.Proofs.Registry.Wrappers

/-! # One face for each handle

A table of identities is consistent if it has one entry for each handle with a live wrapper that has
an identity, namely that wrapper, and no others. So there is at most one such wrapper of a handle,
and whoever wraps the handle again gets it. New wrappers, changed ones and those that die leave the
table consistent.
-/

namespace Interop

namespace Registry

/-- The wrapper is live, has an identity, and wraps the handle. -/
def Face (registry : Registry) (handle : Handle) (id : WrapperId) : Prop :=
  ∃ wrapper, registry.wrapper? id = some wrapper ∧ wrapper.isLive = true ∧
    wrapper.cls.kind ≠ .struct ∧ wrapper.handle = handle

theorem face_iff {registry : Registry} {handle : Handle} {id : WrapperId} :
    registry.Face handle id ↔ (registry.wrapper? id).any (fun wrapper =>
      wrapper.isLive && (wrapper.cls.kind != .struct && wrapper.handle == handle)) = true := by
  simp [Face, Option.any_eq_true]

instance (registry : Registry) (handle : Handle) (id : WrapperId) :
    Decidable (registry.Face handle id) :=
  decidable_of_iff _ face_iff.symm

/-- The entries of the table are the wrappers that have identities, one for each handle. Nothing is
wrapped for another registry. -/
structure Consistent (registry : Registry) : Prop where
  distinct : (registry.identities.map Prod.fst).Nodup
  listed : ∀ handle id, (handle, id) ∈ registry.identities ↔ registry.Face handle id
  own : ∀ id wrapper, registry.wrapper? id = some wrapper →
    wrapper.foreign = false ∧ wrapper.handle.isNull = false

variable {registry : Registry} {id other : WrapperId} {wrapper new : Wrapper} {handle : Handle}
  {ownership : Ownership} {cls : NativeClass}

theorem consistent_empty (releases : Bool) : ({ releases } : Registry).Consistent := by
  refine ⟨List.nodup_nil, fun handle id => ⟨fun h => absurd h List.not_mem_nil, ?_⟩, ?_⟩
  · rintro ⟨wrapper, hwrapper, _⟩
    cases hwrapper
  · intro id wrapper hwrapper
    cases hwrapper

/-! ## Finding faces -/

theorem Consistent.lookup_eq_some_iff (h : registry.Consistent) :
    registry.identities.lookup handle = some id ↔ registry.Face handle id := by
  rw [lookup_eq_some_iff_mem h.distinct, h.listed]

/-- No handle has two faces. -/
theorem Consistent.face_unique (h : registry.Consistent) (hface : registry.Face handle id)
    (hother : registry.Face handle other) : other = id := by
  rw [← h.lookup_eq_some_iff] at hface hother
  rw [hface] at hother
  exact (Option.some.inj hother).symm

theorem Face.isLive_eq_true (h : registry.Face handle id) : registry.isLive id = true := by
  obtain ⟨wrapper, hwrapper, hlive, _⟩ := h
  rw [isLive_eq hwrapper, hlive]

/-- There are no entries of dead wrappers. -/
theorem Consistent.sweep_eq (h : registry.Consistent) (handle : Handle) :
    registry.sweep handle = registry :=
  sweep_eq_self fun _ hentry => (h.lookup_eq_some_iff.1 hentry).isLive_eq_true

theorem Consistent.of_eq {registry' : Registry} (h : registry.Consistent)
    (hwrappers : registry'.wrappers = registry.wrappers)
    (hidentities : registry'.identities = registry.identities) : registry'.Consistent := by
  have hsame : ∀ id, registry'.wrapper? id = registry.wrapper? id := fun id => by
    rw [wrapper?, wrapper?, hwrappers]
  refine ⟨?_, fun handle id => ?_, fun id wrapper => ?_⟩
  · rw [hidentities]
    exact h.distinct
  · simp only [hidentities, h.listed, Face, hsame]
  · rw [hsame]
    exact h.own id wrapper

/-- A wrapper that stays alive with its handle and its class stays the face it is. -/
theorem face_replace_iff (hwrapper : registry.wrapper? id = some wrapper)
    (hhandle : new.handle = wrapper.handle) (hcls : new.cls = wrapper.cls)
    (hlive : new.isLive = wrapper.isLive) :
    (registry.replace id new).Face handle other ↔ registry.Face handle other := by
  unfold Face
  rw [wrapper?_replace hwrapper]
  by_cases hother : other = id
  · rw [if_pos hother, hother, hwrapper]
    simp [hhandle, hcls, hlive]
  · rw [if_neg hother]

theorem Consistent.own_replace (h : registry.Consistent)
    (hwrapper : registry.wrapper? id = some wrapper) (hhandle : new.handle = wrapper.handle)
    (hforeign : new.foreign = wrapper.foreign) {found : Wrapper}
    (hfound : (registry.replace id new).wrapper? other = some found) :
    found.foreign = false ∧ found.handle.isNull = false := by
  rw [wrapper?_replace hwrapper] at hfound
  split at hfound
  next =>
    cases hfound
    rw [hforeign, hhandle]
    exact h.own id wrapper hwrapper
  next => exact h.own other found hfound

theorem Consistent.replace (h : registry.Consistent)
    (hwrapper : registry.wrapper? id = some wrapper) (hhandle : new.handle = wrapper.handle)
    (hcls : new.cls = wrapper.cls) (hlive : new.isLive = wrapper.isLive)
    (hforeign : new.foreign = wrapper.foreign) : (registry.replace id new).Consistent := by
  refine ⟨h.distinct, fun handle other => ?_, fun other found hfound => ?_⟩
  · rw [face_replace_iff hwrapper hhandle hcls hlive, ← h.listed]
    rfl
  · exact h.own_replace hwrapper hhandle hforeign hfound

/-- A new wrapper of a handle without a face is the face of the handle, if it has an identity. -/
theorem face_create_iff {other : WrapperId} {found : Handle} :
    (registry.create handle cls ownership).2.Face found other ↔
      (cls.kind ≠ .struct ∧ handle = found ∧ other = ⟨registry.wrappers.size⟩) ∨
        registry.Face found other := by
  unfold Face
  rw [wrapper?_create]
  by_cases hother : other = ⟨registry.wrappers.size⟩
  · rw [if_pos hother, hother, wrapper?_next]
    simp [Wrapper.made, Wrapper.isLive]
  · simp [hother]

theorem Consistent.create (h : registry.Consistent) (hnull : handle.isNull = false)
    (hfree : cls.kind ≠ .struct → registry.identities.lookup handle = none) :
    (registry.create handle cls ownership).2.Consistent := by
  refine ⟨?_, fun found other => ?_, fun other found hfound => ?_⟩
  · rw [identities_create hfree]
    split
    next => exact h.distinct
    next hkind =>
      rw [List.map_append, List.nodup_append]
      refine ⟨h.distinct, List.nodup_singleton _, fun key hkey new hnew => ?_⟩
      obtain ⟨entry, hentry, rfl⟩ := List.mem_map.1 hkey
      obtain rfl : new = handle := List.mem_singleton.1 hnew
      have hne := List.lookup_eq_none_iff.1 (hfree hkind) entry hentry
      exact (ne_of_beq_false (by simpa using hne)).symm
  · rw [identities_create hfree, face_create_iff, ← h.listed]
    split
    next hkind => simp [hkind]
    next hkind => simp [hkind, or_comm, eq_comm]
  · rw [wrapper?_create] at hfound
    split at hfound
    next =>
      cases hfound
      exact ⟨rfl, hnull⟩
    next => exact h.own other found hfound

/-! ## Wrappers that die -/

section Death

variable (h : registry.Consistent) (hwrapper : registry.wrapper? id = some wrapper)
  (hdead : new.isLive = false) (hhandle : new.handle = wrapper.handle)
  (hforeign : new.foreign = wrapper.foreign)
include h hwrapper hdead hhandle hforeign

omit h hhandle hforeign in
/-- A face that dies is a face no more, and the others stay. -/
theorem face_replace_iff_of_dead :
    (registry.replace id new).Face handle other ↔ other ≠ id ∧ registry.Face handle other := by
  unfold Face
  rw [wrapper?_replace hwrapper]
  by_cases hother : other = id
  · simp [hother, hdead]
  · simp [hother]

/-- A wrapper without identity was not in the table, and all that are there are alive. -/
theorem Consistent.die_of_struct (hkind : wrapper.cls.kind = .struct) :
    (registry.replace id new).Consistent := by
  refine ⟨h.distinct, fun found other => ?_, fun other found hfound => ?_⟩
  · rw [face_replace_iff_of_dead hwrapper hdead, ← h.listed, Registry.replace, iff_and_self]
    rintro hentry rfl
    obtain ⟨same, hsame, _, hother, _⟩ := (h.listed found other).1 hentry
    rw [hwrapper, Option.some.injEq] at hsame
    exact hother (hsame ▸ hkind)
  · exact h.own_replace hwrapper hhandle hforeign hfound

/-- The entry of a wrapper with an identity goes with it. -/
theorem Consistent.die_of_face (hface : registry.Face wrapper.handle id) :
    ((registry.replace id new).forget wrapper.handle).Consistent := by
  refine ⟨h.distinct.sublist (List.filter_sublist.map Prod.fst), fun found other => ?_,
    fun other found hfound => ?_⟩
  · have hforget : ((registry.replace id new).forget wrapper.handle).Face found other ↔
        (registry.replace id new).Face found other := Iff.rfl
    have hentry : (found, other) ∈ (registry.replace id new).identities ↔
        registry.Face found other := h.listed found other
    rw [hforget, face_replace_iff_of_dead hwrapper hdead, forget, List.mem_filter, hentry,
      and_comm, and_congr_left_iff]
    intro hother
    rw [bne_iff_ne, not_iff_not]
    constructor
    · rintro rfl
      exact h.face_unique hface hother
    · rintro rfl
      obtain ⟨same, hsame, _, _, rfl⟩ := hother
      rw [hwrapper, Option.some.injEq] at hsame
      rw [hsame]
  · exact h.own_replace hwrapper hhandle hforeign hfound

theorem Consistent.die (hlive : wrapper.isLive = true) :
    ((registry.replace id new).sweep wrapper.handle).Consistent := by
  by_cases hkind : wrapper.cls.kind = .struct
  · have hconsistent := h.die_of_struct hwrapper hdead hhandle hforeign hkind
    rw [hconsistent.sweep_eq]
    exact hconsistent
  · have hface : registry.Face wrapper.handle id := ⟨wrapper, hwrapper, hlive, hkind, rfl⟩
    have hentry : (registry.replace id new).identities.lookup wrapper.handle = some id :=
      h.lookup_eq_some_iff.2 hface
    have hdeadId : (registry.replace id new).isLive id = false := by
      rw [isLive, wrapper?_replace hwrapper, if_pos rfl]
      exact hdead
    rw [sweep_eq_forget hentry hdeadId]
    exact h.die_of_face hwrapper hdead hhandle hforeign hface

end Death

end Registry

end Interop
