import Interop.Proofs.Registry.Wrappers

/-! # Entries and the wrappers they lead to

Whoever clones and drops wrappers, be they alive or not, every entry of the table of identities
leads to a wrapper of its own handle. No wrapper goes, and a wrapper that owns its reference owns it
for good.
-/

namespace Interop

namespace Registry

/-- Every entry leads to a wrapper of its handle. -/
def Filed (registry : Registry) : Prop :=
  ∀ entry ∈ registry.identities,
    ∃ wrapper, registry.wrapper? entry.2 = some wrapper ∧ wrapper.handle = entry.1

variable {registry registry' : Registry} {id : WrapperId} {wrapper : Wrapper} {handle : Handle}

theorem filed_empty : ({} : Registry).Filed := fun _ h => absurd h List.not_mem_nil

/-- The wrapper that is found by a handle is one of it. -/
theorem Filed.handle_eq (h : registry.Filed)
    (hentry : registry.identities.lookup handle = some id)
    (hwrapper : registry.wrapper? id = some wrapper) : wrapper.handle = handle := by
  obtain ⟨found, hfound, hhandle⟩ := h _ (Lists.mem_of_lookup hentry)
  rw [hwrapper, Option.some.injEq] at hfound
  rw [hfound, hhandle]

/-- Entries may go, and wrappers may change in everything but their handles. -/
theorem Filed.mono (h : registry.Filed)
    (hentries : ∀ entry ∈ registry'.identities, entry ∈ registry.identities)
    (hwrappers : ∀ id wrapper, registry.wrapper? id = some wrapper →
      ∃ same, registry'.wrapper? id = some same ∧ same.handle = wrapper.handle) :
    registry'.Filed := by
  intro entry hentry
  obtain ⟨wrapper, hwrapper, hhandle⟩ := h entry (hentries entry hentry)
  obtain ⟨same, hsame, hkept⟩ := hwrappers entry.2 wrapper hwrapper
  exact ⟨same, hsame, hkept.trans hhandle⟩

theorem wrapper?_modifyWrapper (registry : Registry) (id other : WrapperId)
    (f : Wrapper → Wrapper) :
    (registry.modifyWrapper id f).wrapper? other =
      if id.index = other.index then (registry.wrapper? other).map f
      else registry.wrapper? other :=
  Array.getElem?_modify

theorem Filed.modifyWrapper (h : registry.Filed) (id : WrapperId) {f : Wrapper → Wrapper}
    (hf : ∀ wrapper, (f wrapper).handle = wrapper.handle) :
    (registry.modifyWrapper id f).Filed := by
  refine h.mono (fun _ hentry => hentry) fun other wrapper hwrapper => ?_
  rw [wrapper?_modifyWrapper, hwrapper]
  split
  next => exact ⟨f wrapper, rfl, hf wrapper⟩
  next => exact ⟨wrapper, rfl, rfl⟩

theorem Filed.forget (h : registry.Filed) (handle : Handle) : (registry.forget handle).Filed :=
  h.mono (fun _ hentry => (List.mem_filter.1 hentry).1) fun _ wrapper hwrapper =>
    ⟨wrapper, hwrapper, rfl⟩

theorem Filed.sweep (h : registry.Filed) (handle : Handle) : (registry.sweep handle).Filed := by
  unfold Registry.sweep
  split
  next => exact h.forget handle
  next => exact h

theorem Filed.create (h : registry.Filed) {cls : NativeClass} {ownership : Ownership}
    (hfree : cls.kind ≠ .struct → registry.identities.lookup handle = none) :
    (registry.create handle cls ownership).2.Filed := by
  intro entry hentry
  have hold : ∀ entry ∈ registry.identities, ∃ wrapper,
      (registry.create handle cls ownership).2.wrapper? entry.2 = some wrapper ∧
        wrapper.handle = entry.1 := by
    intro entry hentry
    obtain ⟨wrapper, hwrapper, hhandle⟩ := h entry hentry
    exact ⟨wrapper, wrapper?_create_of_some hwrapper, hhandle⟩
  rw [identities_create hfree] at hentry
  split at hentry
  next => exact hold entry hentry
  next =>
    rcases List.mem_append.1 hentry with hbefore | hnew
    · exact hold entry hbefore
    · obtain rfl := List.mem_singleton.1 hnew
      refine ⟨.made handle cls ownership, ?_, rfl⟩
      rw [wrapper?_create, if_pos rfl]

theorem Filed.wrap (h : registry.Filed) (known : Introspection) (handle : Handle)
    (targetName : Option String) (ownership : Ownership) :
    (registry.wrap known handle targetName ownership).2.Filed := by
  have hcase := wrap_cases registry known handle targetName ownership
  generalize registry.wrap known handle targetName ownership = outcome at hcase
  have hswept : ∀ swept, (swept = registry ∨ swept = registry.sweep handle) → swept.Filed := by
    rintro swept (rfl | rfl)
    · exact h
    · exact h.sweep handle
  cases hcase with
  | null => exact h
  | failed hkept => exact hswept _ hkept
  | @found id wrapper hnull hentry hwrapper hlive htarget =>
      have hagain := h.modifyWrapper id (f := (·.rewrapped ownership)) fun _ => rfl
      rwa [modifyWrapper_eq_replace hwrapper] at hagain
  | made hnull hkept hfree htarget => exact (hswept _ hkept).create hfree

theorem Filed.drop (h : registry.Filed) (id : WrapperId) : (registry.drop id).2.Filed := by
  cases hwrapper : registry.wrapper? id with
  | none =>
      rw [Registry.drop, hwrapper]
      exact h
  | some wrapper =>
      have hdropped := h.modifyWrapper id (f := Wrapper.dropped) fun _ => rfl
      rw [modifyWrapper_eq_replace hwrapper] at hdropped
      have hcase := drop_cases hwrapper
      generalize registry.drop id = outcome at hcase
      cases hcase with
      | shared => exact hdropped
      | last => exact hdropped.sweep wrapper.handle

theorem Filed.registerClass (h : registry.Filed) {cls : NativeClass}
    (hregister : registry.registerClass cls = .ok registry') : registry'.Filed := by
  obtain ⟨classes, _, rfl⟩ := of_registerClass_eq_ok hregister
  exact h

/-! ## Wrappers stay -/

/-- Every wrapper is still there, under the same handle and of the same class, and owns what it
owned. -/
def Keeps (registry registry' : Registry) : Prop :=
  ∀ id wrapper, registry.wrapper? id = some wrapper →
    ∃ same, registry'.wrapper? id = some same ∧ same.handle = wrapper.handle ∧
      same.cls = wrapper.cls ∧ (wrapper.owned = true → same.owned = true)

theorem keeps_of_eq (h : registry'.wrappers = registry.wrappers) : registry.Keeps registry' := by
  intro id wrapper hwrapper
  refine ⟨wrapper, ?_, rfl, rfl, fun howned => howned⟩
  rwa [wrapper?, h]

theorem Keeps.trans {registry'' : Registry} (h : registry.Keeps registry')
    (h' : registry'.Keeps registry'') : registry.Keeps registry'' := by
  intro id wrapper hwrapper
  obtain ⟨middle, hmiddle, hhandle, hcls, howned⟩ := h id wrapper hwrapper
  obtain ⟨same, hsame, hhandle', hcls', howned'⟩ := h' id middle hmiddle
  exact ⟨same, hsame, hhandle'.trans hhandle, hcls'.trans hcls,
    fun howns => howned' (howned howns)⟩

theorem keeps_modifyWrapper (registry : Registry) (id : WrapperId) {f : Wrapper → Wrapper}
    (hhandle : ∀ wrapper, (f wrapper).handle = wrapper.handle)
    (hcls : ∀ wrapper, (f wrapper).cls = wrapper.cls)
    (howned : ∀ wrapper, wrapper.owned = true → (f wrapper).owned = true) :
    registry.Keeps (registry.modifyWrapper id f) := by
  intro other wrapper hwrapper
  rw [wrapper?_modifyWrapper, hwrapper]
  split
  next => exact ⟨f wrapper, rfl, hhandle wrapper, hcls wrapper, howned wrapper⟩
  next => exact ⟨wrapper, rfl, rfl, rfl, fun howns => howns⟩

theorem keeps_sweep (registry : Registry) (handle : Handle) :
    registry.Keeps (registry.sweep handle) := by
  obtain ⟨identities, hsweep⟩ := registry.exists_sweep_eq handle
  rw [hsweep]
  exact keeps_of_eq rfl

theorem keeps_rewrapped (hwrapper : registry.wrapper? id = some wrapper) (ownership : Ownership) :
    registry.Keeps (registry.replace id (wrapper.rewrapped ownership)) := by
  have hkeeps := registry.keeps_modifyWrapper id (f := (·.rewrapped ownership)) (fun _ => rfl)
    (fun _ => rfl) fun _ howns => by simp [Wrapper.rewrapped, howns]
  rwa [modifyWrapper_eq_replace hwrapper] at hkeeps

theorem keeps_create (registry : Registry) (handle : Handle) (cls : NativeClass)
    (ownership : Ownership) : registry.Keeps (registry.create handle cls ownership).2 := by
  intro id wrapper hwrapper
  exact ⟨wrapper, wrapper?_create_of_some hwrapper, rfl, rfl, fun howns => howns⟩

theorem keeps_wrap (registry : Registry) (known : Introspection) (handle : Handle)
    (targetName : Option String) (ownership : Ownership) :
    registry.Keeps (registry.wrap known handle targetName ownership).2 := by
  have hcase := wrap_cases registry known handle targetName ownership
  generalize registry.wrap known handle targetName ownership = outcome at hcase
  have hswept : ∀ swept, (swept = registry ∨ swept = registry.sweep handle) →
      registry.Keeps swept := by
    rintro swept (rfl | rfl)
    · exact keeps_of_eq rfl
    · exact registry.keeps_sweep handle
  cases hcase with
  | null => exact keeps_of_eq rfl
  | failed hkept => exact hswept _ hkept
  | found hnull hentry hwrapper hlive htarget => exact keeps_rewrapped hwrapper ownership
  | made hnull hkept hfree htarget => exact (hswept _ hkept).trans (keeps_create _ _ _ _)

theorem keeps_drop (registry : Registry) (id : WrapperId) :
    registry.Keeps (registry.drop id).2 := by
  cases hwrapper : registry.wrapper? id with
  | none =>
      rw [Registry.drop, hwrapper]
      exact keeps_of_eq rfl
  | some wrapper =>
      have hdropped := registry.keeps_modifyWrapper id (f := Wrapper.dropped) (fun _ => rfl)
        (fun _ => rfl) fun _ howns => howns
      rw [modifyWrapper_eq_replace hwrapper] at hdropped
      have hcase := drop_cases hwrapper
      generalize registry.drop id = outcome at hcase
      cases hcase with
      | shared => exact hdropped
      | last => exact hdropped.trans (keeps_sweep _ _)

/-- Some wrapper of the handle, and it owns its reference. -/
def Owns (registry : Registry) (id : WrapperId) (handle : Handle) : Prop :=
  ∃ wrapper, registry.wrapper? id = some wrapper ∧ wrapper.handle = handle ∧ wrapper.owned = true

theorem Owns.of_keeps (h : registry.Owns id handle) (hkeeps : registry.Keeps registry') :
    registry'.Owns id handle := by
  obtain ⟨wrapper, hwrapper, hhandle, howned⟩ := h
  obtain ⟨same, hsame, hsameHandle, _, hsameOwned⟩ := hkeeps id wrapper hwrapper
  exact ⟨same, hsame, hsameHandle.trans hhandle, hsameOwned howned⟩

/-- What is wrapped with its reference is owned by its wrapper, whether that was there before or
not. -/
theorem Filed.owns_of_wrap_full (h : registry.Filed) {known : Introspection}
    {targetName : Option String} {wrapped : Wrapped}
    (hwrap : registry.wrap known handle targetName .full = (.ok wrapped, registry'))
    (hid : wrapped.id = some id) : registry'.Owns id handle := by
  have hcase := wrap_cases registry known handle targetName .full
  rw [hwrap] at hcase
  cases hcase with
  | null => cases hid
  | @found _ wrapper _ hentry hwrapper =>
      have hhandle : wrapper.handle = handle := h.handle_eq hentry hwrapper
      cases hid
      refine ⟨wrapper.rewrapped .full, ?_, hhandle, ?_⟩
      · rw [wrapper?_replace hwrapper, if_pos rfl]
      · simp [Wrapper.rewrapped, Ownership.transfersReference]
  | @made cls swept =>
      cases hid
      refine ⟨.made handle cls .full, ?_, rfl, rfl⟩
      rw [wrapper?_create]
      exact if_pos rfl

/-- Some wrapper of the handle. -/
def Wraps (registry : Registry) (id : WrapperId) (handle : Handle) : Prop :=
  ∃ wrapper, registry.wrapper? id = some wrapper ∧ wrapper.handle = handle

theorem Wraps.of_keeps (h : registry.Wraps id handle) (hkeeps : registry.Keeps registry') :
    registry'.Wraps id handle := by
  obtain ⟨wrapper, hwrapper, hhandle⟩ := h
  obtain ⟨same, hsame, hsameHandle, _⟩ := hkeeps id wrapper hwrapper
  exact ⟨same, hsame, hsameHandle.trans hhandle⟩

/-- What is wrapped comes in a wrapper of its handle, whether that was there before or not. -/
theorem Filed.wraps_of_wrap (h : registry.Filed) {known : Introspection}
    {targetName : Option String} {ownership : Ownership} {wrapped : Wrapped}
    (hwrap : registry.wrap known handle targetName ownership = (.ok wrapped, registry'))
    (hid : wrapped.id = some id) : registry'.Wraps id handle := by
  have hcase := wrap_cases registry known handle targetName ownership
  rw [hwrap] at hcase
  cases hcase with
  | null => cases hid
  | @found _ wrapper _ hentry hwrapper =>
      have hhandle : wrapper.handle = handle := h.handle_eq hentry hwrapper
      cases hid
      refine ⟨wrapper.rewrapped ownership, ?_, hhandle⟩
      rw [wrapper?_replace hwrapper, if_pos rfl]
  | @made cls swept =>
      cases hid
      refine ⟨.made handle cls ownership, ?_, rfl⟩
      rw [wrapper?_create]
      exact if_pos rfl

/-- Some wrapper of the handle that owns its reference and is one of the class that is registered
under the name. -/
def OwnsAs (registry : Registry) (typeName : String) (id : WrapperId) (handle : Handle) : Prop :=
  ∃ wrapper, registry.wrapper? id = some wrapper ∧ wrapper.handle = handle ∧
    wrapper.owned = true ∧ registry.classes.get? typeName = some wrapper.cls

theorem OwnsAs.of_keeps {typeName : String} (h : registry.OwnsAs typeName id handle)
    (hkeeps : registry.Keeps registry')
    (hclasses : ∀ cls, registry.classes.get? typeName = some cls →
      registry'.classes.get? typeName = some cls) : registry'.OwnsAs typeName id handle := by
  obtain ⟨wrapper, hwrapper, hhandle, howned, hcls⟩ := h
  obtain ⟨same, hsame, hsameHandle, hsameCls, hsameOwned⟩ := hkeeps id wrapper hwrapper
  exact ⟨same, hsame, hsameHandle.trans hhandle, hsameOwned howned,
    hsameCls ▸ hclasses wrapper.cls hcls⟩

/-! ## Addresses of live wrappers -/

variable {start start' stop stop' : Nat}

/-- No live wrapper is filed under the handle. -/
def Unfiled (registry : Registry) (handle : Handle) : Prop :=
  ∀ id wrapper, registry.identities.lookup handle = some id →
    registry.wrapper? id = some wrapper → wrapper.isLive = false

/-- Live wrappers are filed under no address from the start up to the stop. -/
def LiveOutside (registry : Registry) (start stop : Nat) : Prop :=
  ∀ entry ∈ registry.identities, ∀ wrapper, registry.wrapper? entry.2 = some wrapper →
    wrapper.isLive = true → entry.1.toNat < start ∨ stop ≤ entry.1.toNat

theorem LiveOutside.unfiled (h : registry.LiveOutside start stop) (hstart : start ≤ handle.toNat)
    (hstop : handle.toNat < stop) : registry.Unfiled handle := by
  intro id wrapper hentry hwrapper
  by_contra hlive
  rw [Bool.not_eq_false] at hlive
  rcases h _ (Lists.mem_of_lookup hentry) wrapper hwrapper hlive with hbelow | habove
  · exact absurd hbelow (Nat.not_lt_of_le hstart)
  · exact absurd hstop (Nat.not_lt_of_le habove)

/-- A smaller stretch of addresses, and entries that were there before. -/
theorem LiveOutside.mono (h : registry.LiveOutside start stop)
    (hentries : ∀ entry ∈ registry'.identities, entry ∈ registry.identities)
    (hwrappers : registry'.wrappers = registry.wrappers) (hstart : start ≤ start')
    (hstop : stop' ≤ stop) : registry'.LiveOutside start' stop' := by
  intro entry hentry wrapper hwrapper hlive
  rw [wrapper?, hwrappers] at hwrapper
  rcases h entry (hentries entry hentry) wrapper hwrapper hlive with hbelow | habove
  · exact .inl (Nat.lt_of_lt_of_le hbelow hstart)
  · exact .inr (Nat.le_trans hstop habove)

theorem LiveOutside.sweep (h : registry.LiveOutside start stop) (handle : Handle) :
    (registry.sweep handle).LiveOutside start stop := by
  unfold Registry.sweep
  split
  next =>
    exact h.mono (fun _ hentry => (List.mem_filter.1 hentry).1) rfl (Nat.le_refl _) (Nat.le_refl _)
  next => exact h

/-- A new wrapper of an address below the start may be filed. -/
theorem LiveOutside.create (h : registry.LiveOutside start stop) (hfiled : registry.Filed)
    {cls : NativeClass} {ownership : Ownership}
    (hfree : cls.kind ≠ .struct → registry.identities.lookup handle = none)
    (hbelow : handle.toNat < start) :
    (registry.create handle cls ownership).2.LiveOutside start stop := by
  intro entry hentry wrapper hwrapper hlive
  have hold : entry ∈ registry.identities → entry.1.toNat < start ∨ stop ≤ entry.1.toNat := by
    intro hbefore
    obtain ⟨found, hfound, _⟩ := hfiled entry hbefore
    obtain rfl := Option.some.inj ((wrapper?_create_of_some hfound).symm.trans hwrapper)
    exact h entry hbefore found hfound hlive
  rw [identities_create hfree] at hentry
  split at hentry
  next => exact hold hentry
  next =>
    rcases List.mem_append.1 hentry with hbefore | hnew
    · exact hold hbefore
    · obtain rfl := List.mem_singleton.1 hnew
      exact .inl hbelow

end Registry

end Interop
