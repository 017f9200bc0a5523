import Interop.Proofs.Bridge.ArrayResults
import Interop.Proofs.Bridge.Elements

/-! # Copies of the records of an array

The records of an array that a call returns are copied one after the other. Each copy gets a block
behind all that was there when the call returned and behind the copies before it, and is wrapped
with its reference. No live wrapper is found for the address of a new block, unless one was filed
under it before the heap came to it, so each copy gets a wrapper of its own.
-/

namespace Interop

open Schema Relation Steps

variable {H : Host}

namespace Bridge

variable {env : Env H} {bridge after : Bridge H} {handle : Handle} {value : Value}

/-! ## Wrapping anew -/

/-- A handle has been wrapped anew, with its reference, as an instance of the class that is
registered under a name. The other wrappers are what they were, and nothing has happened to
memory. -/
structure WrapsAnew (bridge after : Bridge H) (typeName : String) (handle : Handle) : Prop where
  owns : after.registry.OwnsAs typeName ⟨bridge.registry.wrappers.size⟩ handle
  live : after.registry.isLive ⟨bridge.registry.wrappers.size⟩ = true
  others : ∀ id wrapper, bridge.registry.wrapper? id = some wrapper →
    after.registry.wrapper? id = some wrapper
  heap : after.heap = bridge.heap
  liveOutside : ∀ start stop, handle.toNat < start → bridge.registry.LiveOutside start stop →
    after.registry.LiveOutside start stop

theorem wrapsAnew_of_wrap_eq_ok (hfiled : bridge.registry.Filed) (hnull : handle.isNull = false)
    {target : String}
    (hunfiled : ∀ cls, bridge.registry.classes.get? target = some cls → cls.kind ≠ .struct →
      bridge.registry.Unfiled handle)
    (h : wrap env handle (some target) .full bridge = .ok value after) :
    value = .object ⟨bridge.registry.wrappers.size⟩ handle ∧
      bridge.WrapsAnew after target handle := by
  have hcase := bridge.registry.wrap_cases bridge.introspection handle (some target) .full
  unfold wrap wrapRaw at h
  generalize bridge.registry.wrap bridge.introspection handle (some target) .full = outcome
    at hcase h
  cases hcase with
  | null hisNull => exact absurd (hisNull.symm.trans hnull) (by decide)
  | failed => cases h
  | @found id wrapper _ hentry hwrapper hlive htarget =>
      obtain ⟨cls, hcls, hkind⟩ := htarget target rfl
      have hdead := hunfiled cls hcls hkind id wrapper hentry hwrapper
      exact absurd (hlive.symm.trans hdead) (by decide)
  | @made cls swept _ hswept hfree htarget =>
      -- the table may have been swept before, which leaves wrappers and classes alone
      have hwrappers : swept.wrappers = bridge.registry.wrappers := by
        rcases hswept with hsame | hsame
        · rw [hsame]
        · obtain ⟨_, hsweep⟩ := bridge.registry.exists_sweep_eq handle
          rw [hsame, hsweep]
      have hclasses : swept.classes = bridge.registry.classes := by
        rcases hswept with hsame | hsame <;> simp [hsame]
      have hmade : (swept.create handle cls .full).2.wrapper? ⟨bridge.registry.wrappers.size⟩ =
          some (.made handle cls .full) := by
        rw [Registry.wrapper?_create, hwrappers, if_pos rfl]
      have hvalue : value = .object ⟨swept.wrappers.size⟩ handle := by
        cases h
        rfl
      have hafter : after = { bridge with registry := (swept.create handle cls .full).2 } := by
        cases h
        rfl
      subst hafter
      refine ⟨hwrappers ▸ hvalue, ⟨_, hmade, rfl, rfl, ?_⟩, ?_, fun id wrapper hwrapper => ?_, rfl,
        fun start stop hbelow hlive => ?_⟩
      · rw [Registry.classes_create, hclasses]
        exact htarget target rfl
      · exact Registry.isLive_eq hmade
      · rw [Registry.wrapper?, ← hwrappers] at hwrapper
        exact Registry.wrapper?_create_of_some hwrapper
      · rcases hswept with rfl | rfl
        · exact hlive.create hfiled hfree hbelow
        · exact (hlive.sweep handle).create (hfiled.sweep handle) hfree hbelow

theorem wrapsAnew_of_wrapAs_eq_ok (hgoverns : Governs env (Change env))
    (hattained : Attained env bridge) (hnull : handle.isNull = false) {qualified : String}
    (hunfiled : ∀ cls, after.registry.classes.get? (schemaTypeName (repo env) qualified) =
      some cls → cls.kind ≠ .struct → bridge.registry.Unfiled handle)
    (h : wrapAs env handle qualified .full bridge = .ok value after) :
    value = .object ⟨bridge.registry.wrappers.size⟩ handle ∧
      bridge.WrapsAnew after (schemaTypeName (repo env) qualified) handle := by
  obtain ⟨_, registered, hspace, hwrap⟩ := of_bind_eq_ok h
  obtain ⟨_, _, hregistered, hpure⟩ := of_bind_eq_ok hspace
  cases hpure
  -- registering the namespace of the record leaves wrappers and memory alone
  have hsame := SameWrappers.of_run
    (((registers_sameWrappers env).enrols.within_namespaceOf qualified).of_eq_ok hregistered)
  have hheap := heap_of_registering
    (fun _ hregisters => hregisters.enrols.within_namespaceOf qualified) hregistered
  have hlater := (hgoverns.serves.within_wrap _ _ _).of_eq_ok hwrap
  obtain ⟨rfl, hanew⟩ := wrapsAnew_of_wrap_eq_ok (hsame.filed hattained.filed) hnull
    (fun cls hcls hkind id wrapper hentry hwrapper => hunfiled cls (get?_of_run hlater hcls) hkind
      id wrapper (hsame.2 ▸ hentry) ((hsame.wrapper?_eq id).symm.trans hwrapper)) hwrap
  have howns := hanew.owns
  have hlive := hanew.live
  rw [hsame.1] at howns hlive
  refine ⟨by rw [hsame.1], howns, hlive, fun id wrapper hwrapper => ?_, hanew.heap.trans hheap,
    fun start stop hbelow houtside => ?_⟩
  · exact hanew.others id wrapper ((hsame.wrapper?_eq id).trans hwrapper)
  · exact hanew.liveOutside start stop hbelow (houtside.mono
      (fun entry hentry => hsame.2 ▸ hentry) hsame.1 (Nat.le_refl _) (Nat.le_refl _))

/-! ## One record -/

section Copy

variable {base source copy : Handle} {innerType qualified library : String} {own : Ownership}
  {size offset stride stop : Nat} {id : WrapperId} {returned before behind : Bridge H}
  {items : List Value} {item : Value}

/-- A record has been copied into a block of its own, and the block has been wrapped anew. -/
structure Copied (env : Env H) (qualified : String) (size : Nat) (source : Handle)
    (before behind : Bridge H) : Prop where
  room : before.heap.next < twoPow 64
  framed : before.heap.Framed ∅ behind.heap
  starts : behind.heap.Starts (.ofNat before.heap.next) (schemaTypeName (repo env) qualified) size
  bytes : ∀ bytes, before.heap.recordBytes source size = .ok bytes →
    behind.heap.bytes (.ofNat before.heap.next) 0 size = .ok bytes
  owns : behind.registry.OwnsAs (schemaTypeName (repo env) qualified)
    ⟨before.registry.wrappers.size⟩ (.ofNat before.heap.next)
  live : behind.registry.isLive ⟨before.registry.wrappers.size⟩ = true
  others : ∀ id wrapper, before.registry.wrapper? id = some wrapper →
    behind.registry.wrapper? id = some wrapper
  filed : ∀ stop, before.registry.LiveOutside before.heap.next stop →
    behind.registry.LiveOutside behind.heap.next stop

theorem copied_of_copyRecord_eq_ok (hgoverns : Governs env (Change env))
    (hattained : Attained env before) (hstop : behind.heap.next ≤ stop) (hfits : stop ≤ twoPow 64)
    (hfiled : ∀ cls, behind.registry.classes.get? (schemaTypeName (repo env) qualified) =
      some cls → cls.kind ≠ .struct → before.registry.LiveOutside before.heap.next stop)
    (h : copyRecord env (.struct innerType library size true own) qualified size base offset
      before = .ok item behind) :
    ∃ source, base.offset? offset = some source ∧
      item = .object ⟨before.registry.wrappers.size⟩ (.ofNat before.heap.next) ∧
      Copied env qualified size source before behind := by
  obtain ⟨source, copied, hsource, hsame, hrun, hwrite, hwrap⟩ := of_copyRecord_eq_ok h
  have hsound := hattained.spaced.sound
  have hgrown := Heap.next_le_of_reflTransGen
    (heap_of_changes ((hgoverns.serves.within_wrapAs _ _ _).of_eq_ok hwrap))
  have hcome := Nat.le_trans hgrown hstop
  have hnext := Nat.le_trans hcome hfits
  have hlt := Heap.next_lt_of_copy hwrite
  have hroom := Nat.lt_of_lt_of_le hlt hnext
  have hcopy := Handle.toNat_ofNat_of_lt hroom
  -- the address of the copy is new, so no wrapper that lives is filed for it
  obtain ⟨rfl, hanew⟩ := wrapsAnew_of_wrapAs_eq_ok hgoverns (hattained.trans hrun)
    (Heap.isNull_of_write_eq_ok hwrite)
    (fun cls hcls hkind => hsame ▸ (hfiled cls hcls hkind).unfiled (Nat.le_of_eq hcopy.symm)
      (Nat.lt_of_le_of_lt (Nat.le_of_eq hcopy) (Nat.lt_of_lt_of_le hlt hcome))) hwrap
  refine ⟨source, hsource, by rw [hsame], ?_⟩
  constructor
  case room => exact hroom
  case framed => exact hanew.heap ▸ Heap.framed_of_copy hwrite
  case starts => exact hanew.heap ▸ Heap.starts_of_copy hwrite hsound hnext
  case bytes => exact fun bytes hbytes => hanew.heap ▸ Heap.bytes_of_copy hwrite hsound hbytes
  case owns => exact hsame ▸ hanew.owns
  case live => exact hsame ▸ hanew.live
  case others => exact hsame ▸ hanew.others
  case filed =>
    intro stop houtside
    rw [← hsame] at houtside
    rw [hanew.heap]
    exact hanew.liveOutside _ _ (Nat.lt_of_le_of_lt (Nat.le_of_eq hcopy) hlt)
      (houtside.mono (fun _ hentry => hentry) rfl (Nat.le_of_lt hlt) (Nat.le_refl _))

/-- What a record has become that lay at an address when a call returned: a live wrapper of its
class that owns a block behind all that was there then. In the block lie the bytes that lay at the
address. -/
structure IsCopy (env : Env H) (qualified : String) (size : Nat) (returned : Bridge H)
    (source : Handle) (bridge : Bridge H) (id : WrapperId) (copy : Handle) : Prop where
  owns : bridge.registry.OwnsAs (schemaTypeName (repo env) qualified) id copy
  live : bridge.registry.isLive id = true
  behind : ∀ block ∈ returned.heap.blocks, block.base + block.size ≤ copy.toNat
  starts : bridge.heap.Starts copy (schemaTypeName (repo env) qualified) size
  bytes : ∀ bytes, returned.heap.bytes source 0 size = .ok bytes →
    bridge.heap.bytes copy 0 size = .ok bytes

/-! ## One after the other -/

/-- The first records of an array have been copied. -/
structure Copying (env : Env H) (qualified : String) (base : Handle) (size stride : Nat)
    (returned : Bridge H) (items : List Value) (bridge : Bridge H) : Prop where
  run : ReflTransGen (Change env) returned bridge
  framed : returned.heap.Framed ∅ bridge.heap
  filed : ∀ stop, returned.registry.LiveOutside returned.heap.next stop →
    bridge.registry.LiveOutside bridge.heap.next stop
  distinct : (items.map Value.asHandle?).Nodup
  copies : ∀ (index : Nat) (item : Value), items[index]? = some item → ∃ id copy,
    item = .object id copy ∧ returned.heap.next ≤ copy.toNat ∧
      IsCopy env qualified size returned (.ofNat (base.toNat + index * stride)) bridge id copy

/-- A copy stays what it is as long as its wrapper is live and the blocks that came after the call
are kept. -/
theorem IsCopy.of_run (h : IsCopy env qualified size returned source before id copy)
    (hattained : Attained env before) (hstart : returned.heap.next ≤ copy.toNat)
    (hrun : ReflTransGen (Change env) before behind) (hlive : behind.registry.isLive id = true)
    (hkeeps : before.heap.KeepsFrom returned.heap.next ∅ behind.heap) :
    IsCopy env qualified size returned source behind id copy :=
  have hsound := (hattained.trans hrun).spaced.sound
  { owns := ownsAs_of_run hrun h.owns
    live := hlive
    behind := h.behind
    starts := h.starts.of_keepsFrom hkeeps hsound hstart
    bytes := fun bytes hbytes => h.starts.bytes_eq hkeeps hsound hstart (h.bytes bytes hbytes) }

/-- It stays what it is when another record is copied. -/
theorem IsCopy.of_copied (h : IsCopy env qualified size returned source before id copy)
    (hattained : Attained env before) (hstart : returned.heap.next ≤ copy.toNat)
    (hrun : ReflTransGen (Change env) before behind) {other : Handle}
    (hcopied : Copied env qualified size other before behind)
    (hfits : behind.heap.next ≤ twoPow 64) :
    IsCopy env qualified size returned source behind id copy := by
  refine h.of_run hattained hstart hrun ?_ (hcopied.framed.keepsFrom hattained.spaced.sound hfits _)
  obtain ⟨wrapper, hwrapper, _⟩ := h.owns
  rw [Registry.isLive_eq (hcopied.others id wrapper hwrapper), ← Registry.isLive_eq hwrapper]
  exact h.live

/-- A record that nobody has touched since the call returned has become its copy. -/
theorem Copied.isCopy (h : Copied env qualified size source before behind)
    (hreturned : returned.heap.Sound) (hbefore : before.heap.Sound)
    (hframed : returned.heap.Framed ∅ before.heap) (hnull : source.isNull = false) :
    IsCopy env qualified size returned source behind ⟨before.registry.wrappers.size⟩
      (.ofNat before.heap.next) where
  owns := h.owns
  live := h.live
  behind := by
    intro block hblock
    rw [Handle.toNat_ofNat_of_lt h.room]
    exact Nat.le_trans (hreturned.below block hblock) hframed.next_le
  starts := h.starts
  bytes := by
    intro bytes hbytes
    have hkept := (hframed.keeps hreturned (Nat.le_of_lt h.room)).bytes_eq hbefore hbytes
      fun _ _ => Set.notMem_empty _
    apply h.bytes
    rwa [Heap.recordBytes, hnull, if_neg Bool.false_ne_true]

/-- One more record is copied. -/
theorem Copying.concat (h : Copying env qualified base size stride returned items before)
    (hgoverns : Governs env (Change env)) (hattained : Attained env returned)
    (hnull : base.isNull = false) (hstop : behind.heap.next ≤ stop) (hfits : stop ≤ twoPow 64)
    (hfiled : ∀ cls, behind.registry.classes.get? (schemaTypeName (repo env) qualified) =
      some cls → cls.kind ≠ .struct → returned.registry.LiveOutside returned.heap.next stop)
    (hcopy : copyRecord env (.struct innerType library size true own) qualified size base
      (items.length * stride) before = .ok item behind) :
    Copying env qualified base size stride returned (items ++ [item]) behind := by
  have hbefore := hattained.trans h.run
  have hrun := (hgoverns.serves.within_copyRecord _ _ _ _ _).of_eq_ok hcopy
  obtain ⟨source, hsource, rfl, hcopied⟩ := copied_of_copyRecord_eq_ok hgoverns hbefore hstop
    hfits (fun cls hcls hkind => h.filed stop (hfiled cls hcls hkind)) hcopy
  have hnew := Handle.toNat_ofNat_of_lt hcopied.room
  constructor
  case run => exact h.run.trans hrun
  case framed => exact h.framed.trans hcopied.framed
  case filed => exact fun stop houtside => hcopied.filed stop (h.filed stop houtside)
  case distinct =>
    rw [List.map_append, List.map_singleton]
    refine List.Nodup.append h.distinct (List.nodup_singleton _) ?_
    rw [List.disjoint_singleton]
    intro hmem
    obtain ⟨other, hother, hsame⟩ := List.mem_map.1 hmem
    obtain ⟨index, hindex⟩ := List.getElem?_of_mem hother
    obtain ⟨id, copy, rfl, _, hiscopy⟩ := h.copies index other hindex
    obtain rfl : copy = .ofNat before.heap.next := Option.some.inj hsame
    -- the blocks of the other copies were made before
    have hlt := hiscopy.starts.lt_next hbefore.spaced.sound
    exact absurd hnew (Nat.ne_of_lt hlt)
  case copies =>
    intro index other hother
    rcases Nat.lt_or_ge index items.length with hlt | hge
    · rw [List.getElem?_append_left hlt] at hother
      obtain ⟨id, copy, rfl, hstart, hiscopy⟩ := h.copies index other hother
      exact ⟨id, copy, rfl, hstart, hiscopy.of_copied hbefore hstart hrun hcopied
        (Nat.le_trans hstop hfits)⟩
    · rw [List.getElem?_append_right hge, List.getElem?_singleton] at hother
      split at hother
      next hlast =>
        cases hother
        obtain rfl : index = items.length := by omega
        have hthere := Handle.isNull_of_offset?_eq_some hnull hsource
        obtain ⟨_, rfl⟩ := Handle.of_offset?_eq_some hsource
        exact ⟨_, _, rfl, hnew.symm ▸ h.framed.next_le,
          hcopied.isCopy hattained.spaced.sound hbefore.spaced.sound h.framed hthere⟩
      next => cases hother

/-- An array of records that is returned is copied record by record, and freed behind that if it was
given away. -/
theorem copying_of_lift_array_eq_ok (hgoverns : Governs env (Change env))
    (hattained : Attained env returned) {args : Array NativeArg} {ownership : Ownership}
    {length : ArrayLength} {kind : ArrayKind} {raw : Value} (hbase : raw.nonNull? = some base)
    (h : lift env args (.array (.struct qualified library size true own) ownership length kind
      stride) raw returned = .ok value after)
    (hstop : after.heap.next ≤ stop) (hfits : stop ≤ twoPow 64)
    (hfiled : ∀ cls, after.registry.classes.get? (schemaTypeName (repo env) qualified) =
      some cls → cls.kind ≠ .struct → returned.registry.LiveOutside returned.heap.next stop) :
    ∃ items copied, value = .array items ∧ after = copied.spent env ownership base ∧
      (length = .fixed items.length ∨ ∃ index, length = .param index ∧
        lengthAt args index returned = .ok items.length returned) ∧
      Copying env qualified base size stride returned items copied := by
  obtain ⟨_, items, copied, hcount, hcollect, rfl, rfl⟩ := of_lift_records_eq_ok hbase h
  have hspent := hgoverns.serves.within_spent ownership base copied
  have hstart : Copying env qualified base size stride returned [] returned :=
    ⟨.refl, Heap.framed_refl _ _, fun _ => id, List.nodup_nil, fun _ _ hitem => by cases hitem⟩
  have hwithin : ∀ index, Within (Change env) (copyRecord env
      (.struct qualified library size true own) qualified size base (index * stride)) :=
    fun _ => hgoverns.serves.within_copyRecord _ _ _ _ _
  have hcopying := collect_induction hwithin hstart
    (fun done item before behind hdone hcopy hrest =>
      have hlater := hrest.trans hspent
      hdone.concat hgoverns hattained (Value.isNull_of_nonNull?_eq_some hbase)
        (Nat.le_trans (Heap.next_le_of_reflTransGen (heap_of_changes hlater)) hstop) hfits
        (fun cls hcls hkind => hfiled cls (get?_of_run hlater hcls) hkind) hcopy) hcollect
  obtain ⟨rfl, _⟩ := steps_of_collect_eq_ok hwithin hcollect
  refine ⟨items, copied, rfl, rfl, ?_, hcopying⟩
  cases length with
  | fixed =>
      cases hcount
      exact .inl rfl
  | param index => exact .inr ⟨index, rfl, hcount⟩
  | zeroTerminated =>
      rw [elementCount] at hcount
      cases of_inCall_eq_ok hcount
  | container => cases hcount

end Copy

end Bridge

end Interop
