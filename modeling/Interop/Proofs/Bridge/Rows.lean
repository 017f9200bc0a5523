import Interop.Proofs.Bridge.Calls
import Interop.Proofs.Bridge.InlineRecords
import Interop.Proofs.Bridge.Touches
import Interop.Proofs.Mapping.Elements
import Interop.Proofs.Memory.Copies

/-! # Arrays of records by value

Records by value are copied into an array one behind the other when a call or a field takes them,
and an array that holds them is read record by record, at the same distances.
-/

namespace Interop

open Schema Relation Steps

variable {H : Host}

/-- A record that is written in front of a row is its first. -/
theorem Heap.Row.of_write {handle : Handle} {innerType library : String} {size offset : Nat}
    {own : Ownership} {item : Value} {rest : List Value} {heap middle heap' : Heap} {u : Unit}
    (hwrite : Heap.write handle (.struct innerType library size true own) offset item.stored heap =
      .ok u middle)
    (hrest : Heap.Row handle size (offset + size) rest middle heap') :
    Heap.Row handle size offset (item :: rest) heap heap' := by
  obtain ⟨source, bytes, hsource, hbytes, hstore⟩ := Heap.of_write_inPlace_eq_ok hwrite
  rw [Value.asHandle?_stored] at hsource
  exact .cons hsource hbytes hstore hrest

namespace Bridge

variable {env : Env H} {bridge middle after : Bridge H} {handle : Handle} {value : Value}

/-- What is there is wrapped as something. -/
theorem exists_object_of_wrap_eq_ok (hnull : handle.isNull = false) {target : Option String}
    {ownership : Ownership} (h : wrap env handle target ownership bridge = .ok value after) :
    ∃ id, value = .object id handle := by
  have hcase := bridge.registry.wrap_cases bridge.introspection handle target ownership
  unfold wrap wrapRaw at h
  generalize bridge.registry.wrap bridge.introspection handle target ownership = outcome
    at hcase h
  cases hcase with
  | null hisNull => exact absurd (hisNull.symm.trans hnull) (by decide)
  | failed => cases h
  | @found id =>
      cases h
      exact ⟨id, rfl⟩
  | @made cls swept =>
      cases h
      exact ⟨_, rfl⟩

theorem exists_object_of_wrapAs_eq_ok (hnull : handle.isNull = false) {qualified : String}
    {ownership : Ownership} (h : wrapAs env handle qualified ownership bridge = .ok value after) :
    ∃ id, value = .object id handle := by
  obtain ⟨_, _, _, hwrap⟩ := of_bind_eq_ok h
  exact exists_object_of_wrap_eq_ok hnull hwrap

/-- Registering leaves memory alone, whether it succeeds or fails. -/
theorem heap_ending_of_registering {α : Type} {step : Run H α}
    (hstep : ∀ R, Registers env R → Within R step) (bridge : Bridge H) :
    (ending (step bridge)).heap = bridge.heap := by
  have hregisters : Registers env fun bridge bridge' : Bridge H => bridge'.heap = bridge.heap :=
    { registerClass := fun _ _ _ => rfl
      link := fun _ _ => rfl
      register := fun _ => rfl
      other := fun hbeside => hbeside.heap }
  exact same_of_run _ (hstep _ hregisters bridge)

theorem heap_of_registering {α : Type} {step : Run H α} {a : α}
    (hstep : ∀ R, Registers env R → Within R step) (h : step bridge = .ok a after) :
    after.heap = bridge.heap := by
  have hends := heap_ending_of_registering hstep bridge
  rwa [h] at hends

/-! ## Copies of elements -/

section Copy

variable {base : Handle} {innerType qualified library : String} {own : Ownership}
  {size offset : Nat}

/-- A record that lies in an array is copied into a new block, and the block is wrapped. -/
theorem of_copyRecord_eq_ok
    (h : copyRecord env (.struct innerType library size true own) qualified size base offset
      bridge = .ok value after) :
    ∃ source copied, base.offset? offset = some source ∧
      copied.registry = bridge.registry ∧ ReflTransGen (Change env) bridge copied ∧
      Heap.write (.ofNat bridge.heap.next) (.struct innerType library size true own) 0
        (.pointer source)
        (bridge.heap.alloc size (some (schemaTypeName (repo env) qualified))).2 =
          .ok ⟨⟩ copied.heap ∧
      wrapAs env (.ofNat bridge.heap.next) qualified .full copied = .ok value after := by
  unfold copyRecord at h
  cases hsource : base.offset? offset with
  | none =>
      rw [hsource] at h
      cases h
  | some source =>
      rw [hsource] at h
      obtain ⟨copy, made, halloc, h⟩ := of_bind_eq_ok h
      obtain ⟨_, copied, hwrite, hwrap⟩ := of_bind_eq_ok h
      have hworks := (permits_change env).works
      have hmade := (within_inCall (hworks.within_alloc _ _ _)).of_eq_ok halloc
      have hwritten := (within_inCall (hworks.within_write _ _ _ _)).of_eq_ok hwrite
      obtain ⟨rfl, rfl⟩ := of_alloc_eq_ok (of_inCall_eq_ok halloc)
      obtain ⟨hwrite, hcopied⟩ := of_write_eq_ok hwrite
      exact ⟨source, copied, rfl, by rw [hcopied], hmade.trans hwritten, hwrite, hwrap⟩

/-- An array that is returned is read record by record, and each record is copied. -/
theorem steps_of_lift_array_eq_ok {R : Bridge H → Bridge H → Prop} (hgoverns : Governs env R)
    {args : Array NativeArg} {ownership : Ownership} {length : ArrayLength} {kind : ArrayKind}
    {stride : Nat} {raw : Value} (hbase : raw.nonNull? = some base)
    (h : lift env args (.array (.struct qualified library size true own) ownership length kind
      stride) raw bridge = .ok value after) :
    ∃ items, value = .array items ∧
      ∀ (index : Nat) (item : Value), items[index]? = some item → ∃ before behind,
        ReflTransGen R bridge before ∧
          copyRecord env (.struct qualified library size true own) qualified size base
            (index * stride) before = .ok item behind ∧
          ReflTransGen R behind after := by
  obtain ⟨_, items, copied, _, hcollect, rfl, rfl⟩ := of_lift_records_eq_ok hbase h
  obtain ⟨_, hsteps⟩ := steps_of_collect_eq_ok
    (fun _ => hgoverns.serves.within_copyRecord _ _ _ _ _) hcollect
  refine ⟨items, rfl, fun index item hitem => ?_⟩
  obtain ⟨before, behind, hbefore, hcopy, hbehind⟩ := hsteps index item hitem
  have hspent := hgoverns.serves.within_spent ownership base copied
  exact ⟨before, behind, hbefore, hcopy, hbehind.trans hspent⟩

/-- Each record of an array that is returned is wrapped where a copy of its bytes lies. -/
theorem copies_of_lift_array_eq_ok (hlawful : env.Lawful) (hreachable : bridge.Reachable env)
    {args : Array NativeArg} {ownership : Ownership} {length : ArrayLength} {kind : ArrayKind}
    {stride : Nat} {raw : Value} (hbase : raw.nonNull? = some base)
    (h : lift env args (.array (.struct qualified library size true own) ownership length kind
      stride) raw bridge = .ok value after) :
    ∃ items, value = .array items ∧
      ∀ (index : Nat) (item : Value), items[index]? = some item →
        base.toNat + index * stride < twoPow 64 ∧
        ∃ before copied id copy, Evolves env bridge before ∧ Evolves env copied after ∧
          item = .object id copy ∧
          ∀ bytes, before.heap.bytes (.ofNat (base.toNat + index * stride)) 0 size = .ok bytes →
            copied.heap.bytes copy 0 size = .ok bytes := by
  obtain ⟨items, rfl, hitems⟩ := steps_of_lift_array_eq_ok (governs_step hlawful) hbase h
  refine ⟨items, rfl, fun index item hitem => ?_⟩
  obtain ⟨before, behind, hbefore, hcopy, hbehind⟩ := hitems index item hitem
  have hsound := (Evolves.valid hbefore hreachable.valid).sound
  obtain ⟨source, copied, hsource, _, _, hwrite, hwrap⟩ := of_copyRecord_eq_ok hcopy
  obtain ⟨hfits, rfl⟩ := Handle.of_offset?_eq_some hsource
  obtain ⟨id, rfl⟩ := exists_object_of_wrapAs_eq_ok (Heap.isNull_of_write_eq_ok hwrite) hwrap
  have hsourceNull :=
    Handle.isNull_of_offset?_eq_some (Value.isNull_of_nonNull?_eq_some hbase) hsource
  have hwrapped := ((governs_step hlawful).serves.within_wrapAs _ _ _).of_eq_ok hwrap
  refine ⟨hfits, before, copied, id, _, hbefore, hwrapped.trans hbehind, rfl,
    fun bytes hbytes => Heap.bytes_of_copy hwrite hsound ?_⟩
  rwa [Heap.recordBytes, hsourceNull, if_neg Bool.false_ne_true]

end Copy

end Bridge

namespace Lowering

open Bridge

variable {innerType library : String} {own : Ownership} {size : Nat} {handle : Handle}
  {calling calling' : Calling H}

/-- The items of an array are stored one behind the other, by induction over them. -/
theorem row_of_lowerItems_eq_ok {index : Nat} {items : List Value} {u : Unit}
    (h : lowerItems handle (.struct innerType library size true own) size index items calling =
      .ok u calling') :
    Heap.Row handle size (index * size) items calling.bridge.heap calling'.bridge.heap := by
  induction items generalizing index calling with
  | nil =>
      rw [lowerItems] at h
      cases h
      exact .nil _ _
  | cons item rest ih =>
      rw [lowerItems, lowerValue_of_isArray_eq_false rfl, pure_bind] at h
      obtain ⟨_, written, hwrite, hrest⟩ := of_bind_eq_ok h
      obtain ⟨hwrite, _⟩ := of_write_eq_ok (of_onBridge_eq_ok hwrite)
      have hrest := ih hrest
      rw [Nat.succ_mul] at hrest
      exact .of_write hwrite hrest

/-- An array of records that is passed lies in a block of its own, unless it is passed as none. -/
theorem row_of_lowerValue_array_eq_ok {ownership : Ownership} {length : ArrayLength}
    {kind : ArrayKind} {items : List Value} {lowered : Value}
    (h : lowerValue (.array (.struct innerType library size true own) ownership length kind size)
      (.array items) calling = .ok lowered calling') :
    items = [] ∧ lowered = .pointer .null ∨
      lowered = .pointer (.ofNat calling.bridge.heap.next) ∧
        Heap.Row (.ofNat calling.bridge.heap.next) size 0 items
          (calling.bridge.heap.alloc (arrayBytes items.length size length) none).2
          calling'.bridge.heap := by
  rcases of_lowerValue_array_eq_ok h with ⟨hempty, _, hlowered⟩ | ⟨hlowered, made, hmade, hitems⟩
  · exact .inl ⟨hempty, hlowered⟩
  · have hrow := row_of_lowerItems_eq_ok hitems
    rw [Nat.zero_mul, hmade] at hrow
    exact .inr ⟨hlowered, hrow⟩

/-- The block of an array that is passed holds the bytes that its records had before. -/
theorem bytes_of_lowerValue_array_eq_ok (hsound : calling.bridge.heap.Sound)
    (hroom : calling.bridge.heap.next < twoPow 64) {ownership : Ownership} {length : ArrayLength}
    {kind : ArrayKind} {items : List Value} {lowered : Value}
    (h : lowerValue (.array (.struct innerType library size true own) ownership length kind size)
      (.array items) calling = .ok lowered calling') :
    items = [] ∧ lowered = .pointer .null ∨ ∃ base, lowered = .pointer base ∧
      ∀ (index : Nat) (item : Value) (source : Handle) (bytes : List UInt8),
        items[index]? = some item → item.asHandle? = some source →
        calling.bridge.heap.recordBytes source size = .ok bytes →
        calling'.bridge.heap.bytes base (index * size) size = .ok bytes := by
  refine (row_of_lowerValue_array_eq_ok h).imp_right fun ⟨hlowered, hrow⟩ => ?_
  refine ⟨_, hlowered, fun index item source bytes hitem hsource hbytes => ?_⟩
  obtain ⟨hkept, hbelow⟩ := Heap.recordBytes_alloc hsound _ none hbytes
  -- the new block lies behind everything that its records can be
  have hbeside : source.isNull = true ∨
      source.toNat + size ≤ (Handle.ofNat calling.bridge.heap.next).toNat + 0 := by
    rwa [Handle.toNat_ofNat_of_lt hroom]
  have hstored := hrow.stored (hsound.alloc _ _) hitem hsource (hbeside.imp_right .inl)
  rwa [Nat.zero_add, hkept] at hstored

end Lowering

namespace Bridge

variable {env : Env H} {bridge middle after : Bridge H} {inst value : Value}
  {owner name innerType library : String} {own : Ownership} {size count : Nat}
  {binding : FieldBinding}

/-- A record by value is stored as the address that it is copied from. -/
theorem lowerStored_struct (inPlace : Bool) (value : Value) :
    (lowerStored (.struct innerType library size inPlace own) value : Run H Value) =
      pure value.stored := by
  cases value <;> simp [lowerStored, Value.stored]

/-- By induction over the records that are still to be stored. -/
theorem row_of_forM_eq_ok {base : Handle} {offset start : Nat} {items : List Value} {u : PUnit}
    (h : ((items.zipIdx start).forM fun (item, index) =>
      storeAt base (.struct innerType library size true own) (offset + index * size) item :
        Run H PUnit) bridge = .ok u after) :
    Heap.Row base size (offset + start * size) items bridge.heap after.heap := by
  induction items generalizing start bridge with
  | nil =>
      cases h
      exact .nil _ _
  | cons item rest ih =>
      obtain ⟨_, written, hfirst, hrest⟩ := of_bind_eq_ok h
      dsimp only at hfirst
      rw [storeAt, lowerStored_struct, pure_bind] at hfirst
      obtain ⟨hwrite, _⟩ := of_write_eq_ok hfirst
      have hrest := ih hrest
      rw [Nat.succ_mul, ← Nat.add_assoc] at hrest
      exact .of_write hwrite hrest

theorem of_needInstance_eq_ok {handle : Handle}
    (h : needInstance value owner bridge = .ok handle after) :
    value.nonNull? = some handle ∧ after = bridge := by
  unfold needInstance at h
  cases hhandle : value.nonNull? with
  | none =>
      rw [hhandle] at h
      cases h
  | some found =>
      rw [hhandle] at h
      cases h
      exact ⟨rfl, rfl⟩

section Field

variable (hfield : fieldOf env owner name bridge = .ok binding middle)
  (harray : inlineArray? binding = some (.struct innerType library size true own, size, count))
include hfield harray

/-- Each record of an array in its field is read as a wrapper of its place. -/
theorem of_readField_elements_eq_ok (h : readField env inst owner name bridge = .ok value after) :
    ∃ base items, inst.nonNull? = some base ∧ value = .array items ∧ items.length = count ∧
      ∀ (index : Nat) (item : Value), items[index]? = some item →
        ∃ place id, base.offset? (binding.layout.offset + index * size) = some place ∧
          item = .object id place := by
  obtain ⟨found, looked, hlook, h⟩ := of_bind_eq_ok h
  rw [hfield] at hlook
  cases hlook
  dsimp only at h
  split at h
  next => cases h
  next =>
    obtain ⟨base, needed, hbase, h⟩ := of_bind_eq_ok h
    rw [harray] at h
    obtain ⟨items, collected, hcollect, h⟩ := of_bind_eq_ok h
    cases h
    obtain ⟨hinst, rfl⟩ := of_needInstance_eq_ok hbase
    obtain ⟨hlength, hsteps⟩ := steps_of_collect_eq_ok
      (R := fun _ _ => True) (fun _ _ => .single trivial) hcollect
    refine ⟨base, items, hinst, rfl, hlength, fun index item hitem => ?_⟩
    obtain ⟨before, behind, _, hstep, _⟩ := hsteps index item hitem
    obtain ⟨raw, read, hread, hlift⟩ := of_bind_eq_ok hstep
    obtain ⟨hread, _⟩ := of_read_eq_ok (of_inCall_eq_ok hread)
    obtain ⟨place, hplace, rfl⟩ := of_read_inline_eq_ok hread
    have hnull := Handle.isNull_of_offset?_eq_some (Value.isNull_of_nonNull?_eq_some hinst) hplace
    simp only [liftBorrowed, Value.asHandle?, hnull, Bool.false_eq_true, if_false] at hlift
    obtain ⟨id, rfl⟩ := exists_object_of_wrapAs_eq_ok hnull hlift
    exact ⟨place, id, hplace, rfl⟩

/-- The records that are written to a field are stored in its place one behind the other. -/
theorem of_writeField_elements_eq_ok {u : Unit}
    (h : writeField env inst owner name value bridge = .ok u after) :
    ∃ base items, inst.nonNull? = some base ∧ value = .array items ∧ items.length ≤ count ∧
      Heap.Row base size binding.layout.offset items middle.heap after.heap := by
  rw [writeField_eq] at h
  obtain ⟨found, looked, hlook, hwrite⟩ := of_bind_eq_ok h
  rw [hfield] at hlook
  cases hlook
  have hcase := writeTo_cases inst owner name value binding middle
  rw [hwrite] at hcase
  cases hcase with
  | single _ hsingle =>
      rw [harray] at hsingle
      cases hsingle
  | each _ hinst hfound hvalue hfits hstore =>
      rw [harray] at hfound
      cases hfound
      have hrow := row_of_forM_eq_ok hstore
      rw [Nat.zero_mul, Nat.add_zero] at hrow
      exact ⟨_, _, hinst, hvalue, hfits, hrow⟩

end Field

end Bridge

end Interop
