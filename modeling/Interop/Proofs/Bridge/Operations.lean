import Interop.Proofs.Bridge.Registered

/-! # Reading, writing and making instances

What is done to instances, to their fields and to arrays of them is a run of permitted changes,
whether it succeeds or stops half way.
-/

namespace Interop

open Schema Relation Steps

variable {H : Host}

/-- A value as it is stored: a wrapper is stored as the handle it wraps. -/
def Value.stored : Value → Value
  | .object _ handle => .pointer handle
  | value => value

/-- A wrapper and its handle lead to the same address. -/
@[simp] theorem Value.asHandle?_stored (value : Value) :
    value.stored.asHandle? = value.asHandle? := by
  cases value <;> rfl

namespace Bridge

variable {env : Env H} {R : Bridge H → Bridge H → Prop}

theorem foldl_runs {β : Type} {step : Bridge H → β → Bridge H}
    (hstep : ∀ bridge item, ReflTransGen R bridge (step bridge item)) (items : List β)
    (bridge : Bridge H) : ReflTransGen R bridge (items.foldl step bridge) := by
  induction items generalizing bridge with
  | nil => exact .refl
  | cons item rest ih => exact (hstep bridge item).trans (ih _)

/-! ## Giving values up -/

theorem Settles.giveUp (h : Settles env R) (bound : Nat) (shares : List Value.Share)
    (bridge : Bridge H) : ReflTransGen R bridge (giveUp env bound shares bridge) := by
  -- a wrapper, a callback that is gone, the last share of one, and one share among several
  induction bound, shares, bridge using giveUp.induct env with
  | case1 => exact .refl
  | case2 bound bridge _ =>
      cases bound <;> exact .refl
  | case3 bound id rest bridge ih => exact (h.dropWrapper bridge id).trans ih
  | case4 bound id rest bridge hcell ih =>
      rw [Bridge.giveUp, hcell]
      exact ih
  | case5 bound id rest bridge cell hcell hlast ih =>
      rw [Bridge.giveUp, hcell]
      dsimp only
      rw [if_pos hlast]
      exact .head (h.bury hcell hlast) ih
  | case6 bound id rest bridge cell hcell hshared ih =>
      rw [Bridge.giveUp, hcell]
      dsimp only
      rw [if_neg hshared]
      exact .head (h.unshare hcell (Nat.lt_of_not_le hshared)) ih

theorem Settles.dropAll (h : Settles env R) (values : List Value) (bridge : Bridge H) :
    ReflTransGen R bridge (bridge.drop env values) :=
  h.giveUp _ _ _

/-! ## Records -/

theorem Settles.within_wrapAs (h : Settles env R) (handle : Handle) (qualified : String)
    (ownership : Ownership) : Within R (wrapAs env handle qualified ownership) := by
  refine Within.bind ?_ fun _ => h.within_wrap _ _ _
  exact (h.within_namespaceOf qualified).bind fun _ => within_pure _

theorem within_needInstance (value : Value) (owner : String) :
    Within R (needInstance value owner : Run H Handle) := by
  unfold needInstance
  split
  next => exact within_pure _
  next => exact within_throw _

theorem Serves.within_allocRecord (h : Serves env R) (qualified : String) :
    Within R (allocRecord env qualified) := by
  refine (h.within_namespaceOf qualified).bind fun space => ?_
  cases space.record? qualified with
  | none => exact within_throw _
  | some record =>
      refine (within_inCall (h.within_alloc _ _ _)).bind fun handle => ?_
      refine (h.within_wrap _ _ _).bind fun value => ?_
      cases value with
      | null => exact within_throw _
      | _ => exact within_pure _

theorem Settles.within_element (h : Settles env R) (base : Value) (qualified : String)
    (index : Nat) : Within R (element env base qualified index) := by
  unfold element
  split
  next layout _ =>
    refine (within_needInstance base qualified).bind fun start => ?_
    cases (layout.elementOffset? index).bind start.offset? with
    | some handle => exact h.within_wrapAs _ _ _
    | none => exact within_throw _
  next => exact within_throw _

/-! ## Fields -/

theorem Enrols.within_fieldOf (h : Enrols env R) (owner name : String) :
    Within R (fieldOf env owner name) := by
  refine (h.within_namespaceOf owner).bind fun space => ?_
  dsimp only
  split
  next =>
    split
    next => exact within_throw_bind _ _
    next =>
      refine (within_pure _).bind fun fields => ?_
      cases fields.find? (·.layout.field == name) with
      | some field => exact within_pure _
      | none => exact within_throw _
  next =>
    refine (within_pure _).bind fun fields => ?_
    cases fields.find? (·.layout.field == name) with
    | some field => exact within_pure _
    | none => exact within_throw _
  next => exact within_throw_bind _ _

theorem gather_runs {step : Nat → Run H Value} (hstep : ∀ index, Within R (step index))
    (seen : List Value) (index count : Nat) (bridge : Bridge H) :
    ReflTransGen R bridge (gather step seen index count bridge).2 := by
  induction count generalizing seen index bridge with
  | zero => exact .refl
  | succ count ih =>
      have hends := hstep index bridge
      unfold gather
      cases hitem : step index bridge with
      | error error after =>
          rw [hitem] at hends
          exact hends
      | ok value after =>
          rw [hitem] at hends
          exact ReflTransGen.trans hends (ih ..)

theorem Settles.within_collect (h : Settles env R) {step : Nat → Run H Value}
    (hstep : ∀ index, Within R (step index)) (count : Nat) :
    Within R (collect env step count) := by
  intro bridge
  have hgather := gather_runs hstep [] 0 count bridge
  unfold collect
  rcases hresult : gather step [] 0 count bridge with ⟨⟨values, error⟩, after⟩
  rw [hresult] at hgather
  cases error with
  | none => exact hgather
  | some error => exact ReflTransGen.trans hgather (h.dropAll values after)

/-- If no step fails, the values are those seen before and one of each step, in order. Each step is
taken some way behind the beginning and some way before the end. -/
theorem of_gather_eq_ok {step : Nat → Run H Value} (hstep : ∀ index, Within R (step index))
    {seen values : List Value} {index count : Nat} {bridge after : Bridge H}
    (h : gather step seen index count bridge = ((values, none), after)) :
    ∃ given, values = seen.reverse ++ given ∧ given.length = count ∧
      ∀ (place : Nat) (value : Value), given[place]? = some value → ∃ before behind,
        ReflTransGen R bridge before ∧ step (index + place) before = .ok value behind ∧
          ReflTransGen R behind after := by
  induction count generalizing seen index bridge with
  | zero =>
      cases h
      exact ⟨[], (List.append_nil _).symm, rfl, fun _ _ hvalue => by cases hvalue⟩
  | succ count ih =>
      unfold gather at h
      cases hitem : step index bridge with
      | error error middle =>
          rw [hitem] at h
          cases h
      | ok first middle =>
          rw [hitem] at h
          dsimp only at h
          obtain ⟨given, rfl, hlength, hgiven⟩ := ih h
          refine ⟨first :: given, by simp, by rw [List.length_cons, hlength], ?_⟩
          intro place value hvalue
          cases place with
          | zero =>
              cases hvalue
              have hends := gather_runs hstep (first :: seen) (index + 1) count middle
              rw [h] at hends
              exact ⟨bridge, middle, .refl, hitem, hends⟩
          | succ place =>
              obtain ⟨before, behind, hbefore, hok, hbehind⟩ := hgiven place value hvalue
              rw [Nat.add_right_comm] at hok
              have hstart := (hstep index).of_eq_ok hitem
              exact ⟨before, behind, hstart.trans hbefore, hok, hbehind⟩

/-- The values that are collected are those of the steps, in order. -/
theorem steps_of_collect_eq_ok {step : Nat → Run H Value} (hstep : ∀ index, Within R (step index))
    {values : List Value} {count : Nat} {bridge after : Bridge H}
    (h : collect env step count bridge = .ok values after) :
    values.length = count ∧
      ∀ (place : Nat) (value : Value), values[place]? = some value → ∃ before behind,
        ReflTransGen R bridge before ∧ step place before = .ok value behind ∧
          ReflTransGen R behind after := by
  unfold collect at h
  split at h
  next hgather =>
    cases h
    obtain ⟨given, rfl, hlength, hgiven⟩ := of_gather_eq_ok hstep hgather
    refine ⟨hlength, fun place value hvalue => ?_⟩
    have hstep := hgiven place value hvalue
    rwa [Nat.zero_add] at hstep
  next => cases h

theorem of_collect_eq_ok {step : Nat → Run H Value} (hstep : ∀ index, Within R (step index))
    {values : List Value} {count : Nat} {bridge after : Bridge H}
    (h : collect env step count bridge = .ok values after) {place : Nat} (hplace : place < count) :
    ∃ value ∈ values, ∃ before behind, ReflTransGen R bridge before ∧
      step place before = .ok value behind ∧ ReflTransGen R behind after := by
  obtain ⟨hlength, hsteps⟩ := steps_of_collect_eq_ok hstep h
  have hvalue := List.getElem?_eq_getElem (hlength ▸ hplace)
  exact ⟨_, List.mem_of_getElem? hvalue, hsteps place _ hvalue⟩

/-- What holds of the values seen before, and is kept by every step, holds of all values in the end.
By induction over the steps that are still to be taken. -/
theorem gather_induction {step : Nat → Run H Value} (hwithin : ∀ index, Within R (step index))
    {P : List Value → Bridge H → Prop} {bridge after : Bridge H}
    (hkept : ∀ items item before behind, P items before →
      step items.length before = .ok item behind → ReflTransGen R behind after →
      P (items ++ [item]) behind)
    {seen values : List Value} {count : Nat} (hseen : P seen.reverse bridge)
    (h : gather step seen seen.length count bridge = ((values, none), after)) : P values after := by
  induction count generalizing seen bridge with
  | zero =>
      cases h
      exact hseen
  | succ count ih =>
      unfold gather at h
      cases hitem : step seen.length bridge with
      | error error middle =>
          rw [hitem] at h
          cases h
      | ok item middle =>
          rw [hitem] at h
          dsimp only at h
          have hrest := gather_runs hwithin (item :: seen) (seen.length + 1) count middle
          rw [h] at hrest
          refine ih ?_ h
          rw [List.reverse_cons]
          exact hkept _ _ _ _ hseen (by rwa [List.length_reverse]) hrest

theorem collect_induction {step : Nat → Run H Value} (hwithin : ∀ index, Within R (step index))
    {P : List Value → Bridge H → Prop} {bridge after : Bridge H} (hstart : P [] bridge)
    (hkept : ∀ items item before behind, P items before →
      step items.length before = .ok item behind → ReflTransGen R behind after →
      P (items ++ [item]) behind)
    {values : List Value} {count : Nat} (h : collect env step count bridge = .ok values after) :
    P values after := by
  unfold collect at h
  split at h
  next hgather =>
    cases h
    exact gather_induction hwithin hkept (show P [].reverse _ from hstart) hgather
  next => cases h

theorem Settles.within_liftBorrowed (h : Settles env R) (descriptor : Descriptor) (raw : Value) :
    Within R (liftBorrowed env descriptor raw) := by
  unfold liftBorrowed
  split
  next => exact within_pure _
  next =>
    split
    next => exact within_pure _
    next =>
      split
      next => exact h.within_wrap _ _ _
      next => exact h.within_wrapAs _ _ _
      next => exact h.within_wrapAs _ _ _
      next => exact within_pure _

theorem Settles.within_readField (h : Settles env R) (owner : Value) (type name : String) :
    Within R (readField env owner type name) := by
  refine (h.within_fieldOf type name).bind fun field => ?_
  dsimp only
  split
  next => exact within_throw_bind _ _
  next =>
    refine (within_needInstance owner type).bind fun base => ?_
    split
    next element elementSize count _ =>
      refine (h.within_collect (fun index => ?_) count).bind fun _ => within_pure _
      exact (within_inCall (within_read _ _ _)).bind fun _ => h.within_liftBorrowed _ _
    next => exact (within_inCall (within_read _ _ _)).bind fun _ => h.within_liftBorrowed _ _

/-- A value that is stored for good changes nothing but the heap, and so do the items of an array,
by induction over the value. -/
theorem Works.within_lowerStored_storeItems (h : Works env R) :
    (∀ (descriptor : Descriptor) (value : Value),
      Within R (lowerStored descriptor value : Run H Value)) ∧
    ∀ (handle : Handle) (element : Descriptor) (elementSize index : Nat) (items : List Value),
      Within R (storeItems handle element elementSize index items : Run H Unit) := by
  refine lowerStored.mutual_induct _ _ ?_ ?_ ?_ ?_ ?_
  · intro element ownership length kind elementSize items ih
    rw [lowerStored]
    exact (within_inCall (h.within_alloc _ _ _)).bind fun handle =>
      (ih handle).bind fun _ => within_pure _
  · intro descriptor id handle
    rw [lowerStored]
    exact within_pure _
  · intro value descriptor hobject harray
    rw [lowerStored]
    · exact within_pure _
    · exact hobject
    · exact harray
  · intro handle element elementSize index
    exact within_pure _
  · intro handle element elementSize index item rest ihitem ihrest
    rw [storeItems]
    exact ihitem.bind fun _ => (within_inCall (h.within_write _ _ _ _)).bind fun _ => ihrest

theorem inCall_write_eq (handle : Handle) (descriptor : Descriptor) (offset : Nat) (value : Value)
    (bridge : Bridge H) :
    inCall (write handle descriptor offset value) bridge =
      match Heap.write handle descriptor offset value bridge.heap with
      | .ok u heap => .ok u { bridge with heap }
      | .error error heap => .error (.dispatch error) { bridge with heap } := by
  unfold inCall write onHeap
  cases Heap.write handle descriptor offset value bridge.heap <;> rfl

theorem of_write_eq_ok {handle : Handle} {descriptor : Descriptor} {offset : Nat} {value : Value}
    {bridge after : Bridge H} {u : Unit}
    (h : inCall (write handle descriptor offset value) bridge = .ok u after) :
    Heap.write handle descriptor offset value bridge.heap = .ok u after.heap ∧
      after = { bridge with heap := after.heap } := by
  rw [inCall_write_eq] at h
  split at h
  next hwrite =>
    cases h
    exact ⟨hwrite, rfl⟩
  next => cases h

/-- Makes a value ready and stores it. -/
def storeAt (base : Handle) (descriptor : Descriptor) (offset : Nat) (value : Value) :
    Run H Unit := do
  let lowered ← lowerStored descriptor value
  inCall (write base descriptor offset lowered)

/-- Stores items in their places, one behind the other. -/
def storeEach (base : Handle) (element : Descriptor) (offset stride : Nat) (items : List Value) :
    Run H Unit :=
  items.zipIdx.forM fun (item, index) => storeAt base element (offset + index * stride) item

/-- Writes a field that has been found. -/
def writeTo (owner : Value) (type name : String) (value : Value) (field : FieldBinding) :
    Run H Unit :=
  if !field.writable then throw (.marshal (.fieldAccess type name "writable"))
  else match owner.nonNull? with
    | none => throw (.marshal (.missingInstance type))
    | some base =>
      match inlineArray? field with
      | none => storeAt base field.descriptor field.layout.offset value
      | some (element, stride, count) =>
        match value.asArray? with
        | none => throw (.marshal (.invalidValue (join type name) "array" value.typeName))
        | some items =>
          if count < items.length then
            throw (.marshal
              (.invalidValue (join type name) "array within the fixed length" "longer array"))
          else storeEach base element field.layout.offset stride items

theorem writeField_eq (env : Env H) (owner : Value) (type name : String) (value : Value) :
    writeField env owner type name value =
      fieldOf env type name >>= writeTo owner type name value := by
  refine bind_congr fun field => ?_
  unfold writeTo needInstance
  cases hwritable : field.writable with
  | false => rfl
  | true =>
      cases hbase : owner.nonNull? with
      | none => rfl
      | some base =>
          cases harray : inlineArray? field with
          | none => rfl
          | some found =>
              cases hvalue : value.asArray? with
              | none => rfl
              | some items =>
                  by_cases hlong : found.2.2 < items.length
                  · simp only [if_pos hlong]
                    rfl
                  · simp only [if_neg hlong]
                    rfl

/-- What a write to a field that has been found can come to. -/
inductive WriteToCase (owner : Value) (value : Value) (field : FieldBinding) (bridge : Bridge H) :
    EStateM.Result BindError (Bridge H) Unit → Prop
  | refused (error : BindError) : WriteToCase owner value field bridge (.error error bridge)
  | single {base : Handle} {result : EStateM.Result BindError (Bridge H) Unit}
      (hbase : owner.nonNull? = some base) (hsingle : inlineArray? field = none)
      (h : storeAt base field.descriptor field.layout.offset value bridge = result) :
      WriteToCase owner value field bridge result
  /-- The field holds an array, and there are not too many items for it. -/
  | each {base : Handle} {element : Descriptor} {stride count : Nat} {items : List Value}
      {result : EStateM.Result BindError (Bridge H) Unit} (hwritable : field.writable = true)
      (hbase : owner.nonNull? = some base)
      (harray : inlineArray? field = some (element, stride, count))
      (hvalue : value = .array items) (hfits : items.length ≤ count)
      (h : storeEach base element field.layout.offset stride items bridge = result) :
      WriteToCase owner value field bridge result

theorem writeTo_cases (owner : Value) (type name : String) (value : Value) (field : FieldBinding)
    (bridge : Bridge H) :
    WriteToCase owner value field bridge (writeTo owner type name value field bridge) := by
  unfold writeTo
  cases hwritable : field.writable with
  | false => exact .refused _
  | true =>
      cases hbase : owner.nonNull? with
      | none => exact .refused _
      | some base =>
          cases harray : inlineArray? field with
          | none => exact .single hbase harray rfl
          | some found =>
              cases value with
              | array items =>
                  by_cases hlong : found.2.2 < items.length
                  · simp only [Value.asArray?, if_pos hlong]
                    exact .refused _
                  · simp only [Value.asArray?, if_neg hlong]
                    exact .each hwritable hbase harray rfl (Nat.le_of_not_lt hlong) rfl
              | _ => exact .refused _

theorem Works.within_storeAt (h : Works env R) (base : Handle) (descriptor : Descriptor)
    (offset : Nat) (value : Value) :
    Within R (storeAt base descriptor offset value : Run H Unit) :=
  (h.within_lowerStored_storeItems.1 _ _).bind fun _ => within_inCall (h.within_write _ _ _ _)

theorem Works.within_writeTo (h : Works env R) (owner : Value) (type name : String) (value : Value)
    (field : FieldBinding) : Within R (writeTo owner type name value field : Run H Unit) := by
  intro bridge
  have hcase := writeTo_cases owner type name value field bridge
  generalize writeTo owner type name value field bridge = result at hcase
  cases hcase with
  | refused => exact .refl
  | single _ _ hstore => exact hstore ▸ h.within_storeAt _ _ _ _ bridge
  | each _ _ _ _ _ hstore =>
      exact hstore ▸ Within.forM (fun _ => h.within_storeAt _ _ _ _) _ bridge

theorem Works.within_writeField (h : Works env R) (owner : Value) (type name : String)
    (value : Value) : Within R (writeField env owner type name value) := by
  rw [writeField_eq]
  exact (h.within_fieldOf type name).bind fun field => h.within_writeTo owner type name value field

/-! ## Sequences of operations -/

/-- What can be done with instances and their fields. -/
inductive Action where
  | make (qualified : String)
  | element (base : Value) (qualified : String) (index : Nat)
  | read (inst : Value) (owner name : String)
  | write (inst : Value) (owner name : String) (value : Value)
  | drop (values : List Value)

/-- The state in which an action ends, whether it succeeds or fails. -/
def Action.perform (env : Env H) (bridge : Bridge H) : Action → Bridge H
  | make qualified => ending (allocRecord env qualified bridge)
  | element base qualified index => ending (Bridge.element env base qualified index bridge)
  | read inst owner name => ending (readField env inst owner name bridge)
  | write inst owner name value => ending (writeField env inst owner name value bridge)
  | drop values => bridge.drop env values

theorem Serves.perform (h : Serves env R) (action : Action) (bridge : Bridge H) :
    ReflTransGen R bridge (action.perform env bridge) := by
  cases action with
  | make qualified => exact h.within_allocRecord qualified bridge
  | element base qualified index => exact h.within_element base qualified index bridge
  | read inst owner name => exact h.within_readField inst owner name bridge
  | write inst owner name value => exact h.within_writeField inst owner name value bridge
  | drop values => exact h.dropAll values bridge

/-- Any sequence of actions is a run. -/
theorem Serves.performAll (h : Serves env R) (actions : List Action) (bridge : Bridge H) :
    ReflTransGen R bridge (actions.foldl (Action.perform env) bridge) :=
  foldl_runs (fun bridge action => h.perform action bridge) actions bridge

/-! ## What instances are made and written by -/

theorem within_allocRecord (hlawful : env.Lawful) (qualified : String) :
    Within (Step env) (allocRecord env qualified) :=
  (governs_step hlawful).serves.within_allocRecord qualified

theorem within_writeField (owner : Value) (type name : String) (value : Value) :
    Within (Step env) (writeField env owner type name value) :=
  (permits_step env).works.within_writeField owner type name value

end Bridge

end Interop
