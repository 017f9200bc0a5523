import Interop.Proofs.Bridge.Lowering
import Interop.Proofs.Descriptor.Parts
import Interop.Proofs.Memory.Frame

/-! # What making arguments leaves alone

Values are made ready for native code in blocks that are new then, so no byte that was there before
is touched, whether the arguments can be made or not.
-/

namespace Interop

open Schema Relation Steps

variable {H : Host} {touched touched' : Set Nat}

namespace Bridge

variable {bridge bridge' : Bridge H}

/-- At most some of the bytes are touched. -/
def Touches (touched : Set Nat) (bridge bridge' : Bridge H) : Prop :=
  bridge.heap.Framed touched bridge'.heap

theorem Touches.mono (hsub : touched ⊆ touched') (h : bridge.Touches touched bridge') :
    bridge.Touches touched' bridge' :=
  Heap.Framed.mono h fun _ haddr _ => hsub haddr

theorem touches_of_run (h : ReflTransGen (Touches touched) bridge bridge') :
    bridge.Touches touched bridge' := by
  induction h with
  | refl => exact Heap.framed_refl _ _
  | tail _ hstep ih => exact Heap.Framed.trans ih hstep

theorem touches_write (handle : Handle) (descriptor : Descriptor) (offset : Nat) (value : Value)
    (bridge : Bridge H) : bridge.Touches (handle.slot offset (descriptor.slotSize Heap.pointerSize))
      (ending (write handle descriptor offset value bridge)) := by
  unfold write
  rw [ending_onHeap]
  exact Heap.framed_write handle descriptor offset value bridge.heap

theorem within_touches_write (handle : Handle) (descriptor : Descriptor) (offset : Nat)
    (value : Value) :
    Within (Touches (handle.slot offset (descriptor.slotSize Heap.pointerSize)))
      (inCall (write handle descriptor offset value) : Run H Unit) :=
  within_inCall fun bridge => .single (touches_write handle descriptor offset value bridge)

theorem within_touches_alloc (size : Nat) (typeName library : Option String) :
    Within (Touches ∅) (alloc size typeName library : Native H Handle) := by
  intro bridge
  rcases alloc_eq size typeName library bridge with hok | ⟨name, _, herror⟩
  · rw [hok]
    exact .single (Heap.framed_alloc bridge.heap size typeName)
  · rw [herror]
    exact .refl

/-- A slot lies behind the start of its handle. -/
theorem slot_subset_Ici (handle : Handle) (offset size : Nat) :
    handle.slot offset size ⊆ Set.Ici handle.toNat :=
  fun _ haddr => Nat.le_trans (Nat.le_add_right _ _) (Set.mem_Ico.1 haddr).1

end Bridge

namespace Calling

variable {calling calling' : Calling H}

/-- At most some of the bytes are touched. Frames are not compared. -/
def Touches (touched : Set Nat) (calling calling' : Calling H) : Prop :=
  calling.bridge.Touches touched calling'.bridge

theorem touches_of_run (h : ReflTransGen (Touches touched) calling calling') :
    calling.Touches touched calling' := by
  induction h with
  | refl => exact Heap.framed_refl _ _
  | tail _ hstep ih => exact Heap.Framed.trans ih hstep

theorem touches_of_heap_eq (h : calling'.bridge.heap = calling.bridge.heap) :
    calling.Touches touched calling' := by
  rw [Touches, Bridge.Touches, h]
  exact Heap.framed_refl _ _

end Calling

namespace Lowering

open Bridge

variable {α : Type} {size : Nat} {make : Lowering H Handle} {next : Handle → Lowering H α}

theorem makes_touches (touched : Set Nat) :
    Makes (H := H) (Bridge.Touches touched) (Calling.Touches touched) where
  bridge h _ := h
  beside _ _ := Calling.touches_of_heap_eq rfl

/-- The step makes a block of a size, whatever is there. -/
def Allots (size : Nat) (make : Lowering H Handle) : Prop :=
  ∀ calling, ∃ made, make calling = .ok (.ofNat calling.bridge.heap.next) made ∧
    made.bridge.heap = (calling.bridge.heap.alloc size none).2

theorem allots_alloc (size : Nat) :
    Allots size (onBridge (inCall (Bridge.alloc size none none)) : Lowering H Handle) :=
  fun _ => ⟨_, rfl, rfl⟩

theorem allots_scratch (size : Nat) : Allots size (scratch size : Lowering H Handle) :=
  fun _ => ⟨_, rfl, rfl⟩

theorem Allots.within_touches (h : Allots size make) :
    Within (Calling.Touches ∅) make := by
  intro calling
  obtain ⟨made, hmake, hheap⟩ := h calling
  rw [hmake]
  refine .single ?_
  change calling.bridge.heap.Framed ∅ made.bridge.heap
  rw [hheap]
  exact Heap.framed_alloc _ _ _

/-- What goes on in a new block touches nothing that was there before. -/
theorem Allots.within_touches_bind (h : Allots size make)
    (hnext : ∀ handle, Within (Calling.Touches (Set.Ici handle.toNat)) (next handle)) :
    Within (Calling.Touches ∅) (make >>= next) := by
  intro calling
  obtain ⟨made, hmake, hheap⟩ := h calling
  rw [bind_eq_of_eq_ok hmake]
  have hbehind := Calling.touches_of_run (hnext (.ofNat calling.bridge.heap.next) made)
  have hlt := Heap.lt_next_alloc calling.bridge.heap size none
  have hmade := Heap.framed_alloc calling.bridge.heap size none
  rw [← hheap] at hlt hmade
  exact .single (hmade.of_fresh (Nat.lt_of_le_of_lt (Nat.le_add_right _ _) hlt) hbehind)

theorem within_touches_write (handle : Handle) (descriptor : Descriptor) (offset : Nat)
    (value : Value) :
    Within (Calling.Touches (Set.Ici handle.toNat))
      (write handle descriptor offset value : Lowering H Unit) :=
  within_onBridge (makes_touches _) ((Bridge.within_touches_write _ _ _ _).mono fun _ _ =>
    .mono (slot_subset_Ici _ _ _))


/-- A value is made ready in new blocks, and items are written from a handle on without touching
anything before it. -/
theorem within_touches_lowerValue_lowerItems :
    (∀ (descriptor : Descriptor) (value : Value),
      Within (Calling.Touches ∅) (lowerValue descriptor value : Lowering H Value)) ∧
    ∀ (handle : Handle) (element : Descriptor) (elementSize index : Nat) (items : List Value),
      Within (Calling.Touches (Set.Ici handle.toNat))
        (lowerItems handle element elementSize index items : Lowering H Unit) := by
  apply @lowerValue_induction H (fun _ _ => Within (Calling.Touches ∅))
    (fun handle _ _ _ _ => Within (Calling.Touches (Set.Ici handle.toNat)))
  case hgives => exact fun _ _ _ => within_pure _
  case hrefuses => exact fun _ _ _ => within_throw _
  case hkept =>
    exact fun _ _ _ _ _ _ hitems => (allots_alloc _).within_touches_bind fun handle =>
      (hitems handle).bind fun _ => within_pure _
  case hlent =>
    exact fun _ _ _ _ _ _ _ _ hitems => (allots_scratch _).within_touches_bind fun handle =>
      (hitems handle).bind fun _ => within_pure _
  case hnil => exact fun _ _ _ _ => within_pure _
  case hcons =>
    intro handle element elementSize index item rest hitem hrest
    refine (hitem.mono fun _ _ => .mono (Set.empty_subset _)).bind fun _ => ?_
    exact (within_touches_write _ _ _ _).bind fun _ => hrest

theorem allots_slot (descriptor : Descriptor) :
    ∃ size, Allots size (slot descriptor : Lowering H Handle) :=
  ⟨_, allots_scratch _⟩

theorem within_touches_lowerCaller (arg : CallArg) (value : Value) :
    Within (Calling.Touches ∅) (lowerCaller arg value : Lowering H Value) := by
  have hvalue := (within_touches_lowerValue_lowerItems (H := H)).1
  obtain ⟨_, hslot⟩ := allots_slot (H := H) arg.descriptor
  unfold lowerCaller
  split
  next =>
    split
    next =>
      refine hslot.within_touches_bind fun handle => Within.bind ?_ fun _ => ?_
      · exact (hvalue _ _).mono fun _ _ => .mono (Set.empty_subset _)
      · exact (within_touches_write _ _ _ _).bind fun _ => within_pure _
    next => exact hvalue _ _
  next => exact hvalue _ _

theorem within_touches_lowerLength (arg : CallArg) (count : Nat) :
    Within (Calling.Touches ∅) (lowerLength arg count : Lowering H Value) := by
  obtain ⟨_, hslot⟩ := allots_slot (H := H) arg.descriptor
  unfold lowerLength
  split
  next =>
    refine hslot.within_touches_bind fun handle => ?_
    dsimp only
    split
    next => exact (within_touches_write _ _ _ _).bind fun _ => within_pure _
    next => exact (within_pure _).bind fun _ => within_pure _
  next => exact within_pure _

theorem within_touches_lowerNotify (callback : Nat) :
    Within (Calling.Touches ∅) (lowerNotify callback : Lowering H Value) := by
  refine within_get.bind fun calling => ?_
  split
  next => exact within_pure _
  next =>
    refine (within_update (makes_touches ∅) fun bridge => ?_).bind fun _ => Within.bind ?_ fun _ =>
      within_pure _
    · exact .single (Heap.framed_refl _ _)
    · exact within_note (makes_touches ∅) fun _ => ⟨rfl, rfl, rfl, rfl, rfl⟩

/-- An argument is made without touching anything that was there before. -/
theorem within_touches_lowerArg (env : Env H) (plan : CallPlan) (receiver : Option Value)
    (values : List Value) (arg : CallArg) (index : Nat) :
    Within (Calling.Touches ∅) (lowerArg env plan receiver values arg index) := by
  refine within_lowerArg_cases (fun hplain => ?_) fun _ _ _ => ?_
  · refine within_lowerArg_of within_touches_lowerCaller within_touches_lowerLength
      (fun descriptor => ?_) within_touches_lowerNotify plan receiver values hplain index
    obtain ⟨_, hslot⟩ := allots_slot (H := H) descriptor
    exact hslot.within_touches
  · exact (within_onBridge (makes_touches ∅) (within_inCall (within_touches_alloc _ _ _))).bind
      fun _ => Within.bind (fun _ => .single (Calling.touches_of_heap_eq rfl)) fun _ => within_pure _

/-! ## Arrays -/

section Arrays

variable {element : Descriptor} {ownership : Ownership} {length : ArrayLength} {kind : ArrayKind}
  {stride : Nat} {items : List Value} {lowered : Value} {calling calling' : Calling H}

/-- Anything but an array is passed as it is, a wrapper as its handle. -/
theorem lowerValue_of_isArray_eq_false {descriptor : Descriptor} (h : descriptor.isArray = false)
    (value : Value) : (lowerValue descriptor value : Lowering H Value) = pure value.stored := by
  cases descriptor with
  | array => cases h
  | _ => cases value <;> simp [lowerValue, Value.stored]

/-- An array that is passed lies in a block of its own, unless it is empty and passed as none. -/
theorem of_lowerValue_array_eq_ok
    (h : lowerValue (.array element ownership length kind stride) (.array items) calling =
      .ok lowered calling') :
    items = [] ∧ length ≠ .zeroTerminated ∧ lowered = .pointer .null ∨
      lowered = .pointer (.ofNat calling.bridge.heap.next) ∧ ∃ made : Calling H,
        made.bridge.heap =
          (calling.bridge.heap.alloc (arrayBytes items.length stride length) none).2 ∧
        lowerItems (.ofNat calling.bridge.heap.next) element stride 0 items made =
          .ok ⟨⟩ calling' := by
  rw [lowerValue] at h
  split at h
  next hempty =>
    cases h
    rw [Bool.and_eq_true, List.isEmpty_iff, bne_iff_ne] at hempty
    exact .inl ⟨hempty.1, hempty.2, rfl⟩
  next =>
    -- the block is scratch or is given away, and is filled in the same way
    have hfilled : ∀ {make : Lowering H Handle}, Allots (arrayBytes items.length stride length) make →
        (make >>= fun handle => do
          lowerItems handle element stride 0 items
          return .pointer handle) calling = .ok lowered calling' →
        lowered = .pointer (.ofNat calling.bridge.heap.next) ∧ ∃ made : Calling H,
          made.bridge.heap =
            (calling.bridge.heap.alloc (arrayBytes items.length stride length) none).2 ∧
          lowerItems (.ofNat calling.bridge.heap.next) element stride 0 items made =
            .ok ⟨⟩ calling' := by
      intro make hallots h
      obtain ⟨made, hmake, hheap⟩ := hallots calling
      rw [bind_eq_of_eq_ok hmake] at h
      obtain ⟨_, filled, hitems, hlast⟩ := of_bind_eq_ok h
      cases hlast
      exact ⟨rfl, made, hheap, hitems⟩
    split at h
    next => exact .inr (hfilled (allots_alloc _) h)
    next => exact .inr (hfilled (allots_scratch _) h)

end Arrays

/-! ## All arguments -/

/-- What an argument in one place is made from: the memory, and whether it is a callback. -/
def placeView (native : Nat) (calling : Calling H) : Heap × Array NativeArg × Option PassedCallback :=
  (calling.bridge.heap, calling.frame.args, calling.frame.callback? native)

/-- A callback is registered without memory, and the frame has it at its own place. -/
theorem within_prepareCallback_beside (values : List Value) {arg : CallArg} {index native : Nat}
    (hbeside : index = native → arg.descriptor.isCallback = false) :
    Within (fun calling calling' : Calling H => placeView native calling' = placeView native calling)
      (prepareCallback values arg index) := by
  unfold prepareCallback
  split
  next hdescriptor _ =>
    have hne : (index == native) = false := by
      rw [beq_eq_false_iff_ne]
      intro hsame
      have hnot := hbeside hsame
      rw [hdescriptor] at hnot
      cases hnot
    split
    next =>
      refine Within.bind (fun calling => .single ?_) fun _ =>
        Within.bind (fun calling => .single ?_) fun _ calling => .single ?_
      · exact congrArg (·, _) (heap_passOn ..)
      · exact congrArg (·, _) (heap_registerClosure ..)
      · refine congrArg (fun noted => (calling.bridge.heap, calling.frame.args, noted)) ?_
        change List.find? _ (calling.frame.callbacks ++ [_]) = List.find? _ _
        rw [List.find?_append, List.find?_cons]
        dsimp only
        rw [hne]
        exact Option.or_none
    next => exact within_pure _
  next => exact within_pure _

/-- Nothing is touched, and callbacks stay noted as they are. -/
def Spares (calling calling' : Calling H) : Prop :=
  calling.Touches ∅ calling' ∧ calling'.frame.callbacks = calling.frame.callbacks

theorem spares_of_run {calling calling' : Calling H} (h : ReflTransGen Spares calling calling') :
    Spares calling calling' := by
  induction h with
  | refl => exact ⟨Heap.framed_refl _ _, rfl⟩
  | tail _ hstep ih => exact ⟨Heap.Framed.trans ih.1 hstep.1, hstep.2.trans ih.2⟩

theorem within_spares_passArg (env : Env H) (plan : CallPlan) (receiver : Option Value)
    (values : List Value) (entry : CallArg × Nat) :
    Within Spares (passArg env plan receiver values entry) := by
  refine Within.bind (fun calling => .single ⟨?_, ?_⟩) fun value calling => .single ?_
  · exact Calling.touches_of_run
      (within_touches_lowerArg env plan receiver values entry.1 entry.2 calling)
  · exact (noted_lowerArg env plan receiver values entry.1 entry.2 calling).2
  · exact ⟨Calling.touches_of_heap_eq rfl, rfl⟩

/-- Before the arguments are made the callbacks are registered, which takes no memory. -/
theorem exists_turns_of_lower_eq_ok {env : Env H} {plan : CallPlan} {receiver : Option Value}
    {values : List Value} {start : Bridge H} {calling : Calling H} {u : Unit}
    (h : lower env plan receiver values ⟨start, {}⟩ = .ok u calling) :
    ∃ turn, Turns env plan receiver values turn ∧ (turn 0).bridge.heap = start.heap ∧
      turn plan.args.length = calling ∧
      ∀ (native : Nat) (arg : CallArg), plan.args[native]? = some arg →
        arg.descriptor.isCallback = false → (turn 0).frame.callback? native = none := by
  rw [lower_eq] at h
  obtain ⟨_, prepared, hprepared, hmade⟩ := of_bind_eq_ok h
  -- of the frame callbacks change what is noted for their own places only
  have hview : ∀ native, (∀ entry ∈ plan.args.zipIdx, entry.2 = native →
      entry.1.descriptor.isCallback = false) →
      placeView native prepared = placeView native ⟨start, {}⟩ := fun native hbeside =>
    same_of_run (placeView native) ((Within.forM_of_mem fun entry hentry =>
      within_prepareCallback_beside values (hbeside entry hentry)).of_eq_ok hprepared)
  have hnowhere := hview plan.args.length fun entry hentry hsame => by
    obtain ⟨hless, _⟩ := List.getElem?_eq_some_iff.1 (List.mem_zipIdx_iff_getElem?.1 hentry)
    omega
  simp only [placeView, Prod.mk.injEq] at hnowhere
  obtain ⟨turn, hfirst, hlast, hsteps⟩ := exists_states_of_forM_eq_ok hmade
  rw [List.length_zipIdx] at hlast
  refine ⟨turn, ⟨?_, fun place arg harg => hsteps place (arg, place) ?_⟩, ?_, hlast, ?_⟩
  · rw [hfirst, hnowhere.2.1]
  · rw [List.getElem?_zipIdx, harg, Nat.zero_add]
    rfl
  · rw [hfirst, hnowhere.1]
  · intro native arg harg hcallback
    have hthere := hview native fun entry hentry hsame => by
      have hother := List.mem_zipIdx_iff_getElem?.1 hentry
      rw [hsame, harg, Option.some.injEq] at hother
      exact hother ▸ hcallback
    simp only [placeView, Prod.mk.injEq] at hthere
    rw [hfirst, hthere.2.2]
    rfl

theorem Turns.spares {env : Env H} {plan : CallPlan} {receiver : Option Value}
    {values : List Value} {turn : Nat → Calling H} (h : Turns env plan receiver values turn)
    {place other : Nat} (hle : place ≤ other) (hother : other ≤ plan.args.length) :
    Spares (turn place) (turn other) :=
  spares_of_run (h.run (within_spares_passArg env plan receiver values) hle hother)

/-- Each argument is made when those before it have been, and nothing that was there before is
touched on the way to it or behind it. -/
theorem exists_lowerArg_of_lower_eq_ok {env : Env H} {plan : CallPlan} {receiver : Option Value}
    {values : List Value} {start : Bridge H} {calling : Calling H} {u : Unit}
    (h : lower env plan receiver values ⟨start, {}⟩ = .ok u calling) {native : Nat} {arg : CallArg}
    (harg : plan.args[native]? = some arg) (hcallback : arg.descriptor.isCallback = false) :
    ∃ value before behind, start.Touches ∅ before.bridge ∧
      before.frame.callback? native = none ∧
      lowerArg env plan receiver values arg native before = .ok value behind ∧
      behind.bridge.Touches ∅ calling.bridge ∧
      calling.frame.args[native]? = some ⟨arg.descriptor, value, arg.flags.optional⟩ := by
  obtain ⟨turn, hturns, hheap, rfl, hnone⟩ := exists_turns_of_lower_eq_ok h
  obtain ⟨hless, _⟩ := List.getElem?_eq_some_iff.1 harg
  obtain ⟨value, made, hlower, hmade, hthere⟩ := hturns.exists_lowerArg harg
  obtain ⟨hbefore, hsame⟩ := hturns.spares (Nat.zero_le native) (Nat.le_of_lt hless)
  obtain ⟨hbehind, _⟩ := hturns.spares hless (Nat.le_refl _)
  refine ⟨value, turn native, made, ?_, ?_, hlower, hmade ▸ hbehind, hthere⟩
  · rwa [Calling.Touches, Bridge.Touches, hheap] at hbefore
  · rw [Frame.callback?, hsame]
    exact hnone native arg harg hcallback

end Lowering

end Interop
