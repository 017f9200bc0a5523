import Interop.Proofs.Bridge.Lengths
import Interop.Proofs.Bridge.Records
import Interop.Proofs.Memory.Slots

/-! # Slots for outputs

Each argument that the caller gets back has a slot, in a stretch of memory that is made in its turn. It
holds what the caller passes, or nothing yet.
-/

namespace Interop

open Schema Relation Steps

variable {H : Host}

/-- What the slot of an argument holds when native code is entered. There is no slot if the caller
leaves its value out. -/
def CallPlan.entered? (plan : CallPlan) (values : List Value) (arg : CallArg) (inner : Descriptor) :
    Option Value :=
  match arg.source with
  | .caller visible => values[visible]?.map Value.stored
  | .arrayLength array => some (Lowering.countValue inner (Lowering.itemCount plan values array))
  | _ => some inner.blank

/-- The caller gets back what native code writes to the argument, or it does not see it. -/
theorem CallBuilder.Built.of_output {builder : CallBuilder} {callable : Callable}
    {owner : Option Owner} {described : List Descriptor} {returned : Descriptor}
    {args : List CallArg} {plan : CallPlan}
    (h : Built builder callable owner described returned args plan) {native : Nat} {arg : CallArg}
    (harg : plan.args[native]? = some arg) (houtput : arg.flags.output = true) :
    arg.isResult = true ∨ arg.holdsLength = true ∨ arg.source = .errorSlot := by
  rcases h.of_getElem? harg with ⟨_, hreceiver⟩ |
    ⟨index, param, descriptor, number, rfl, _, _, rfl⟩ | herror
  · obtain ⟨type, _, rfl⟩ := eq_of_mem_receivers hreceiver
    cases houtput
  · cases hrole : Companion.find? (Companion.requests callable described) index with
    | none =>
        rw [hrole] at houtput
        refine .inl (isResult_argOf_iff.2 ⟨rfl, ?_⟩)
        have hreference := (of_output_argOf houtput).1
        cases hdirection : param.direction with
        | input =>
            rw [hdirection] at hreference
            cases hreference
        | output => exact .inl rfl
        | inout => exact .inr rfl
    | some role =>
        rw [hrole] at houtput
        rw [CallArg.holdsLength, source_argOf_of_role]
        cases role with
        | length array => cases array <;> exact .inr (.inl rfl)
        | closure | destroy => cases houtput
  · rw [eq_of_mem_errorArgs herror]
    exact .inr (.inr rfl)

namespace Lowering

open Bridge

variable {env : Env H} {plan : CallPlan} {receiver : Option Value} {values : List Value}
  {arg : CallArg} {index count : Nat} {inner : Descriptor} {value given first : Value}
  {handle : Handle} {before made ready after : Calling H}

/-- The slot of an argument lies where the heap had come to and holds something there. -/
structure Opens (inner : Descriptor) (first : Value) (before after : Heap) : Prop where
  lt : before.next < after.next
  holds : inner.IsScalar → inner.Plain first → before.Sound → after.next ≤ twoPow 64 →
    after.Holds before.next (.ofNat before.next) 0 inner first

theorem opens_alloc {heap heap' : Heap} {size : Nat} {typeName : Option String}
    (hsize : inner.IsScalar → inner.slotSize Heap.pointerSize ≤ size)
    (hheap : heap' = (heap.alloc size typeName).2) : Opens inner inner.blank heap heap' := by
  subst hheap
  have hlt := Heap.lt_next_alloc heap size typeName
  refine ⟨by omega, fun hscalar _ hsound hfits => Heap.holds_blank hscalar ?_⟩
  exact Heap.bytes_alloc hsound (by omega) typeName (by
    rw [Nat.zero_add]
    exact hsize hscalar)

/-- A slot lies where the heap had come to, and is large enough for what it is for. -/
theorem of_slot_eq_ok (h : Lowering.slot (.reference inner) before = .ok handle after) :
    handle = .ofNat before.bridge.heap.next ∧
      Opens inner inner.blank before.bridge.heap after.bridge.heap := by
  obtain ⟨made, hmade, hheap⟩ := allots_scratch (H := H)
    (max (inner.slotSize Heap.pointerSize) Heap.pointerSize) before
  cases h.symm.trans hmade
  exact ⟨rfl, opens_alloc (fun _ => Nat.le_max_left _ _) hheap⟩

/-- Nothing is in between if the value of the slot is a scalar. -/
theorem opens_of_write (hslot : Lowering.slot (.reference inner) before = .ok handle made)
    (hnext : made.bridge.heap.next ≤ ready.bridge.heap.next)
    (hready : inner.IsScalar → ready = made ∧ value = first) {u : Unit}
    (h : Lowering.write handle inner 0 value ready = .ok u after) :
    Opens inner first before.bridge.heap after.bridge.heap := by
  obtain ⟨made', hmade, hheap⟩ := allots_scratch (H := H)
    (max (inner.slotSize Heap.pointerSize) Heap.pointerSize) before
  cases hslot.symm.trans hmade
  obtain ⟨hstore, _⟩ := Bridge.of_write_eq_ok (of_onBridge_eq_ok h)
  have hlt := (of_slot_eq_ok hslot).2.lt
  have hgrown := (Heap.framed_of_write_eq_ok hstore).next_le
  refine ⟨by omega, fun hscalar hplain hsound hfits => ?_⟩
  obtain ⟨rfl, rfl⟩ := hready hscalar
  have hmade : ready.bridge.heap.Sound := by
    rw [hheap]
    exact hsound.alloc _ none
  have hhandle := Handle.toNat_ofNat_of_lt
    (Nat.lt_of_lt_of_le hlt (Nat.le_trans hgrown hfits))
  refine (Heap.holds_of_write_eq_ok hmade hscalar (hhandle.symm ▸ hlt) hfits ?_ hstore).mono
    (Nat.le_of_lt hlt)
  rintro ownership text rfl rfl
  exact hplain

/-- What native code gets for an argument that it writes to. -/
inductive Given (plan : CallPlan) (values : List Value) (arg : CallArg) (inner : Descriptor)
    (before after : Heap) : Value → Prop
  | nothing (hentered : plan.entered? values arg inner = none) :
      Given plan values arg inner before after .null
  | slot {first : Value} (hentered : plan.entered? values arg inner = some first)
      (hopens : Opens inner first before after) :
      Given plan values arg inner before after (.pointer (.ofNat before.next))

/-- A slot for a value of the caller. -/
theorem of_lowerCaller_eq_ok (hinner : arg.descriptor = .reference inner)
    (houtput : arg.flags.output = true) (h : lowerCaller arg given before = .ok value after) :
    value = .pointer (.ofNat before.bridge.heap.next) ∧
      Opens inner given.stored before.bridge.heap after.bridge.heap := by
  unfold lowerCaller at h
  rw [hinner] at h
  dsimp only at h
  rw [if_pos houtput] at h
  obtain ⟨slot, made, hslot, h⟩ := of_bind_eq_ok h
  obtain ⟨lowered, ready, hlowered, h⟩ := of_bind_eq_ok h
  obtain ⟨_, written, hwrite, hlast⟩ := of_bind_eq_ok h
  cases hlast
  have hready := Calling.touches_of_run
    ((within_touches_lowerValue_lowerItems.1 inner given).of_eq_ok hlowered)
  refine ⟨by rw [(of_slot_eq_ok hslot).1], opens_of_write hslot hready.next_le ?_ hwrite⟩
  intro hscalar
  rw [lowerValue_of_isArray_eq_false hscalar.isArray] at hlowered
  cases hlowered
  exact ⟨rfl, rfl⟩

/-- A slot for the number of items in an array of the caller. -/
theorem of_lowerLength_eq_ok (hinner : arg.descriptor = .reference inner)
    (houtput : arg.flags.output = true) (h : lowerLength arg count before = .ok value after) :
    value = .pointer (.ofNat before.bridge.heap.next) ∧
      Opens inner (countValue inner count) before.bridge.heap after.bridge.heap := by
  unfold lowerLength at h
  rw [hinner, if_pos houtput] at h
  obtain ⟨slot, made, hslot, h⟩ := of_bind_eq_ok h
  obtain ⟨_, written, hwrite, hlast⟩ := of_bind_eq_ok h
  cases hlast
  exact ⟨by rw [(of_slot_eq_ok hslot).1],
    opens_of_write hslot (Nat.le_refl _) (fun _ => ⟨rfl, rfl⟩) hwrite⟩

/-- A slot or a record for native code to fill. -/
theorem of_lowerOutput_eq_ok (hinner : arg.descriptor = .reference inner)
    (h : lowerOutput env arg index before = .ok value after) :
    value = .pointer (.ofNat before.bridge.heap.next) ∧
      Opens inner inner.blank before.bridge.heap after.bridge.heap := by
  unfold lowerOutput at h
  cases hrecord : callerRecord? env arg with
  | none =>
      rw [hrecord, hinner] at h
      obtain ⟨slot, made, hslot, hlast⟩ := of_bind_eq_ok h
      cases hlast
      obtain ⟨rfl, hopens⟩ := of_slot_eq_ok hslot
      exact ⟨rfl, hopens⟩
  | some found =>
      rw [hrecord] at h
      obtain ⟨handle, made, hmade, h⟩ := of_bind_eq_ok h
      obtain ⟨_, noted, hnote, hlast⟩ := of_bind_eq_ok h
      cases hlast
      cases hnote
      obtain ⟨rfl, hbridge⟩ := of_alloc_eq_ok (of_inCall_eq_ok (of_onBridge_eq_ok hmade))
      refine ⟨rfl, opens_alloc (fun hscalar => ?_) (congrArg Bridge.heap hbridge)⟩
      have hsome : (callerRecord? env arg).isSome = true := by
        rw [hrecord]
        rfl
      obtain ⟨_, _, hdescriptor, hrecord⟩ := exists_of_callerRecord? hsome
      cases hinner.symm.trans hdescriptor
      rcases hrecord with ⟨_, _, _, rfl⟩ | ⟨_, _, _, _, rfl⟩
      · exact hscalar.elim
      · exact hscalar.elim

/-- An argument that native code writes to has a slot, unless its value is left out. -/
theorem given_of_lowerArg_eq_ok (hinner : arg.descriptor = .reference inner)
    (houtput : arg.flags.output = true)
    (hwritten : arg.isResult = true ∨ arg.holdsLength = true ∨ arg.source = .errorSlot)
    (hnone : before.frame.callback? index = none)
    (h : lowerArg env plan receiver values arg index before = .ok value after) :
    Given plan values arg inner before.bridge.heap after.bridge.heap value := by
  unfold lowerArg at h
  cases hsource : arg.source with
  | caller visible =>
      have hentered : plan.entered? values arg inner = values[visible]?.map Value.stored := by
        rw [CallPlan.entered?, hsource]
      rw [hsource] at h
      dsimp only at h
      rw [get_bind, hnone] at h
      dsimp only at h
      cases hgiven : values[visible]? with
      | none =>
          rw [hgiven] at h
          cases h
          exact .nothing (by rw [hentered, hgiven, Option.map_none])
      | some given =>
          rw [hgiven] at h
          obtain ⟨rfl, hopens⟩ := of_lowerCaller_eq_ok hinner houtput h
          exact .slot (by rw [hentered, hgiven, Option.map_some]) hopens
  | arrayLength array =>
      rw [hsource] at h
      obtain ⟨rfl, hopens⟩ := of_lowerLength_eq_ok hinner houtput h
      exact .slot (by rw [CallPlan.entered?, hsource]) hopens
  | outSlot =>
      rw [hsource] at h
      obtain ⟨rfl, hopens⟩ := of_lowerOutput_eq_ok hinner h
      exact .slot (by rw [CallPlan.entered?, hsource]) hopens
  | returnLength | errorSlot =>
      rw [hsource, hinner] at h
      obtain ⟨slot, made, hslot, hlast⟩ := of_bind_eq_ok h
      cases hlast
      obtain ⟨rfl, hopens⟩ := of_slot_eq_ok hslot
      exact .slot (by rw [CallPlan.entered?, hsource]) hopens
  | _ =>
      simp [CallArg.isResult, CallArg.holdsLength, hsource] at hwritten

/-! ## All slots of a call -/

/-- The heaps between the arguments of a call. Each argument that native code writes to has its slot in
the stretch that the heap grows by in its turn. -/
structure Slotted (plan : CallPlan) (values : List Value) (frame : Frame) (start : Nat)
    (turn : Nat → Heap) : Prop where
  start_le : start ≤ (turn 0).next
  sound (place : Nat) : place ≤ plan.args.length → (turn place).Sound
  framed {place other : Nat} : place ≤ other → other ≤ plan.args.length →
    (turn place).Framed ∅ (turn other)
  given {native : Nat} {arg : CallArg} : plan.args[native]? = some arg → arg.flags.output = true →
    ∃ inner value, frame.args[native]? = some ⟨.reference inner, value, arg.flags.optional⟩ ∧
      arg.descriptor = .reference inner ∧
      Given plan values arg inner (turn native) (turn (native + 1)) value

/-- Where the slot of an argument lies, and what is made behind all arguments. -/
def region (plan : CallPlan) (turn : Nat → Heap) (native : Nat) : Set Nat :=
  Set.Ico (turn native).next (turn (native + 1)).next ∪ Set.Ici (turn plan.args.length).next

theorem exists_slotted_of_lower_eq_ok {builder : CallBuilder} {callable : Callable}
    {owner : Option Owner} {described : List Descriptor} {returned : Descriptor}
    {args : List CallArg} {bridge : Bridge H}
    (hbuilt : CallBuilder.Built builder callable owner described returned args plan)
    (hsound : bridge.heap.Sound) {u : Unit}
    (h : lower env plan receiver values ⟨bridge, {}⟩ = .ok u after) :
    ∃ turn, Slotted plan values after.frame bridge.heap.next turn ∧
      turn plan.args.length = after.bridge.heap := by
  obtain ⟨turn, hturns, hfirst, rfl, hnone⟩ := exists_turns_of_lower_eq_ok h
  have hframed {place other : Nat} (hle : place ≤ other) (hother : other ≤ plan.args.length) :
      (turn place).bridge.heap.Framed ∅ (turn other).bridge.heap :=
    (hturns.spares hle hother).1
  refine ⟨fun place => (turn place).bridge.heap, ⟨?_, fun place hplace => ?_, hframed, ?_⟩, rfl⟩
  · rw [hfirst]
  · exact (hframed (Nat.zero_le _) hplace).sound (hfirst.symm ▸ hsound)
  · intro native arg harg houtput
    obtain ⟨hless, _⟩ := List.getElem?_eq_some_iff.1 harg
    obtain ⟨inner, hinner, _⟩ := hbuilt.exists_inner_of_output harg houtput
    obtain ⟨value, made, hlower, hmade, hthere⟩ := hturns.exists_lowerArg harg
    refine ⟨inner, value, hinner ▸ hthere, hinner, ?_⟩
    have hcallback : (turn native).frame.callback? native = none := by
      rw [Frame.callback?, (hturns.spares (Nat.zero_le native) (Nat.le_of_lt hless)).2]
      exact hnone native arg harg (by rw [hinner]; rfl)
    rw [hmade]
    exact given_of_lowerArg_eq_ok hinner houtput (hbuilt.of_output harg houtput) hcallback hlower

namespace Slotted

variable {frame : Frame} {start native other : Nat} {turn : Nat → Heap}
  (h : Slotted plan values frame start turn)
include h

theorem next_le {place : Nat} (hle : place ≤ other) (hother : other ≤ plan.args.length) :
    (turn place).next ≤ (turn other).next :=
  (h.framed hle hother).next_le

theorem start_le_next {place : Nat} (hplace : place ≤ plan.args.length) :
    start ≤ (turn place).next :=
  Nat.le_trans h.start_le (h.next_le (Nat.zero_le place) hplace)

theorem next_succ_le (hnative : native < plan.args.length) :
    (turn (native + 1)).next ≤ (turn plan.args.length).next :=
  h.next_le hnative (Nat.le_refl _)

section Address

variable (hnative : native < plan.args.length) (hlt : (turn native).next < (turn (native + 1)).next)
  (hfits : (turn plan.args.length).next ≤ twoPow 64)
include hnative hlt hfits

theorem toNat_ofNat_next : (Handle.ofNat (turn native).next).toNat = (turn native).next := by
  have hlast := h.next_succ_le hnative
  exact Handle.toNat_ofNat_of_lt (by omega)

/-- There is something where a slot begins. -/
theorem isNull_eq_false : (Handle.ofNat (turn native).next).isNull = false := by
  rw [Handle.isNull_eq_false_iff, h.toNat_ofNat_next hnative hlt hfits]
  exact (h.sound native (Nat.le_of_lt hnative)).next_pos

end Address

/-- What is made for an argument has been made for the call. -/
theorem region_subset (hnative : native < plan.args.length) :
    region plan turn native ⊆ Set.Ici start := by
  intro addr haddr
  have hfirst := h.start_le_next (Nat.le_of_lt hnative)
  have hlast := h.start_le_next (Nat.le_refl _)
  simp only [region, Set.mem_union, Set.mem_Ico, Set.mem_Ici] at haddr ⊢
  omega

/-- The slot of one argument is not where the slot of another one is. -/
theorem stretch_subset_compl (hnative : native < plan.args.length)
    (hother : other < plan.args.length) (hne : other ≠ native) :
    Set.Ico (turn other).next (turn (other + 1)).next ⊆ (region plan turn native)ᶜ := by
  intro addr haddr
  have hlast := h.next_succ_le hother
  simp only [region, Set.mem_compl_iff, Set.mem_union, Set.mem_Ico, Set.mem_Ici] at haddr ⊢
  rcases Nat.lt_or_gt_of_ne hne with hless | hless
  · have hapart : (turn (other + 1)).next ≤ _ := h.next_le hless (Nat.le_of_lt hnative)
    omega
  · have hapart : (turn (native + 1)).next ≤ _ := h.next_le hless (Nat.le_of_lt hother)
    omega

end Slotted

end Lowering

end Interop
