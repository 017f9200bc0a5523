import Interop.Proofs.Bridge.Slots

/-! # Outputs that are stored

A native function stores outputs in any order, each of them as often as it likes. What is stored last
stays in its slot: a store changes no other slot, and its texts come to lie behind all that was there
before.
-/

namespace Interop

open Schema Relation Steps Lowering

variable {H : Host}

namespace Bridge

/-- What a native function has stored on the way from one state to another, the newest first. What else
it does leaves alone what has been made for the call, from an address on. -/
inductive Stores (plan : CallPlan) (frame : Frame) (start : Nat) (made : Bridge H) :
    List (Nat × Value) → Bridge H → Prop
  | none : Stores plan frame start made [] made
  | set {stores : List (Nat × Value)} {before after : Bridge H} {native : Nat} {arg : CallArg}
      {value : Value} (h : Stores plan frame start made stores before)
      (harg : plan.args[native]? = some arg) (houtput : arg.flags.output = true)
      (hset : (plan.nativeCall frame).setOut native value before = .ok ⟨⟩ after) :
      Stores plan frame start made ((native, value) :: stores) after
  | other {stores : List (Nat × Value)} {before after : Bridge H}
      (h : Stores plan frame start made stores before)
      (hstays : before.heap.StaysFrom start ∅ after.heap) : Stores plan frame start made stores after

variable {plan : CallPlan} {values : List Value} {frame : Frame} {start native other : Nat}
  {turn : Nat → Heap} {made before after ready : Bridge H} {stores : List (Nat × Value)}
  {arg : CallArg} {inner : Descriptor} {value first content : Value}

/-- The slot has held a scalar since some time, and nobody else has written there. -/
def Settled (plan : CallPlan) (start : Nat) (turn : Nat → Heap) (native : Nat) (inner : Descriptor)
    (content : Value) (heap : Heap) : Prop :=
  ∃ early : Heap, early.Sound ∧
    early.HoldsIn (region plan turn native) (.ofNat (turn native).next) inner content ∧
    early.StaysFrom start (region plan turn native)ᶜ heap

theorem Settled.trans {heap heap' : Heap} (h : Settled plan start turn native inner content heap)
    (hstays : heap.StaysFrom start (region plan turn native)ᶜ heap') :
    Settled plan start turn native inner content heap' := by
  obtain ⟨early, hsound, hholds, hearly⟩ := h
  exact ⟨early, hsound, hholds, hearly.trans hstays⟩

section Slot

variable (hslotted : Slotted plan values frame start turn)
include hslotted

/-- Where an argument has no slot nothing is stored. -/
theorem setOut_cases (harg : plan.args[native]? = some arg) (houtput : arg.flags.output = true)
    (hset : (plan.nativeCall frame).setOut native value before = .ok ⟨⟩ after) :
    ∃ inner, arg.descriptor = .reference inner ∧
      (after = before ∧ (plan.entered? values arg inner = none ∨
        (Handle.ofNat (turn native).next).isNull = true) ∨
      (turn native).next < (turn (native + 1)).next ∧
        Heap.write (.ofNat (turn native).next) inner 0 value before.heap = .ok ⟨⟩ after.heap) := by
  obtain ⟨inner, passed, hpassed, hinner, hgiven⟩ := hslotted.given harg houtput
  obtain ⟨slot, hslot, hstored⟩ :=
    of_setOut_eq_ok ((Array.getElem?_toList ..).trans hpassed) hset
  refine ⟨inner, hinner, ?_⟩
  cases hgiven with
  | nothing hentered =>
      cases hslot
      rcases hstored with ⟨_, rfl⟩ | ⟨hthere, _⟩
      · exact .inl ⟨rfl, .inl hentered⟩
      · cases hthere
  | slot _ hopens =>
      cases hslot
      rcases hstored with ⟨hnull, rfl⟩ | ⟨_, hwrite⟩
      · exact .inl ⟨rfl, .inr hnull⟩
      · exact .inr ⟨hopens.lt, hwrite⟩

/-- Whatever native code stores, what has been made for the call lies where it was. -/
theorem staysFrom_of_stores (hstores : Stores plan frame start made stores ready) :
    made.heap.StaysFrom start Set.univ ready.heap := by
  induction hstores with
  | none => exact Heap.staysFrom_refl _ _ _
  | set _ harg houtput hset ih =>
      obtain ⟨_, _, ⟨rfl, _⟩ | ⟨_, hwrite⟩⟩ := setOut_cases hslotted harg houtput hset
      · exact ih
      · exact ih.trans (((Heap.framed_of_write_eq_ok hwrite).staysFrom start).mono
          (Set.subset_univ _))
  | other _ hstays ih => exact ih.trans (hstays.mono (Set.subset_univ _))

section Later

variable (hmade : turn plan.args.length = made.heap)
  (hlater : made.heap.StaysFrom start Set.univ before.heap) (hfits : after.heap.next ≤ twoPow 64)
include hmade hlater hfits

/-- A store stays in the stretch of its argument. -/
theorem slot_subset_of_write (hnative : native < plan.args.length)
    (hlt : (turn native).next < (turn (native + 1)).next)
    (hwrite : Heap.write (.ofNat (turn native).next) inner 0 value before.heap =
      .ok ⟨⟩ after.heap) :
    (Handle.ofNat (turn native).next).slot 0 (inner.slotSize Heap.pointerSize) ⊆
      Set.Ico (turn native).next (turn (native + 1)).next := by
  have hgrown := (Heap.framed_of_write_eq_ok hwrite).next_le
  have hhandle := hslotted.toNat_ofNat_next hnative hlt
    (hmade ▸ Nat.le_trans hlater.next_le (Nat.le_trans hgrown hfits))
  have hstays : (turn (native + 1)).StaysFrom start Set.univ before.heap :=
    (((hslotted.framed hnative (Nat.le_refl _)).staysFrom start).mono
      (Set.empty_subset _)).trans (hmade ▸ hlater)
  have hsub := hstays.slot_subset_of_write (hslotted.sound _ hnative) hfits
    (hhandle.symm ▸ hslotted.start_le_next (Nat.le_of_lt hnative)) (hhandle.symm ▸ hlt) hwrite
  rwa [hhandle] at hsub

/-- A store for one argument leaves the slot of another one alone. -/
theorem staysFrom_of_setOut_other (harg : plan.args[other]? = some arg)
    (houtput : arg.flags.output = true) (hnative : native < plan.args.length)
    (hne : other ≠ native)
    (hset : (plan.nativeCall frame).setOut other value before = .ok ⟨⟩ after) :
    before.heap.StaysFrom start (region plan turn native)ᶜ after.heap := by
  obtain ⟨hother, _⟩ := List.getElem?_eq_some_iff.1 harg
  obtain ⟨_, _, ⟨rfl, _⟩ | ⟨hlt, hwrite⟩⟩ := setOut_cases hslotted harg houtput hset
  · exact Heap.staysFrom_refl _ _ _
  · exact ((Heap.framed_of_write_eq_ok hwrite).staysFrom start).mono
      ((slot_subset_of_write hslotted hmade hlater hfits hother hlt hwrite).trans
        (hslotted.stretch_subset_compl hnative hother hne))

/-- A slot holds what has just been stored in it. -/
theorem settled_of_write (hscalar : inner.IsScalar) (hplain : inner.Plain value)
    (hnative : native < plan.args.length) (hlt : (turn native).next < (turn (native + 1)).next)
    (hwrite : Heap.write (.ofNat (turn native).next) inner 0 value before.heap =
      .ok ⟨⟩ after.heap) :
    Settled plan start turn native inner value after.heap := by
  have hgrown := (Heap.framed_of_write_eq_ok hwrite).next_le
  have hhandle := hslotted.toNat_ofNat_next hnative hlt
    (hmade ▸ Nat.le_trans hlater.next_le (Nat.le_trans hgrown hfits))
  have hlast := Nat.le_trans (hmade ▸ hslotted.next_succ_le hnative) hlater.next_le
  have hsound : before.heap.Sound := hlater.sound (hmade ▸ hslotted.sound _ (Nat.le_refl _))
  have hafter := (Heap.framed_of_write_eq_ok hwrite).sound hsound
  have hholds := Heap.holds_of_write_eq_ok hsound hscalar (by omega) hfits
    (fun ownership text hstring htext => by
      subst hstring htext
      exact hplain) hwrite
  refine ⟨after.heap, hafter, hholds.holdsIn hplain hafter ?_ ?_, Heap.staysFrom_refl _ _ _⟩
  · exact (slot_subset_of_write hslotted hmade hlater hfits hnative hlt hwrite).trans
      Set.subset_union_left
  · intro addr hbound _
    rw [region, hmade]
    exact .inr (Nat.le_trans hlater.next_le hbound)

end Later

/-- Before anything is stored a slot holds what it has been made with. -/
theorem settled_of_opens (hscalar : inner.IsScalar) (hplain : inner.Plain first)
    (hnative : native < plan.args.length)
    (hopens : Opens inner first (turn native) (turn (native + 1)))
    (hfits : (turn plan.args.length).next ≤ twoPow 64) :
    Settled plan start turn native inner first (turn plan.args.length) := by
  have hsound : (turn (native + 1)).Sound := hslotted.sound _ hnative
  have hholds := hopens.holds hscalar hplain (hslotted.sound _ (Nat.le_of_lt hnative))
    (Nat.le_trans (hslotted.next_succ_le hnative) hfits)
  have hslot := hholds.slot_subset hsound
  rw [hslotted.toNat_ofNat_next hnative hopens.lt hfits] at hslot
  refine ⟨_, hsound, hholds.holdsIn hplain hsound (hslot.trans Set.subset_union_left) ?_,
    ((hslotted.framed hnative (Nat.le_refl _)).staysFrom start).mono (Set.empty_subset _)⟩
  exact fun addr hlow hhigh => .inl ⟨hlow, hhigh⟩

/-- The slot of an argument holds what has been stored for it last, or what it has been made with. By
induction over what is stored. -/
theorem settled_of_stores (hstores : Stores plan frame start made stores ready)
    (hmade : turn plan.args.length = made.heap) (hfits : ready.heap.next ≤ twoPow 64)
    (harg : plan.args[native]? = some arg) (hinner : arg.descriptor = .reference inner)
    (hscalar : inner.IsScalar) (hentered : plan.entered? values arg inner = some first)
    (hopens : Opens inner first (turn native) (turn (native + 1)))
    (hplain : inner.Plain ((stores.lookup native).getD first)) :
    Settled plan start turn native inner ((stores.lookup native).getD first) ready.heap := by
  obtain ⟨hnative, _⟩ := List.getElem?_eq_some_iff.1 harg
  induction hstores with
  | none => exact hmade ▸ settled_of_opens hslotted hscalar hplain hnative hopens (hmade ▸ hfits)
  | @set stores before after other arg' value hbefore harg' houtput hset ih =>
      have hlater := staysFrom_of_stores hslotted hbefore
      by_cases hsame : other = native
      · subst other
        obtain rfl := Option.some.inj (harg.symm.trans harg')
        rw [List.lookup_cons_self, Option.getD_some] at hplain ⊢
        obtain ⟨inner', hinner', hcase⟩ := setOut_cases hslotted harg houtput hset
        cases hinner.symm.trans hinner'
        -- the slot is there, so what is stored is written to it
        rcases hcase with ⟨rfl, hnone | hnull⟩ | ⟨hlt, hwrite⟩
        · rw [hentered] at hnone
          cases hnone
        · exact absurd hnull (Bool.eq_false_iff.1 (hslotted.isNull_eq_false hnative hopens.lt
            (hmade ▸ Nat.le_trans hlater.next_le hfits)))
        · exact settled_of_write hslotted hmade hlater hfits hscalar hplain hnative hlt hwrite
      · have hskip : ((other, value) :: stores).lookup native = stores.lookup native := by
          rw [List.lookup_cons, beq_eq_false_iff_ne.2 (Ne.symm hsame)]
        rw [hskip] at hplain ⊢
        have hstays := staysFrom_of_setOut_other hslotted hmade hlater hfits harg' houtput hnative
          hsame hset
        exact (ih (Nat.le_trans hstays.next_le hfits) hplain).trans hstays
  | other _ hstays ih =>
      exact (ih (Nat.le_trans hstays.next_le hfits) hplain).trans
        (hstays.mono (Set.empty_subset _))

end Slot

end Bridge

end Interop
