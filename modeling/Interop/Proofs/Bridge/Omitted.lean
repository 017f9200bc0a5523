import Interop.Proofs.Bridge.ArrayArguments
import Interop.Proofs.Bridge.Releases
import Interop.Proofs.Bridge.StartValues
import Interop.Proofs.Call.Grammar

/-! # Values that are left out

Optional values at the end may be left out. The native arguments are then those that nulls would make,
whatever the parameters are: no callback is registered for either, and an array that is not there has
as many items as null. It is different only where native code writes to the argument: for a value that
is left out it gets null, and for a null a slot with the null in it, if null can be stored there.
-/

namespace Interop

open Schema Relation Steps

variable {H : Host} {values : List Value} {count : Nat}

/-- The values with so many nulls behind them. -/
def withNulls (values : List Value) (count : Nat) : List Value :=
  values ++ List.replicate count .null

/-- Whether a value is left out that would be one of the nulls. -/
def Omits (values : List Value) (count visible : Nat) : Prop :=
  values.length ≤ visible ∧ visible < values.length + count

theorem withNulls_cases (values : List Value) (count visible : Nat) :
    ¬ Omits values count visible ∧ (withNulls values count)[visible]? = values[visible]? ∨
      Omits values count visible ∧ (withNulls values count)[visible]? = some .null ∧
        values[visible]? = none := by
  unfold withNulls Omits
  rcases Nat.lt_or_ge visible values.length with hgiven | hbehind
  · exact .inl ⟨by omega, List.getElem?_append_left hgiven⟩
  · rw [List.getElem?_append_right hbehind, List.getElem?_replicate,
      List.getElem?_eq_none hbehind]
    split
    next => exact .inr ⟨by omega, rfl, rfl⟩
    next => exact .inl ⟨by omega, rfl⟩

theorem Suffice.withNulls {params : List VisibleParam} (h : Suffice params values)
    (hcount : values.length + count ≤ params.length) : Suffice params (withNulls values count) where
  length_le := by rwa [Interop.withNulls, List.length_append, List.length_replicate]
  optional number param hle hparam := by
    rw [Interop.withNulls, List.length_append] at hle
    exact h.optional number param (Nat.le_trans (Nat.le_add_right ..) hle) hparam

/-- A value is left out for the argument, and native code writes to it. -/
def CallArg.OmitsSlot (arg : CallArg) (values : List Value) (count : Nat) : Prop :=
  arg.flags.output = true ∧ ∃ visible, arg.source = .caller visible ∧ Omits values count visible

namespace Lowering

variable {env : Env H} {plan : CallPlan} {receiver : Option Value} {arg : CallArg} {index : Nat}

theorem prepareCallback_withNulls :
    (prepareCallback (withNulls values count) arg index : Lowering H Unit) =
      prepareCallback values arg index := by
  unfold prepareCallback
  split
  next visible _ _ =>
    rcases withNulls_cases values count visible with ⟨_, hsame⟩ | ⟨_, hnull, hnone⟩
    · rw [hsame]
    · rw [hnull, hnone]
  next => rfl

theorem itemCount_withNulls (plan : CallPlan) (values : List Value) (count array : Nat) :
    itemCount plan (withNulls values count) array = itemCount plan values array := by
  unfold itemCount
  split
  next visible _ =>
    rcases withNulls_cases values count visible with ⟨_, hsame⟩ | ⟨_, hnull, hnone⟩
    · rw [hsame]
    · rw [hnull, hnone]
      rfl
  next => rfl

theorem lowerValue_null (descriptor : Descriptor) :
    (lowerValue descriptor .null : Lowering H Value) = pure .null := by
  cases descriptor with
  | array =>
      rw [lowerValue]
      · rfl
      · intro items hitems
        cases hitems
  | _ =>
      rw [lowerValue]
      all_goals
        intros
        contradiction

theorem lowerCaller_null (h : arg.flags.output = false) :
    (lowerCaller arg .null : Lowering H Value) = pure .null := by
  unfold lowerCaller
  split
  next =>
    rw [h, if_neg Bool.false_ne_true]
    exact lowerValue_null _
  next => exact lowerValue_null _

theorem lowerArg_withNulls (hplain : ¬ arg.OmitsSlot values count) :
    lowerArg env plan receiver (withNulls values count) arg index =
      lowerArg env plan receiver values arg index := by
  unfold lowerArg
  split
  next => rfl
  next visible hsource =>
    rcases withNulls_cases values count visible with ⟨_, hsame⟩ | ⟨homits, hnull, hnone⟩
    · rw [hsame]
    · have hread : arg.flags.output = false := by
        rw [← Bool.not_eq_true]
        exact fun houtput => hplain ⟨houtput, visible, hsource, homits⟩
      rw [hnull, hnone]
      dsimp only
      rw [lowerCaller_null hread]
  next => rw [itemCount_withNulls]
  all_goals rfl

/-- Arguments that are made alike one by one are made alike. -/
theorem lower_withNulls (hplain : ∀ arg ∈ plan.args, ¬ arg.OmitsSlot values count) :
    lower env plan receiver (withNulls values count) = lower env plan receiver values := by
  have hpass : ∀ entry ∈ plan.args.zipIdx,
      passArg env plan receiver (withNulls values count) entry =
        passArg env plan receiver values entry := by
    rintro ⟨arg, index⟩ hentry
    have harg := List.mem_of_getElem? (List.mem_zipIdx_iff_getElem?.1 hentry)
    rw [passArg, passArg, lowerArg_withNulls (hplain arg harg)]
  rw [lower_eq, lower_eq, forM_congr_of_mem hpass]
  simp only [prepareCallback_withNulls]

end Lowering

/-- Whether null can be stored for the descriptor. -/
def Descriptor.TakesNull (descriptor : Descriptor) : Prop :=
  ∀ kind size, descriptor = .primitive kind size → kind = .void ∨ kind = .pointer

theorem Heap.takesNull_of_write_eq_ok {heap heap' : Heap} {handle : Handle}
    {descriptor : Descriptor} {offset : Nat} {u : Unit}
    (h : write handle descriptor offset .null heap = .ok u heap') : descriptor.TakesNull := by
  rintro kind size rfl
  obtain ⟨_, hbytes, _⟩ := exists_store_of_write_eq_ok rfl h
  obtain ⟨_, hencode, _⟩ := PrimitiveKind.of_slotBytes_eq_ok hbytes
  cases kind with
  | void => exact .inl rfl
  | pointer => exact .inr rfl
  | _ => cases hencode

namespace Bridge

variable {env : Env H} {plan : CallPlan} {receiver : Option Value} {bridge : Bridge H}
  {made : Calling H} {arg : CallArg} {native visible : Nat}

/-- Native code gets null for a value that is not there. -/
theorem getElem?_of_omitted (hlower : Lowering.lower env plan receiver values ⟨bridge, {}⟩ =
      .ok ⟨⟩ made) (harg : plan.args[native]? = some arg)
    (hcallback : arg.descriptor.isCallback = false) (hsource : arg.source = .caller visible)
    (hnone : values[visible]? = none) :
    made.frame.args[native]? = some ⟨arg.descriptor, .null, arg.flags.optional⟩ := by
  obtain ⟨value, before, behind, _, hunregistered, hmade, _, hthere⟩ :=
    Lowering.exists_lowerArg_of_lower_eq_ok hlower harg hcallback
  rw [Lowering.lowerArg, hsource] at hmade
  dsimp only at hmade
  rw [get_bind, hunregistered, hnone] at hmade
  cases hmade
  exact hthere

/-- It gets a slot with null in it for a null, where it writes to the argument. -/
theorem exists_slot_of_null (hlower : Lowering.lower env plan receiver values ⟨bridge, {}⟩ =
      .ok ⟨⟩ made) (harg : plan.args[native]? = some arg) {inner : Descriptor}
    (hdescriptor : arg.descriptor = .reference inner) (houtput : arg.flags.output = true)
    (hsource : arg.source = .caller visible) (hnull : values[visible]? = some .null) :
    inner.TakesNull ∧ ∃ slot : Handle, slot.isNull = false ∧
      made.frame.args[native]? = some ⟨arg.descriptor, .pointer slot, arg.flags.optional⟩ := by
  obtain ⟨value, before, behind, _, hunregistered, hmade, _, hthere⟩ :=
    Lowering.exists_lowerArg_of_lower_eq_ok hlower harg (by rw [hdescriptor]; rfl)
  rw [CallPlan.lowerArg_of_caller hsource hunregistered hnull, Lowering.lowerCaller,
    hdescriptor] at hmade
  dsimp only at hmade
  rw [houtput, if_pos rfl, Lowering.lowerValue_null] at hmade
  obtain ⟨slot, allotted, _, hfilled⟩ := of_bind_eq_ok hmade
  obtain ⟨_, _, hlowered, hwritten⟩ := of_bind_eq_ok hfilled
  cases hlowered
  obtain ⟨_, written, hwrite, hlast⟩ := of_bind_eq_ok hwritten
  cases hlast
  have hstored := of_onHeap_eq_ok (of_inCall_eq_ok (Lowering.of_onBridge_eq_ok hwrite))
  exact ⟨Heap.takesNull_of_write_eq_ok hstored, slot, Heap.isNull_of_write_eq_ok hstored, hthere⟩

/-- Nulls change nothing about a call if they are for values that native code only reads. An argument
that it writes to and whose value is left out is null, and a slot if the value is null: then native
code is entered with another argument, or not at all where null is none of the values. -/
theorem invoke_withNulls {builder : CallBuilder} {callable : Callable} {owner : Option Owner}
    {usage usage' : Usage} (h : builder.build callable owner usage = .ok plan usage')
    (hsuffice : Suffice plan.params values) (hcount : values.length + count ≤ plan.arity)
    (env : Env H) (receiver : Option Value) (bridge : Bridge H) :
    ((∀ arg ∈ plan.args, ¬ arg.OmitsSlot values count) →
      invoke env plan receiver (withNulls values count) bridge =
        invoke env plan receiver values bridge) ∧
    ∀ (native : Nat) (arg : CallArg), plan.args[native]? = some arg → arg.OmitsSlot values count →
      (∀ made, Lowering.lower env plan receiver values ⟨bridge, {}⟩ = .ok ⟨⟩ made →
        made.frame.args[native]? = some ⟨arg.descriptor, .null, arg.flags.optional⟩) ∧
      ∀ made, Lowering.lower env plan receiver (withNulls values count) ⟨bridge, {}⟩ = .ok ⟨⟩ made →
        ∃ inner, arg.descriptor = .reference inner ∧ inner.TakesNull ∧
          ∃ slot : Handle, slot.isNull = false ∧
            made.frame.args[native]? = some ⟨arg.descriptor, .pointer slot, arg.flags.optional⟩ := by
  constructor
  · intro hplain
    rw [invoke_eq_of_accepted (checkArity_eq_ok_iff.2 hsuffice),
      invoke_eq_of_accepted (checkArity_eq_ok_iff.2 (hsuffice.withNulls hcount)),
      enterPlan, enterPlan, Lowering.lower_withNulls hplain]
  · rintro native arg harg ⟨houtput, visible, hsource, homits⟩
    obtain ⟨described, returned, args, hbuilt⟩ := CallBuilder.exists_built_of_build h
    obtain ⟨inner, hdescriptor, _⟩ := hbuilt.exists_inner_of_output harg houtput
    obtain ⟨_, hnull, hnone⟩ :=
      (withNulls_cases values count visible).resolve_left fun hgiven => hgiven.1 homits
    refine ⟨fun made hlower => ?_, fun made hlower => ⟨inner, hdescriptor, ?_⟩⟩
    · exact getElem?_of_omitted hlower harg (by rw [hdescriptor]; rfl) hsource hnone
    · exact exists_slot_of_null hlower harg hdescriptor houtput hsource hnull

/-- A function that takes a name and, if the caller likes, numbers and a name that it may change. -/
def note : Callable where
  name := "note"
  symbol := "n_greet"
  params := [
    { name := "name", type := .named "utf8" },
    { name := "marks", type := (TypeRef.named "gint32").arrayOf (.counted 2), optional := true },
    { name := "count", type := .named "guint" },
    { name := "title", type := .named "utf8", direction := .inout, optional := true }]

/-- The numbers may be null as well as left out, and the name to change is a slot if it is null. -/
theorem note_withNulls :
    (∃ usage, (greeterEnv.compiler.builder welcome).build note none {} = .ok (guestPlan note) usage) ∧
      Suffice (guestPlan note).params [.string "a"] ∧
      invoke greeterEnv (guestPlan note) none [.string "a", .null] greeterBridge =
        invoke greeterEnv (guestPlan note) none [.string "a"] greeterBridge ∧
      ∃ (made : Calling greeter) (slot : Handle),
        Lowering.lower greeterEnv (guestPlan note) none [.string "a", .null, .null]
          ⟨greeterBridge, {}⟩ = .ok ⟨⟩ made ∧ slot.isNull = false ∧
        made.frame.args[3]? = some ⟨.reference (.string .none), .pointer slot, true⟩ := by
  obtain ⟨usage, hbuilt⟩ := exists_build_guestPlan note (by decide +kernel)
  have hsuffice : Suffice (guestPlan note).params [.string "a"] := by decide +kernel
  have hmarks : ∀ arg ∈ (guestPlan note).args, arg.source = .caller 1 → arg.flags.output = false := by
    decide +kernel
  have hplain : ∀ arg ∈ (guestPlan note).args, ¬ arg.OmitsSlot [.string "a"] 1 := by
    rintro arg harg ⟨houtput, visible, hsource, hle, hlt⟩
    obtain rfl : visible = 1 := by simp only [List.length_singleton] at hle hlt; omega
    rw [hmarks arg harg hsource] at houtput
    cases houtput
  have htitle : (guestPlan note).args[3]? = some ⟨"title", .reference (.string .none), .caller 2,
      { optional := true, output := true }⟩ := by rfl
  have harity : [Value.string "a"].length + 2 ≤ (guestPlan note).arity := by decide +kernel
  obtain ⟨hsame, _⟩ := invoke_withNulls hbuilt hsuffice (Nat.le_of_succ_le harity) greeterEnv none
    greeterBridge
  obtain ⟨_, hslot⟩ := (invoke_withNulls hbuilt hsuffice harity greeterEnv none greeterBridge).2 3 _
    htitle ⟨rfl, 2, rfl, by decide, by decide⟩
  have hmakes : (value? (Lowering.lower greeterEnv (guestPlan note) none
      [.string "a", .null, .null] ⟨greeterBridge, {}⟩)).isSome = true := by decide +kernel
  have hmade := eq_ok_of_isSome ⟨⟩ hmakes
  obtain ⟨_, _, _, slot, hslot, hthere⟩ := hslot _ hmade
  exact ⟨⟨usage, hbuilt⟩, hsuffice, hsame hplain, _, slot, hmade, hslot, hthere⟩

/-- A function that may get a number and counts on from it. -/
def countOn : Callable where
  name := "count"
  symbol := "n_greet"
  params := [{ name := "start", type := .named "gint", direction := .inout, optional := true }]

/-- The call succeeds if the number is left out and fails if it is null. -/
theorem countOn_withNulls :
    (∃ usage, (greeterEnv.compiler.builder welcome).build countOn none {} =
        .ok (guestPlan countOn) usage) ∧
      Suffice (guestPlan countOn).params [] ∧
      failure? (invoke greeterEnv (guestPlan countOn) none [] greeterBridge) = none ∧
      failure? (invoke greeterEnv (guestPlan countOn) none [.null] greeterBridge) =
        some (.dispatch (.typeMismatch "int32" "null")) := by
  refine ⟨exists_build_guestPlan countOn (by decide +kernel), ?_⟩
  decide +kernel

end Bridge

end Interop
