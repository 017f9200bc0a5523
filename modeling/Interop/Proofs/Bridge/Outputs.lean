import Interop.Proofs.Bridge.RecordResults
import Interop.Proofs.Bridge.Stored

/-! # What a call gives for its outputs

An output that is a scalar is read from its slot when native code has returned. On the way there the
value of the call is lifted, other outputs are wrapped and copied, and references are given back, none
of which changes what has been made for the call.
-/

namespace Interop

open Schema Relation Steps Lowering

variable {H : Host}

namespace Bridge

variable {env : Env H} {bridge before after returned last : Bridge H} {frame : Frame} {index : Nat}
  {inner : Descriptor} {passed output : Value} {optional : Bool} {start : Nat}

/-! ## On the way to an output -/

/-- What lies from an address on is left alone, as long as it is there. -/
def Respects (start : Nat) (bridge bridge' : Bridge H) : Prop :=
  bridge.heap.StaysFrom start ∅ bridge'.heap

theorem respects_of_heap_eq (h : after.heap = before.heap) : Respects start before after := by
  rw [Respects, h]
  exact Heap.staysFrom_refl _ _ _

theorem respects_of_run (h : ReflTransGen (Respects start) before after) :
    Respects start before after :=
  Heap.staysFrom_of_run (h.lift (fun bridge : Bridge H => bridge.heap) fun _ _ hstep => hstep)

/-- Wrapping, copying and giving references back leaves alone what is there, if functions of the host
that give references back do so. -/
theorem closes_respects
    (heffect : ∀ (fn : H.Native) (call : NativeCall), Within (Respects start) (env.effect fn call)) :
    Closes env (Respects start) :=
  { counts_of_indifferent env (R := Respects start)
      fun _ _ _ _ _ _ _ => respects_of_heap_eq rfl with
    unref := fun h => Heap.staysFrom_of_unref_eq_ok h start
    copy := fun size typeName element source bridge => by
      have hmade : (alloc size typeName none : Native H Handle) bridge = .ok _ _ := rfl
      rw [bind_eq_of_eq_ok hmade, write, ending_onHeap]
      exact .single ((Heap.framed_write_alloc bridge.heap size typeName element _).staysFrom start)
    effect := heffect
    other := fun h => respects_of_heap_eq h.heap }

/-- A scalar is read from its slot. -/
theorem of_liftOutput_eq_ok
    (harg : frame.args[index]? = some ⟨.reference inner, passed, optional⟩)
    (hbasic : inner.isBasic = true)
    (h : liftOutput env frame index before = .ok output after) :
    passed.nonNull? = none ∧ output = .null ∨
      ∃ slot, passed.nonNull? = some slot ∧ before.heap.read slot inner 0 = .ok output := by
  have hsame : liftOutput env frame index = passed.nonNull?.elim (pure .null)
      fun slot => inCall (read slot inner 0) >>= lift env frame.args inner := by
    unfold liftOutput
    rw [harg]
    dsimp only
    cases inner with
    | primitive | string =>
        cases frame.records.lookup index <;> cases passed.nonNull? <;> rfl
    | _ => cases hbasic
  rw [hsame] at h
  cases hslot : passed.nonNull? with
  | none =>
      rw [hslot] at h
      cases h
      exact .inl ⟨rfl, rfl⟩
  | some slot =>
      rw [hslot] at h
      obtain ⟨raw, read, hread, hlift⟩ := of_bind_eq_ok h
      obtain ⟨hread, rfl⟩ := of_read_eq_ok (of_inCall_eq_ok hread)
      refine .inr ⟨slot, rfl, ?_⟩
      cases inner with
      | primitive | string =>
          rw [lift] at hlift
          cases hlift
          exact hread
      | _ => cases hbasic

/-- A call that succeeds gives its outputs one after the other, behind its value. -/
theorem steps_of_outputs {R : Bridge H → Bridge H → Prop} {plan : CallPlan}
    {receiver : Option Value} {values : List Value} {raw : Value} {result : CallResult}
    (hcloses : Closes env R)
    (hentered : enterPlan env plan receiver values ⟨bridge, {}⟩ = .ok raw ⟨returned, frame⟩)
    (h : invoke env plan receiver values bridge = .ok result last) :
    result.outputs.length = plan.outputs.length ∧
      ∀ (place native : Nat) (output : Value), plan.outputs[place]? = some native →
        result.outputs[place]? = some output → ∃ before after, ReflTransGen R returned before ∧
          liftOutput env frame native before = .ok output after ∧ ReflTransGen R after last := by
  obtain ⟨lifted, collected, hlift, houtputs, rfl⟩ := steps_of_invoke_eq_ok hentered h
  have hdropped := hcloses.dropAll [raw] lifted
  obtain ⟨hlength, hsteps⟩ := steps_of_collect_eq_ok
    (fun index => hcloses.within_liftOutput frame (plan.outputs.getD index 0)) houtputs
  refine ⟨hlength, fun place native output hplace houtput => ?_⟩
  obtain ⟨before, after, hbefore, hstep, hafter⟩ := hsteps place output houtput
  have hreached := (hcloses.within_lift frame.args plan.returns raw).of_eq_ok hlift
  rw [List.getD_eq_getElem?_getD, hplace, Option.getD_some] at hstep
  exact ⟨before, after, hreached.trans (hdropped.trans hbefore), hstep,
    hafter.trans (hcloses.releaseFrame frame collected)⟩

/-- What is given for a scalar is what its slot holds, if there is a slot. -/
theorem output_of_stores {plan : CallPlan} {values : List Value} {native : Nat}
    {turn : Nat → Heap} {arg : CallArg} {stores : List (Nat × Value)} {made ready : Bridge H}
    (hslotted : Slotted plan values frame start turn) (hmade : turn plan.args.length = made.heap)
    (hstores : Stores plan frame start made stores ready) (harg : plan.args[native]? = some arg)
    (houtput : arg.flags.output = true) (hinner : arg.descriptor = .reference inner)
    (hbasic : inner.isBasic = true) (hscalar : inner.IsScalar)
    (hlater : Respects start ready before) (hfits : before.heap.next ≤ twoPow 64)
    (h : liftOutput env frame native before = .ok output after) :
    (plan.entered? values arg inner = none → output = .null) ∧
      ∀ first, plan.entered? values arg inner = some first →
        inner.Plain ((stores.lookup native).getD first) →
        inner.represent? ((stores.lookup native).getD first) = some output := by
  obtain ⟨hnative, _⟩ := List.getElem?_eq_some_iff.1 harg
  obtain ⟨inner', passed, hpassed, hinner', hgiven⟩ := hslotted.given harg houtput
  cases hinner.symm.trans hinner'
  have hread := of_liftOutput_eq_ok hpassed hbasic h
  cases hgiven with
  | nothing hentered =>
      refine ⟨fun _ => ?_, fun first hfirst => ?_⟩
      · rcases hread with ⟨_, hnull⟩ | ⟨slot, hslot, _⟩
        · exact hnull
        · cases hslot
      · rw [hentered] at hfirst
        cases hfirst
  | @slot found hentered hopens =>
      refine ⟨fun hnone => ?_, fun first hfirst hplain => ?_⟩
      · rw [hentered] at hnone
        cases hnone
      · obtain rfl := Option.some.inj (hentered.symm.trans hfirst)
        have hready := Nat.le_trans hlater.next_le hfits
        have hroom : (turn plan.args.length).next ≤ twoPow 64 :=
          hmade ▸ Nat.le_trans (staysFrom_of_stores hslotted hstores).next_le hready
        have hslot : (Value.pointer (.ofNat (turn native).next)).nonNull? = some _ :=
          Value.nonNull?_eq_some rfl (hslotted.isNull_eq_false hnative hopens.lt hroom)
        rw [hslot] at hread
        obtain ⟨hnone, _⟩ | ⟨slot, hsame, hread⟩ := hread
        · cases hnone
        · cases hsame
          obtain ⟨early, hsound, hholds, hstays⟩ := settled_of_stores hslotted hstores hmade hready
            harg hinner hscalar hentered hopens hplain
          refine hholds.represent?_eq hplain hsound
            (hstays.trans (hlater.mono (Set.empty_subset _))) hfits ?_
            (hslotted.region_subset hnative) hread
          rw [hslotted.toNat_ofNat_next hnative hopens.lt hroom]
          exact hslotted.start_le_next (Nat.le_of_lt hnative)

end Bridge

/-- What a call gives for an output whose slot is for a scalar. -/
structure CallArg.GivesLast (arg : CallArg) (values : List Value) (stores : List (Nat × Value))
    (native : Nat) (inner : Descriptor) (output : Value) : Prop where
  /-- What has been stored last is given, if the caller has passed a value or none is called for. -/
  stored {value : Value} : stores.lookup native = some value → inner.Plain value →
    (∀ visible, arg.source = .caller visible → visible < values.length) →
    inner.represent? value = some output
  /-- If nothing has been stored, what the caller has passed comes back. -/
  passed {visible : Nat} {value : Value} : stores.lookup native = none →
    arg.source = .caller visible → values[visible]? = some value → inner.Plain value.stored →
    inner.represent? value.stored = some output
  /-- If nothing has been stored for an output that takes no value, it is zero, false or null. -/
  blank : stores.lookup native = none → arg.source = .outSlot → output = inner.blank
  /-- Where the caller has left out its value there is no slot. -/
  leftOut {visible : Nat} : arg.source = .caller visible → values[visible]? = none → output = .null

/-- By cases on whether the caller passes a value. -/
theorem CallArg.givesLast_of_entered {plan : CallPlan} {arg : CallArg} {values : List Value}
    {stores : List (Nat × Value)} {native : Nat} {inner : Descriptor} {output : Value}
    (hsource : arg.source = .outSlot ∨ ∃ visible, arg.source = .caller visible)
    (hscalar : inner.IsScalar) (hnothing : plan.entered? values arg inner = none → output = .null)
    (hheld : ∀ first, plan.entered? values arg inner = some first →
      inner.Plain ((stores.lookup native).getD first) →
      inner.represent? ((stores.lookup native).getD first) = some output) :
    arg.GivesLast values stores native inner output := by
  have hslot (hout : arg.source = .outSlot) :
      plan.entered? values arg inner = some inner.blank := by
    rw [CallPlan.entered?, hout]
  have hcaller {visible : Nat} (hpassed : arg.source = .caller visible) :
      plan.entered? values arg inner = values[visible]?.map Value.stored := by
    rw [CallPlan.entered?, hpassed]
  constructor
  case stored =>
    intro value hvalue hplain hgiven
    obtain ⟨first, hfirst⟩ : ∃ first, plan.entered? values arg inner = some first := by
      rcases hsource with hout | ⟨visible, hpassed⟩
      · exact ⟨_, hslot hout⟩
      · rw [hcaller hpassed, List.getElem?_eq_getElem (hgiven visible hpassed)]
        exact ⟨_, rfl⟩
    have hlast := hheld first hfirst
    rw [hvalue, Option.getD_some] at hlast
    exact hlast hplain
  case passed =>
    intro visible value hnone hpassed hvalue hplain
    have hlast := hheld value.stored (by rw [hcaller hpassed, hvalue, Option.map_some])
    rw [hnone, Option.getD_none] at hlast
    exact hlast hplain
  case blank =>
    intro hnone hout
    have hlast := hheld inner.blank (hslot hout)
    rw [hnone, Option.getD_none, Descriptor.represent?_blank hscalar] at hlast
    exact (Option.some.inj (hlast inner.plain_blank)).symm
  case leftOut =>
    intro visible hpassed hnone
    exact hnothing (by rw [hcaller hpassed, hnone, Option.map_none])

namespace CallPlan

open Bridge

variable {env : Env H} {fn : H.Native} {plan : CallPlan} {receiver : Option Value}
  {values : List Value} {bridge made ready last : Bridge H} {frame : Frame} {raw : Value}
  {result : CallResult} {stores : List (Nat × Value)}

/-- A call whose native function stores outputs gives, in native order, one output for each parameter
that takes a value out and serves no other one. If this is a number, a truth value or a text without
zeros, the caller gets what has been stored for it last, or what was there before. What else the native
function does leaves alone what has been made for the call, and so do functions that give references
back. Addresses are assumed to fit into 64 bits. -/
theorem gives_last_stored_of_build {builder : CallBuilder} {callable : Callable}
    {owner : Option Owner} {usage usage' : Usage}
    (hbuilt : builder.build callable owner usage = .ok plan usage')
    (hpointer : builder.pointerSize = Heap.pointerSize) (hsound : bridge.heap.Sound)
    (hfind : bridge.symbols.find plan.library plan.symbol = .ok (.host fn))
    (heffect : ∀ (fn : H.Native) (call : NativeCall),
      Within (Respects bridge.heap.next) (env.effect fn call))
    (hlower : Lowering.lower env plan receiver values ⟨bridge, {}⟩ = .ok ⟨⟩ ⟨made, frame⟩)
    (hnative : env.native fn (plan.nativeCall frame) made = .ok raw ready)
    (hstores : Stores plan frame bridge.heap.next made stores ready)
    (hinvoke : invoke env plan receiver values bridge = .ok result last)
    (hfits : last.heap.next ≤ twoPow 64) :
    result.outputs.length = plan.outputs.length ∧ plan.outputs.Pairwise (· < ·) ∧
      (∀ native, native ∈ plan.outputs ↔ ∃ index param, callable.params[index]? = some param ∧
        (param.direction = .output ∨ param.direction = .inout) ∧
        ¬ Companion.Serves builder.mapper callable index ∧ native = index + callable.offset) ∧
      ∀ (place native : Nat), plan.outputs[place]? = some native →
        ∃ (arg : CallArg) (output : Value), plan.args[native]? = some arg ∧
          (arg.source = .outSlot ∨ ∃ visible, arg.source = .caller visible) ∧
          result.outputs[place]? = some output ∧
          ∀ inner : Descriptor, arg.descriptor = .reference inner → inner.isBasic = true →
            arg.GivesLast values stores native inner output := by
  obtain ⟨_, _, _, h⟩ := CallBuilder.exists_built_of_build hbuilt
  have hcloses := closes_respects heffect
  obtain ⟨given, henter⟩ := enter_eq_ok_of_native_eq_ok hlower hfind hnative
  obtain ⟨hlength, hsteps⟩ := steps_of_outputs hcloses (enterPlan_eq_ok hlower henter) hinvoke
  obtain ⟨turn, hslotted, hmade⟩ := exists_slotted_of_lower_eq_ok h hsound hlower
  -- a value that is nothing to the caller is given up before outputs are looked at
  have hreturned : ReflTransGen (Respects bridge.heap.next) ready
      (if plan.returns.isNull then ready.drop env [raw] else ready) := by
    split
    next => exact hcloses.dropAll [raw] ready
    next => exact .refl
  refine ⟨hlength, plan.pairwise_outputs, fun native => h.mem_outputs_iff,
    fun place native hplace => ?_⟩
  obtain ⟨arg, harg, hresult⟩ := CallPlan.mem_outputs_iff.1 (List.mem_of_getElem? hplace)
  obtain ⟨houtput, hsource⟩ := Bool.and_eq_true_iff.1 hresult
  have hlong : place < result.outputs.length :=
    hlength ▸ (List.getElem?_eq_some_iff.1 hplace).1
  have hgets : arg.source = .outSlot ∨ ∃ visible, arg.source = .caller visible := by
    cases hcase : arg.source with
    | outSlot => exact .inl rfl
    | caller visible => exact .inr ⟨visible, rfl⟩
    | _ =>
        rw [hcase] at hsource
        cases hsource
  refine ⟨arg, result.outputs[place], harg, hgets, List.getElem?_eq_getElem hlong, ?_⟩
  intro inner hinner hbasic
  -- outputs are lifted one after the other, so other outputs may come before this one and behind it
  have hscalar := h.isScalar hpointer harg (fun hreceiver => by
    rw [hreceiver] at hsource
    cases hsource) hinner hbasic
  obtain ⟨before, after, hbefore, hlift, hafter⟩ :=
    hsteps place native _ hplace (List.getElem?_eq_getElem hlong)
  have hlater := respects_of_run (hreturned.trans hbefore)
  have hrest := respects_of_run (((hcloses.within_liftOutput frame native).of_eq_ok hlift).trans
    hafter)
  obtain ⟨hnothing, hheld⟩ := output_of_stores hslotted hmade hstores harg houtput hinner hbasic
    hscalar hlater (Nat.le_trans hrest.next_le hfits) hlift
  exact CallArg.givesLast_of_entered hgets hscalar hnothing hheld

/-! ## A survey -/

/-- A native function that thinks again about its first output, and sets a length that the caller does
not see. -/
def surveyed (call : NativeCall) : Native greeter Value := do
  call.setOut 0 (.int 3)
  call.setOut 4 (.uint 0)
  call.setOut 5 (.int 1)
  call.setOut 0 (.int 5)
  return .null

def surveyEnv : Env greeter where
  compiler := greeterEnv.compiler
  native _ call := surveyed call
  effect _ _ := return ⟨⟩
  managed := nofun

/-- A function with a number, two texts, an array and a truth value, which may fail. -/
def survey : Callable where
  name := "survey"
  symbol := "n_greet"
  params := [
    { name := "count", type := .named "gint", direction := .output },
    { name := "name", type := .named "utf8", direction := .inout },
    { name := "note", type := .named "utf8", direction := .output },
    { name := "marks", type := (TypeRef.named "gint").arrayOf (.counted 4), direction := .output },
    { name := "length", type := .named "guint", direction := .output },
    { name := "agreed", type := .named "gboolean", direction := .inout }]
  throws := true

def surveyPlan : CallPlan :=
  (value? ((greeterEnv.compiler.builder welcome).build survey none {})).getD default

def surveyValues : List Value := [.string "north", .bool false]

/-- The state in which the arguments are made. -/
def surveying : Calling greeter := lowered surveyEnv surveyPlan none surveyValues greeterBridge

/-- What the call comes to. -/
def answered : EStateM.Result BindError (Bridge greeter) CallResult :=
  invoke surveyEnv surveyPlan none surveyValues greeterBridge

/-- The native function stores four times, the first output twice. -/
theorem stores_of_surveyed {raw : Value} {ready : Bridge greeter}
    (h : surveyed (surveyPlan.nativeCall surveying.frame) surveying.bridge = .ok raw ready) :
    Stores surveyPlan surveying.frame greeterBridge.heap.next surveying.bridge
      [(0, .int 5), (5, .int 1), (4, .uint 0), (0, .int 3)] ready := by
  have hwritten (native : Nat)
      (h : surveyPlan.args[native]?.map (·.flags.output) = some true) :
      ∃ arg, surveyPlan.args[native]? = some arg ∧ arg.flags.output = true :=
    Option.map_eq_some_iff.1 h
  obtain ⟨count, hcount, hcountOut⟩ := hwritten 0 (by decide +kernel)
  obtain ⟨length, hlength, hlengthOut⟩ := hwritten 4 (by decide +kernel)
  obtain ⟨agreed, hagreed, hagreedOut⟩ := hwritten 5 (by decide +kernel)
  obtain ⟨_, _, hfirst, hrest⟩ := of_bind_eq_ok h
  obtain ⟨_, _, hsecond, hrest⟩ := of_bind_eq_ok hrest
  obtain ⟨_, _, hthird, hrest⟩ := of_bind_eq_ok hrest
  obtain ⟨_, _, hfourth, hrest⟩ := of_bind_eq_ok hrest
  cases hrest
  exact (((Stores.none.set hcount hcountOut hfirst).set hlength hlengthOut hsecond).set
    hagreed hagreedOut hthird).set hcount hcountOut hfourth

/-- The second number counts, the name comes back as it was, and there is no note. The length is not
among the outputs, so the truth value comes behind the array. -/
theorem survey_answered : ∃ usage result last,
    (greeterEnv.compiler.builder welcome).build survey none {} = .ok surveyPlan usage ∧
      surveyPlan.outputs = [0, 1, 2, 3, 5] ∧
      invoke surveyEnv surveyPlan none surveyValues greeterBridge = .ok result last ∧
      result.outputs.length = 5 ∧ result.outputs[0]? = some (.int 5) ∧
      result.outputs[1]? = some (.string "north") ∧ result.outputs[2]? = some .null ∧
      result.outputs[4]? = some (.bool true) := by
  obtain ⟨usage, hbuilt⟩ : ∃ usage, (greeterEnv.compiler.builder welcome).build survey none {} =
      .ok surveyPlan usage := ⟨_, eq_ok_of_isSome default (by decide +kernel)⟩
  have hlower : Lowering.lower surveyEnv surveyPlan none surveyValues ⟨greeterBridge, {}⟩ =
      .ok ⟨⟩ ⟨surveying.bridge, surveying.frame⟩ := lower_eq_ok_of_isSome (by decide +kernel)
  have hoffered : (value? (surveyed (surveyPlan.nativeCall surveying.frame)
      surveying.bridge)).isSome = true := by decide +kernel
  obtain ⟨raw, ready, hnative⟩ : ∃ raw ready, surveyed (surveyPlan.nativeCall surveying.frame)
      surveying.bridge = .ok raw ready := ⟨_, _, eq_ok_of_isSome default hoffered⟩
  have hinvoked : (value? answered).isSome = true := by decide +kernel
  have hroom : (ending answered).heap.next ≤ twoPow 64 := by decide +kernel
  obtain ⟨result, last, hinvoke, hfits⟩ : ∃ result last, answered = .ok result last ∧
      last.heap.next ≤ twoPow 64 := ⟨_, _, eq_ok_of_isSome default hinvoked, hroom⟩
  have hstores := stores_of_surveyed hnative
  have hpointer : (greeterEnv.compiler.builder welcome).pointerSize = Heap.pointerSize := by
    decide +kernel
  have hfind : greeterBridge.symbols.find surveyPlan.library surveyPlan.symbol =
      .ok (.host ()) := rfl
  obtain ⟨houtputs, _, _, hentries⟩ := gives_last_stored_of_build hbuilt hpointer
    attained_greeterBridge.spaced.sound hfind (fun _ _ => within_pure _) hlower hnative hstores
    hinvoke hfits
  have hplaces : surveyPlan.outputs = [0, 1, 2, 3, 5] := by decide +kernel
  -- what is given for an output whose source and type are known
  have hentry (place native : Nat) (source : ArgSource) (inner : Descriptor)
      (hplace : [0, 1, 2, 3, 5][place]? = some native)
      (hshape : surveyPlan.args[native]?.map (fun arg => (arg.source, arg.descriptor)) =
        some (source, .reference inner)) (hbasic : inner.isBasic = true) :
      ∃ (arg : CallArg) (output : Value), arg.source = source ∧
        result.outputs[place]? = some output ∧
        arg.GivesLast surveyValues [(0, .int 5), (5, .int 1), (4, .uint 0), (0, .int 3)] native
          inner output := by
    obtain ⟨arg, output, harg, _, houtput, hgives⟩ := hentries place native (hplaces ▸ hplace)
    rw [harg, Option.map_some, Option.some.injEq, Prod.mk.injEq] at hshape
    exact ⟨arg, output, hshape.1, houtput, hgives inner hshape.2 hbasic⟩
  refine ⟨usage, result, last, hbuilt, hplaces, hinvoke, by rw [houtputs, hplaces]; rfl, ?_, ?_, ?_,
    ?_⟩
  -- the count was stored twice, and the last number is given
  · obtain ⟨arg, output, hsource, houtput, hgives⟩ :=
      hentry 0 0 .outSlot (.primitive .int32 4) rfl rfl rfl
    have hlast := hgives.stored rfl trivial fun visible hpassed => by
      rw [hsource] at hpassed
      cases hpassed
    exact houtput.trans (congrArg some (Option.some.inj hlast).symm)
  -- nothing was stored for the texts: one was passed by the caller, and the other was not
  · obtain ⟨arg, output, hsource, houtput, hgives⟩ :=
      hentry 1 1 (.caller 0) (.string .none) rfl rfl rfl
    have hlast := hgives.passed rfl hsource rfl (show '\x00' ∉ "north".toList by decide)
    exact houtput.trans (congrArg some (Option.some.inj hlast).symm)
  · obtain ⟨arg, output, hsource, houtput, hgives⟩ :=
      hentry 2 2 .outSlot (.string .none) rfl rfl rfl
    exact houtput.trans (congrArg some (hgives.blank rfl hsource))
  -- the truth value that was passed has been stored over
  · obtain ⟨arg, output, hsource, houtput, hgives⟩ :=
      hentry 4 5 (.caller 1) (.primitive .bool 4) rfl rfl rfl
    have hlast := hgives.stored rfl trivial fun visible hpassed => by
      cases hsource.symm.trans hpassed
      decide
    exact houtput.trans (congrArg some (Option.some.inj hlast).symm)

end CallPlan

end Interop
