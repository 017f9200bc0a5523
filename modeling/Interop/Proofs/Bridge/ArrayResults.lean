import Interop.Proofs.Bridge.Lengths
import Interop.Proofs.Bridge.Releases

/-! # Arrays that native code returns

Native code lays out the items of an array in a block that it makes for them. The caller gets the
items in order, whether their number is fixed, stands in a slot that the caller does not see, or is
told by a zero behind them. A block that is given away is freed when it has been read.
-/

namespace Interop

open Schema Relation Steps

variable {H : Host}

namespace Bridge

variable {env : Env H} {bridge before made after returned : Bridge H} {base handle : Handle}
  {element : Descriptor} {ownership : Ownership} {length : ArrayLength} {kind : ArrayKind}
  {stride index : Nat} {items : List Value} {raw value : Value} {call : NativeCall}

/-! ## Laying out -/

/-- By induction over the items. -/
theorem fill_of_writeItems_eq_ok {u : Unit}
    (h : (items.zipIdx index).forM (fun entry : Value × Nat =>
      write base element (entry.2 * stride) entry.1) bridge = .ok u after) :
    Heap.Fill base element stride index items bridge.heap after.heap := by
  induction items generalizing index bridge with
  | nil =>
      cases h
      exact .nil _ _
  | cons item rest ih =>
      rw [List.zipIdx_cons, List.forM] at h
      obtain ⟨_, written, hwrite, hrest⟩ := of_bind_eq_ok h
      exact .cons (of_onHeap_eq_ok hwrite) (ih hrest)

/-- An array that native code makes is a block of its own with the items in it. -/
theorem of_returnArray_eq_ok (hreturns : call.returns = .array element ownership length kind stride)
    (h : call.returnArray items before = .ok raw made) :
    raw = .pointer (.ofNat before.heap.next) ∧
      Heap.Fill (.ofNat before.heap.next) element stride 0 items
        (before.heap.alloc (arrayBytes items.length stride length) none).2 made.heap := by
  rw [NativeCall.returnArray, hreturns] at h
  obtain ⟨base, room, halloc, h⟩ := of_bind_eq_ok h
  obtain ⟨_, filled, hitems, hlast⟩ := of_bind_eq_ok h
  cases hlast
  obtain ⟨rfl, rfl⟩ := of_alloc_eq_ok halloc
  exact ⟨rfl, fill_of_writeItems_eq_ok hitems⟩

theorem lays_of_returnArray_eq_ok (hsound : before.heap.Sound) (hfits : made.heap.next ≤ twoPow 64)
    (hreturns : call.returns = .array element ownership length kind stride)
    (hscalar : element.IsScalar) (hstride : element.slotSize Heap.pointerSize ≤ stride)
    (hzero : ∀ ownership text, element = .string ownership → .string text ∈ items →
      '\x00' ∉ text.toList) (h : call.returnArray items before = .ok raw made) :
    ∃ base, raw = .pointer base ∧ base.toNat = before.heap.next ∧
      made.heap.Lays base element stride (length.slots items.length) items := by
  obtain ⟨rfl, hfill⟩ := of_returnArray_eq_ok hreturns h
  have hroom : before.heap.next < made.heap.next :=
    Nat.lt_of_lt_of_le (Nat.lt_of_le_of_lt (Nat.le_add_right _ _) (Heap.lt_next_alloc _ _ _))
      (hfill.framed hstride).next_le
  refine ⟨_, rfl, Handle.toNat_ofNat_of_lt (Nat.lt_of_lt_of_le hroom hfits),
    Heap.lays_of_fill hsound hfits hscalar hstride ?_ hzero hfill⟩
  rw [ArrayLength.slots]
  split <;> omega

/-- An array that native code makes is new: nothing that was there before is touched. -/
theorem touches_of_returnArray_eq_ok
    (hreturns : call.returns = .array element ownership length kind stride)
    (hstride : element.slotSize Heap.pointerSize ≤ stride)
    (h : call.returnArray items before = .ok raw made) : before.Touches ∅ made := by
  obtain ⟨_, hfill⟩ := of_returnArray_eq_ok hreturns h
  refine (Heap.framed_alloc _ _ _).of_fresh
    (Nat.lt_of_le_of_lt (Nat.le_add_right _ _) (Heap.lt_next_alloc _ _ _))
    ((hfill.framed hstride).mono fun addr haddr _ => ?_)
  exact Nat.le_trans (Nat.le_add_right _ _) (Set.mem_Ico.1 haddr).1

/-- What native code returns is an array that it has made of the items. Since then it has left the
blocks alone that were new with it. -/
def ReturnsArray (call : NativeCall) (items : List Value) (raw : Value) (returned : Bridge H) :
    Prop :=
  ∃ before made : Bridge H, before.heap.Sound ∧ call.returnArray items before = .ok raw made ∧
    made.heap.next ≤ returned.heap.next ∧ made.heap.KeepsFrom before.heap.next ∅ returned.heap

theorem ReturnsArray.exists_lays (h : ReturnsArray call items raw returned)
    (hsound : returned.heap.Sound) (hfits : returned.heap.next ≤ twoPow 64)
    (hreturns : call.returns = .array element ownership length kind stride)
    (hscalar : element.IsScalar) (hstride : element.slotSize Heap.pointerSize ≤ stride)
    (hlegible : ∀ item ∈ items, returned.heap.Legible element item) :
    ∃ base, raw = .pointer base ∧
      returned.heap.Lays base element stride (length.slots items.length) items := by
  obtain ⟨before, made, hbefore, hmake, hgrown, hkept⟩ := h
  have hzero : ∀ ownership text, element = .string ownership → .string text ∈ items →
      '\x00' ∉ text.toList := by
    rintro ownership text rfl hmem
    exact hlegible _ hmem
  obtain ⟨base, rfl, hbase, hlays⟩ := lays_of_returnArray_eq_ok hbefore
    (Nat.le_trans hgrown hfits) hreturns hscalar hstride hzero hmake
  exact ⟨base, rfl, hlays.of_keepsFrom (hbase.symm ▸ hkept) hsound⟩

/-! ## Reading -/

/-- If every step gives something and leaves the bridge alone, so does doing all of them. By
induction over the items. -/
theorem exists_gather_eq {R : Value → Value → Prop} (step : Nat → Run H Value) (seen : List Value)
    (h : ∀ (place : Nat) (item : Value), items[place]? = some item →
      ∃ found, R item found ∧ step (index + place) bridge = .ok found bridge) :
    ∃ found, List.Forall₂ R items found ∧
      gather step seen index items.length bridge = ((seen.reverse ++ found, none), bridge) := by
  induction items generalizing index seen with
  | nil =>
      refine ⟨[], .nil, ?_⟩
      rw [List.append_nil]
      rfl
  | cons item rest ih =>
      obtain ⟨found, hfound, hstep⟩ := h 0 item rfl
      have hbehind : ∀ (place : Nat) (item : Value), rest[place]? = some item →
          ∃ found, R item found ∧ step (index + 1 + place) bridge = .ok found bridge := by
        intro place item hitem
        have hplace : index + 1 + place = index + (place + 1) := by omega
        rw [hplace]
        exact h (place + 1) item hitem
      obtain ⟨others, hothers, hrest⟩ := ih (found :: seen) hbehind
      refine ⟨found :: others, .cons hfound hothers, ?_⟩
      have hfirst : step index bridge = .ok found bridge := hstep
      rw [List.length_cons, gather, hfirst]
      dsimp only
      rw [hrest, List.reverse_cons, List.append_assoc, List.singleton_append]

/-- What a scalar is read as keeps nothing alive. -/
theorem shares_represented {heap : Heap} {item found : Value}
    (h : heap.represent? element item = some (.ok found)) : found.shares = [] := by
  cases element with
  | primitive kind size =>
      obtain ⟨read, hread, hfound⟩ := Option.map_eq_some_iff.1 h
      cases hfound
      cases kind with
      | void =>
          cases hread
          rfl
      | pointer =>
          obtain ⟨handle, _, rfl⟩ := Option.map_eq_some_iff.1 hread
          split <;> rfl
      | _ =>
          obtain ⟨view, _, rfl⟩ := Option.map_eq_some_iff.1 hread
          rfl
  | string ownership =>
      rcases Heap.represent?_string_cases h with ⟨_, _, rfl⟩ |
        ⟨_, _, ⟨_, rfl⟩ | ⟨_, _, rfl⟩⟩ <;> rfl
  | _ => cases h

/-- A value that keeps nothing alive is handed on as it is. -/
theorem lift_basic (args : Array NativeArg) (hbasic : element.isBasic = true)
    (hshares : value.shares = []) : lift env args element value bridge = .ok value bridge := by
  have hkeep : (keep value : Run H Value) bridge = .ok value (retain value bridge) := rfl
  have hsame : retain value bridge = bridge := by
    rw [retain, hshares]
    rfl
  cases element with
  | primitive | string =>
      rw [lift, hkeep, hsame]
  | _ => cases hbasic

/-- The caller gets each item of an array as values like it are read. -/
theorem exists_lift_array_eq_ok {args : Array NativeArg} {slots : Nat}
    (hsound : bridge.heap.Sound) (hbasic : element.isBasic = true)
    (hlays : bridge.heap.Lays base element stride slots items)
    (hlegible : ∀ item ∈ items, bridge.heap.Legible element item)
    (hcount : elementCount args base element stride length bridge = .ok items.length bridge) :
    ∃ found,
      List.Forall₂ (fun item value => bridge.heap.represent? element item = some (.ok value))
        items found ∧
      lift env args (.array element ownership length kind stride) (.pointer base) bridge =
        .ok (.array found) (bridge.spent env ownership base) := by
  have hbase : (Value.pointer base).nonNull? = some base :=
    Value.nonNull?_eq_some rfl (hlays.isNull hsound)
  let step (index : Nat) : Run H Value := do
    lift env args element (← inCall (read base element (index * stride)))
  have hstep : ∀ (place : Nat) (item : Value), items[place]? = some item → ∃ found,
      bridge.heap.represent? element item = some (.ok found) ∧
        step (0 + place) bridge = .ok found bridge := by
    intro place item hitem
    obtain ⟨found, hfound, hread⟩ :=
      hlays.exists_read hsound hitem (hlegible item (List.mem_of_getElem? hitem))
    have hfirst : inCall (read base element ((0 + place) * stride)) bridge = .ok found bridge := by
      rw [inCall, read_eq, Nat.zero_add, hread]
      rfl
    exact ⟨found, hfound, (bind_eq_of_eq_ok hfirst).trans
      (lift_basic args hbasic (shares_represented hfound))⟩
  obtain ⟨found, hfound, hgather⟩ := exists_gather_eq step [] hstep
  refine ⟨found, hfound, ?_⟩
  have hcollect : collect env step items.length bridge = .ok found bridge := by
    rw [collect, hgather]
    rfl
  rw [lift, hbase]
  refine (bind_eq_of_eq_ok hcount).trans ?_
  cases element with
  | primitive | string =>
      refine (bind_eq_of_eq_ok hcollect).trans ?_
      unfold spent
      split <;> rfl
  | _ => cases hbasic

/-! ## The end of the call -/

variable {R : Bridge H → Bridge H → Prop} {plan : CallPlan} {receiver : Option Value}
  {values : List Value} {frame : Frame}

/-- The outputs of a call, in native order. -/
def liftOutputs (env : Env H) (plan : CallPlan) (frame : Frame) : Run H (List Value) :=
  collect env (fun i => liftOutput env frame (plan.outputs.getD i 0)) plan.outputs.length

/-- What a call comes to when its value has been lifted. It fails if its outputs cannot be. -/
def finished (env : Env H) (plan : CallPlan) (frame : Frame) (value : Value) (bridge : Bridge H) :
    EStateM.Result BindError (Bridge H) CallResult :=
  match liftOutputs env plan frame bridge with
  | .ok outputs last => .ok ⟨value, outputs⟩ (last.releaseFrame env frame)
  | .error error last => .error error ((last.drop env [value]).releaseFrame env frame)

theorem Governs.runs_finished (h : Governs env R) (plan : CallPlan) (frame : Frame) (value : Value)
    (bridge : Bridge H) :
    ReflTransGen R bridge (ending (finished env plan frame value bridge)) := by
  have hrun := h.serves.within_collect (fun i =>
    h.serves.within_liftOutput frame (plan.outputs.getD i 0)) plan.outputs.length bridge
  unfold finished
  change ReflTransGen R bridge (ending (liftOutputs env plan frame bridge)) at hrun
  cases houtputs : liftOutputs env plan frame bridge with
  | ok outputs last =>
      rw [houtputs] at hrun
      exact hrun.trans (h.closes.releaseFrame frame last)
  | error error last =>
      rw [houtputs] at hrun
      exact hrun.trans ((h.serves.dropAll [value] last).trans (h.closes.releaseFrame frame _))

/-- A call whose native function reports no error gives what is lifted, if its outputs can be. -/
theorem complete_eq_of_lift (hsilent : pendingError env plan frame bridge = .ok none bridge)
    (hlift : lift env frame.args plan.returns raw bridge = .ok value after)
    (hraw : raw.shares = []) :
    complete env plan frame raw bridge =
      match liftOutputs env plan frame after with
      | .ok outputs last => .ok ⟨value, outputs⟩ last
      | .error error last => .error error (last.drop env [value]) := by
  have hpending : orDrop env [raw] (inCall (pendingError env plan frame)) bridge =
      .ok none bridge := by
    unfold orDrop inCall
    rw [hsilent]
  have hdrop : after.drop env [raw] = after :=
    drop_eq_of_sharesOf_eq_nil (by rw [Value.sharesOf, hraw]; rfl)
  have hlifted : thenDrop env [raw] (lift env frame.args plan.returns raw) bridge =
      .ok value after := by
    unfold thenDrop
    rw [hlift]
    exact congrArg (EStateM.Result.ok value) hdrop
  refine (bind_eq_of_eq_ok hpending).trans ((bind_eq_of_eq_ok hlifted).trans ?_)
  cases houtputs : liftOutputs env plan frame after with
  | ok outputs last =>
      have hkept : orDrop env [value] (liftOutputs env plan frame) after = .ok outputs last := by
        unfold orDrop
        rw [houtputs]
      exact bind_eq_of_eq_ok hkept
  | error error last =>
      have hdropped : orDrop env [value] (liftOutputs env plan frame) after =
          .error error (last.drop env [value]) := by
        unfold orDrop
        rw [houtputs]
      exact bind_eq_of_eq_error hdropped

/-- An array that is given away is freed when it has been read. -/
theorem free_spent (hsound : bridge.heap.Sound) {slots : Nat}
    (hlays : bridge.heap.Lays base element stride slots items) :
    (bridge.spent env .full base).heap.Free base.toNat := by
  obtain ⟨block, hlocate, hbase, hrefs⟩ := hlays.starts
  refine free_release fun other hother hsame => ?_
  obtain rfl := hsound.eq_of_base_eq (Heap.of_locate?_eq_some hlocate).1 hother
    (hbase.trans hsame.symm)
  exact UInt32.le_of_eq hrefs

end Bridge

namespace CallBuilder.Built

variable {builder : CallBuilder} {callable : Callable} {owner : Option Owner}
  {described : List Descriptor} {returned element : Descriptor} {args : List CallArg}
  {plan : CallPlan} {ownership : Ownership} {length : ArrayLength} {kind : ArrayKind} {stride : Nat}
  (h : Built builder callable owner described returned args plan)
  (hreturns : plan.returns = .array element ownership length kind stride)
include h hreturns

theorem renders_returned_array : ∃ source,
    Renders builder.mapper.platform builder.pointerSize source
      (.array element ownership length kind stride) := by
  obtain ⟨_, _, hmap⟩ := h.returns
  rw [h.returns_eq] at hreturns
  exact ⟨_, _, _, Mapper.represents_of_map hmap, .inr ⟨_, hreturns.symm⟩⟩

/-- An array that is returned steps from item to item by the size of an item. -/
theorem of_returned_array : stride = element.slotSize builder.pointerSize ∧ ∃ source,
    Represents builder.mapper.platform builder.pointerSize .element source element := by
  obtain ⟨_, hrenders⟩ := h.renders_returned_array hreturns
  obtain ⟨_, _, hrepresents⟩ := hrenders.exists_array
  exact hrepresents.of_array

end CallBuilder.Built

namespace CallPlan

open Bridge

variable {env : Env H} {plan : CallPlan} {receiver : Option Value} {values items : List Value}
  {bridge returned : Bridge H} {frame : Frame} {raw : Value}

/-- A call whose native function returns an array that it has made of numbers, truth values or texts
gives the items, in order and each as values like it are read, if it is told how many there are, no
error is reported and the outputs that stand beside the array can be lifted; if one of these cannot,
the call fails with its error. Either way the block of an array that is given away is gone when the
call has ended. -/
theorem gives_array_of_build {builder : CallBuilder} {callable : Callable} {owner : Option Owner}
    {usage usage' : Usage} (hgoverns : Governs env (Change env)) (hattained : Attained env bridge)
    (hbuilt : builder.build callable owner usage = .ok plan usage')
    (hpointer : builder.pointerSize = Heap.pointerSize)
    {element : Descriptor} {ownership : Ownership} {length : ArrayLength} {kind : ArrayKind}
    {stride : Nat} (hreturns : plan.returns = .array element ownership length kind stride)
    (hbasic : element.isBasic = true)
    (harity : checkArity plan.name plan.params values bridge = .ok ⟨⟩ bridge)
    (hentered : enterPlan env plan receiver values ⟨bridge, {}⟩ = .ok raw ⟨returned, frame⟩)
    (hfits : returned.heap.next ≤ twoPow 64)
    (harray : ReturnsArray (plan.nativeCall frame) items raw returned)
    (hsilent : pendingError env plan frame returned = .ok none returned)
    (hlegible : ∀ item ∈ items, returned.heap.Legible element item)
    (hlength : Announces plan frame element items returned length) :
    ∃ base found, raw = .pointer base ∧
      List.Forall₂ (fun item value =>
        returned.heap.represent? element item = some (.ok value)) items found ∧
      (∀ outputs last,
        liftOutputs env plan frame (returned.spent env ownership base) = .ok outputs last →
        invoke env plan receiver values bridge =
          .ok ⟨.array found, outputs⟩ (last.releaseFrame env frame)) ∧
      (∀ error last,
        liftOutputs env plan frame (returned.spent env ownership base) = .error error last →
        invoke env plan receiver values bridge =
          .error error ((last.drop env [.array found]).releaseFrame env frame)) ∧
      (ownership = .full →
        (ending (invoke env plan receiver values bridge)).heap.Free base.toNat) := by
  obtain ⟨described, result, args, h⟩ := CallBuilder.exists_built_of_build hbuilt
  obtain ⟨hstride, source, helement⟩ := h.of_returned_array hreturns
  rw [hpointer] at hstride helement
  have hscalar := helement.isScalar hbasic
  obtain ⟨made, hlower, henter⟩ := of_enterPlan_eq_ok hentered
  have hrun := (hgoverns.within_enter _ _).of_eq_ok henter
  have hreached := hattained.trans (hgoverns.run_of_enterPlan_eq_ok hentered)
  have hsound := hreached.spaced.sound
  obtain ⟨base, rfl, hlays⟩ := harray.exists_lays hsound hfits hreturns hscalar
    (Nat.le_of_eq hstride.symm) hlegible
  have hgrown := Heap.next_le_of_reflTransGen (heap_of_changes hrun)
  -- the array is read before anything is given up
  have hcount := hlength.elementCount_eq_ok h hpointer hattained.spaced.sound hlower
    (Nat.le_trans hgrown hfits) hsound hlays hscalar hstride hlegible
  obtain ⟨found, hfound, hlift⟩ := exists_lift_array_eq_ok hsound hbasic hlays hlegible hcount
  rw [← hreturns] at hlift
  have hinvoke : invoke env plan receiver values bridge =
      finished env plan frame (.array found) (returned.spent env ownership base) := by
    rw [invoke_eq_of_accepted harity, hentered]
    dsimp only
    rw [complete_eq_of_lift hsilent hlift rfl, finished]
    cases liftOutputs env plan frame (returned.spent env ownership base) <;> rfl
  refine ⟨base, found, rfl, hfound, fun outputs last houtputs => ?_, fun error last houtputs => ?_,
    ?_⟩
  · rw [hinvoke, finished, houtputs]
  · rw [hinvoke, finished, houtputs]
  rintro rfl
  rw [hinvoke]
  -- its block is released at once, and whatever happens later its address is not used again
  have hspent := hgoverns.serves.within_spent .full base returned
  have hlast := hgoverns.runs_finished plan frame (.array found) (returned.spent env .full base)
  obtain ⟨block, hlocate, _⟩ := hlays.starts
  have hbound := Nat.lt_of_lt_of_le (hsound.lt_next hlocate)
    (Heap.next_le_of_reflTransGen (heap_of_changes hspent))
  exact (free_spent hsound hlays).of_run (hreached.trans hspent).spaced (heap_of_changes hlast)
    hbound

/-- A method that gives numbers and, behind the instance, how many there are and what the ground is
like. -/
def soundings : Callable where
  name := "soundings"
  symbol := "n_watcher_soundings"
  kind := .method
  params := [
    { name := "found", type := .named "guint", direction := .output },
    { name := "ground", type := .named "utf8", direction := .output }]
  returns := ((TypeRef.named "gint16").arrayOf (.counted 0)).withTransfer .full

def soundingsPlan : CallPlan :=
  (value? (watching.build soundings (watching.ownerOf? "N.Watcher") {})).getD default

/-- A program whose native function sets the two outputs and returns an array of two. -/
def soundingsEnv (ground : Value) : Env greeter where
  compiler := ⟨watching.mapper.platform, watching.mapper.options⟩
  native _ call := do
    call.setOut 2 ground
    call.setOut 1 (.uint 2)
    call.returnArray [.int (-7), .bool true]
  effect _ _ := return ⟨⟩
  managed := nofun

theorem governs_soundingsEnv (ground : Value) :
    Governs (soundingsEnv ground) (Change (soundingsEnv ground)) :=
  { permits_change (soundingsEnv ground) with
    native := fun _ call => by
      have hworks := (permits_change (soundingsEnv ground)).works
      exact (hworks.within_setOut call 2 _).bind fun _ => (hworks.within_setOut call 1 _).bind
        fun _ => hworks.within_returnArray call _
    effect := fun _ _ => within_pure _
    managed := nofun }

def soundingsBridge : Bridge greeter :=
  let bridge : Bridge greeter := start ()
  { bridge with symbols := bridge.symbols.define "libn.so" "n_watcher_soundings" (.host ()) }

theorem attained_soundingsBridge (ground : Value) :
    Attained (soundingsEnv ground) soundingsBridge :=
  ⟨(), .single (.other rfl rfl rfl)⟩

/-- What comes back from the native function. -/
def sounded (ground : Value) : EStateM.Result BindError (Calling greeter) Value :=
  enterPlan (soundingsEnv ground) soundingsPlan (some (.pointer (.ofNat 8))) []
    ⟨soundingsBridge, {}⟩

section

variable {ground : Value} {returned : Bridge greeter}
  (h : sounded ground = .ok raw ⟨returned, frame⟩)
include h

/-- The native function sets the number last. -/
theorem of_sounded_eq_ok : ∃ made set : Bridge greeter,
    Attained (soundingsEnv ground) made ∧ Attained (soundingsEnv ground) set ∧
      (soundingsPlan.nativeCall frame).setOut 1 (.uint 2) made = .ok ⟨⟩ set ∧
      (soundingsPlan.nativeCall frame).returnArray [.int (-7), .bool true] set =
        .ok raw returned := by
  obtain ⟨made, hlower, henter⟩ := of_enterPlan_eq_ok h
  have hmade : Attained (soundingsEnv ground) made := (attained_soundingsBridge ground).trans
    (Lowering.run_of_lower_eq_ok (permits_change _) hlower)
  obtain ⟨fn, hfind, hrun⟩ := of_enter_eq_ok rfl henter
  rw [Lowering.symbols_of_lower_eq_ok hlower] at hfind
  have hhost : soundingsBridge.symbols.find soundingsPlan.library soundingsPlan.symbol =
      .ok (.host ()) := rfl
  obtain rfl : fn = .host () := Except.ok.inj (hfind.symm.trans hhost)
  obtain ⟨_, named, hground, hrun⟩ := of_bind_eq_ok hrun
  obtain ⟨_, set, hset, harray⟩ := of_bind_eq_ok hrun
  have hworks := (permits_change (soundingsEnv ground)).works
  have hnamed := hmade.trans ((hworks.within_setOut _ _ _).of_eq_ok hground)
  exact ⟨named, set, hnamed, hnamed.trans ((hworks.within_setOut _ _ _).of_eq_ok hset), hset,
    harray⟩

/-- What has come back is an array of two, and that there are two has been told. -/
theorem announces_of_sounded (hfits : returned.heap.next ≤ twoPow 64) :
    ReturnsArray (soundingsPlan.nativeCall frame) [.int (-7), .bool true] raw returned ∧
      Announces soundingsPlan frame (.primitive .int16 2) [.int (-7), .bool true] returned
        (.param 1) := by
  obtain ⟨made, set, hmade, hset, hnumber, harray⟩ := of_sounded_eq_ok h
  have hreturns : soundingsPlan.returns = .array (.primitive .int16 2) .full (.param 1) .c 2 := rfl
  have htouches := touches_of_returnArray_eq_ok hreturns (Nat.le_refl 2) harray
  have hsound := hset.spaced.sound
  refine ⟨⟨set, returned, hsound, harray, Nat.le_refl _, fun block hblock _ =>
    ⟨block, hblock, .refl _ _⟩⟩, .param rfl rfl rfl hmade.spaced.sound hnumber rfl ?_⟩
  intro slot bytes _ hbytes
  exact (htouches.keeps hsound hfits).bytes_eq (htouches.sound hsound) hbytes fun _ _ =>
    Set.notMem_empty _

end

/-- A truth value is read as a number from an array of numbers. -/
theorem soundings_read {heap : Heap} {found : List Value}
    (h : List.Forall₂ (fun item value => heap.represent? (.primitive .int16 2) item =
      some (.ok value)) [.int (-7), .bool true] found) : found = [.int (-7), .int 1] := by
  cases h with
  | cons hfirst hrest =>
      cases hrest with
      | cons hsecond hrest =>
          cases hfirst
          cases hsecond
          cases hrest
          rfl

/-- What stands beside the array that has been freed. -/
def beside (ground : Value) (base : Handle) : Option (List Value) :=
  match sounded ground with
  | .ok _ ⟨returned, frame⟩ =>
    value? (liftOutputs (soundingsEnv ground) soundingsPlan frame
      (returned.spent (soundingsEnv ground) .full base))
  | .error .. => none

theorem eq_string_of_map_asString? {outputs : List Value} {text : String}
    (h : outputs.map Value.asString? = [some text]) : outputs = [.string text] := by
  obtain ⟨value, rfl, hvalue⟩ := List.map_eq_singleton_iff.1 h
  cases value with
  | string found =>
      cases hvalue
      rfl
  | _ => cases hvalue

theorem exists_build_soundingsPlan : ∃ usage,
    watching.build soundings (watching.ownerOf? "N.Watcher") {} = .ok soundingsPlan usage :=
  ⟨_, eq_ok_of_isSome default (by decide +kernel)⟩

/-- The two numbers come back, together with the ground, and their block is gone. -/
theorem soundings_given : ∃ usage last,
    watching.build soundings (watching.ownerOf? "N.Watcher") {} = .ok soundingsPlan usage ∧
      (value? (sounded (.string "sand"))).bind Value.nonNull? = some (.ofNat 4192) ∧
      invoke (soundingsEnv (.string "sand")) soundingsPlan (some (.pointer (.ofNat 8))) []
        soundingsBridge = .ok ⟨.array [.int (-7), .int 1], [.string "sand"]⟩ last ∧
      last.heap.Free 4192 := by
  obtain ⟨usage, hbuilt⟩ := exists_build_soundingsPlan
  have hsome : (value? (sounded (.string "sand"))).isSome = true := by decide +kernel
  have hbase : (value? (sounded (.string "sand"))).bind Value.nonNull? = some (.ofNat 4192) := by
    decide +kernel
  have hfits : (ending (sounded (.string "sand"))).bridge.heap.next ≤ twoPow 64 := by
    decide +kernel
  have hbeside : (beside (.string "sand") (.ofNat 4192)).map (·.map Value.asString?) =
      some [some "sand"] := by decide +kernel
  obtain ⟨raw, ⟨returned, frame⟩, hsounded⟩ : ∃ raw calling,
      sounded (.string "sand") = .ok raw calling := ⟨_, _, eq_ok_of_isSome default hsome⟩
  have hreturns : soundingsPlan.returns = .array (.primitive .int16 2) .full (.param 1) .c 2 := rfl
  rw [hsounded] at hfits
  obtain ⟨harray, hannounced⟩ := announces_of_sounded hsounded hfits
  obtain ⟨base, found, rfl, hfound, hgives, _, hfree⟩ :=
    gives_array_of_build (governs_soundingsEnv _) (attained_soundingsBridge _) hbuilt rfl hreturns
      rfl rfl hsounded hfits harray rfl (fun _ _ => trivial) hannounced
  obtain rfl : found = [.int (-7), .int 1] := soundings_read hfound
  have hnull : (Value.pointer base).nonNull? = some (.ofNat 4192) := by
    rw [hsounded] at hbase
    exact hbase
  rw [Value.nonNull?] at hnull
  obtain rfl := Option.some.inj (Option.filter_eq_some_iff.1 hnull).1
  rw [beside, hsounded] at hbeside
  dsimp only at hbeside
  obtain ⟨outputs, houtputs, htexts⟩ := Option.map_eq_some_iff.1 hbeside
  obtain rfl := eq_string_of_map_asString? htexts
  have hlifted := eq_ok_of_isSome default (Option.isSome_of_eq_some houtputs)
  rw [houtputs] at hlifted
  have hinvoke := hgives _ _ hlifted
  rw [Option.getD_some] at hinvoke
  rw [hinvoke] at hfree
  exact ⟨usage, _, hbuilt, hbase, hinvoke, hfree rfl⟩

/-- If the ground is said to lie where there is nothing, the call fails, although the array and the
number of its items are as they were. -/
theorem soundings_ungrounded : ∃ usage raw returned frame,
    watching.build soundings (watching.ownerOf? "N.Watcher") {} = .ok soundingsPlan usage ∧
      sounded (.pointer (.ofNat 8)) = .ok raw ⟨returned, frame⟩ ∧
      ReturnsArray (soundingsPlan.nativeCall frame) [.int (-7), .bool true] raw returned ∧
      pendingError (soundingsEnv (.pointer (.ofNat 8))) soundingsPlan frame returned =
        .ok none returned ∧
      Announces soundingsPlan frame (.primitive .int16 2) [.int (-7), .bool true] returned
        (.param 1) ∧
      failure? (invoke (soundingsEnv (.pointer (.ofNat 8))) soundingsPlan
        (some (.pointer (.ofNat 8))) [] soundingsBridge) =
          some (.dispatch (.invalidHandle (.ofNat 8))) := by
  obtain ⟨usage, hbuilt⟩ := exists_build_soundingsPlan
  have hsome : (value? (sounded (.pointer (.ofNat 8)))).isSome = true := by decide +kernel
  have hfits : (ending (sounded (.pointer (.ofNat 8)))).bridge.heap.next ≤ twoPow 64 := by
    decide +kernel
  obtain ⟨raw, ⟨returned, frame⟩, hsounded⟩ : ∃ raw calling,
      sounded (.pointer (.ofNat 8)) = .ok raw calling := ⟨_, _, eq_ok_of_isSome default hsome⟩
  rw [hsounded] at hfits
  obtain ⟨harray, hannounced⟩ := announces_of_sounded hsounded hfits
  exact ⟨usage, raw, returned, frame, hbuilt, hsounded, harray, rfl, hannounced, by decide +kernel⟩

end CallPlan

end Interop
