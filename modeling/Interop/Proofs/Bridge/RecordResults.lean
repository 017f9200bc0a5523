import Interop.Proofs.Bridge.Copies

/-! # Arrays of records that native code returns

The records of an array that a call returns are handed over as copies. They outlive the array, which
is freed before the caller sees them if it was given away, and stay what they are until somebody
drops their wrappers or writes where they lie.
-/

namespace Interop

open Schema Relation Steps

variable {H : Host}

namespace Bridge

variable {env : Env H} {R : Bridge H → Bridge H → Prop} {bridge after returned last : Bridge H}
  {plan : CallPlan} {receiver : Option Value} {values : List Value} {frame : Frame} {raw : Value}
  {result : CallResult} {base : Handle}

/-! ## From what comes back to the value of a call -/

/-- Looking for an error that is not there leaves everything as it is. -/
theorem of_pendingError_eq_none (h : pendingError env plan frame bridge = .ok none after) :
    after = bridge := by
  unfold pendingError at h
  cases hindex : plan.errorIndex? with
  | none =>
      rw [hindex] at h
      cases h
      rfl
  | some index =>
      rw [hindex] at h
      cases harg : frame.args[index]? with
      | none =>
          simp only [harg] at h
          cases h
          rfl
      | some arg =>
          simp only [harg] at h
          cases hdescriptor : arg.descriptor with
          | reference inner =>
              rw [hdescriptor] at h
              cases hslot : arg.value.nonNull? with
              | none =>
                  rw [hslot] at h
                  cases h
                  rfl
              | some slot =>
                  rw [hslot] at h
                  obtain ⟨found, middle, hread, hrest⟩ := of_bind_eq_ok h
                  obtain ⟨_, rfl⟩ := of_read_eq_ok hread
                  cases herror : found.nonNull? with
                  | some error =>
                      rw [herror] at hrest
                      obtain ⟨_, _, _, hnone⟩ := of_bind_eq_ok hrest
                      cases hnone
                  | none =>
                      rw [herror] at hrest
                      cases hrest
                      rfl
          | _ =>
              rw [hdescriptor] at h
              cases h
              rfl

theorem of_thenDrop_eq_ok {α : Type} {dropped : List Value} {step : Run H α} {a : α}
    (h : thenDrop env dropped step bridge = .ok a after) :
    ∃ middle, step bridge = .ok a middle ∧ after = middle.drop env dropped := by
  unfold thenDrop at h
  cases hstep : step bridge with
  | ok found middle =>
      rw [hstep] at h
      cases h
      exact ⟨middle, rfl, rfl⟩
  | error error middle =>
      rw [hstep] at h
      cases h

/-- The value of a call that succeeds is lifted as soon as no error is found, and the outputs behind
it. -/
theorem steps_of_complete_eq_ok (h : complete env plan frame raw bridge = .ok result after) :
    ∃ lifted, lift env frame.args plan.returns raw bridge = .ok result.value lifted ∧
      liftOutputs env plan frame (lifted.drop env [raw]) = .ok result.outputs after := by
  obtain ⟨pending, pended, hpending, hrest⟩ := of_bind_eq_ok h
  have hpending := of_inCall_eq_ok (of_orDrop_eq_ok hpending)
  cases pending with
  | some error =>
      obtain ⟨_, _, _, hthrow⟩ := of_bind_eq_ok hrest
      cases hthrow
  | none =>
      obtain ⟨value, dropped, hvalue, hrest⟩ := of_bind_eq_ok hrest
      obtain ⟨outputs, collected, hcollect, hlast⟩ := of_bind_eq_ok hrest
      cases hlast
      obtain rfl := of_pendingError_eq_none hpending
      obtain ⟨lifted, hlift, rfl⟩ := of_thenDrop_eq_ok hvalue
      exact ⟨lifted, hlift, of_orDrop_eq_ok hcollect⟩

theorem steps_of_invoke_eq_ok
    (hentered : enterPlan env plan receiver values ⟨bridge, {}⟩ = .ok raw ⟨returned, frame⟩)
    (h : invoke env plan receiver values bridge = .ok result last) :
    ∃ lifted collected,
      lift env frame.args plan.returns raw returned = .ok result.value lifted ∧
      liftOutputs env plan frame (lifted.drop env [raw]) = .ok result.outputs collected ∧
      last = collected.releaseFrame env frame := by
  obtain ⟨_, checked, harity, hrest⟩ := of_bind_eq_ok h
  obtain rfl := of_checkArity_eq_ok harity
  rw [invoke_eq_of_accepted harity, hentered] at h
  dsimp only at h
  cases hcomplete : complete env plan frame raw returned with
  | error error after =>
      rw [hcomplete] at h
      cases h
  | ok completed after =>
      rw [hcomplete] at h
      cases h
      obtain ⟨lifted, hlift, houtputs⟩ := steps_of_complete_eq_ok hcomplete
      exact ⟨lifted, after, hlift, houtputs, rfl⟩

theorem exists_lift_of_invoke_eq_ok (hgoverns : Governs env R)
    (hentered : enterPlan env plan receiver values ⟨bridge, {}⟩ = .ok raw ⟨returned, frame⟩)
    (h : invoke env plan receiver values bridge = .ok result last) :
    ∃ lifted, lift env frame.args plan.returns raw returned = .ok result.value lifted ∧
      ReflTransGen R lifted last := by
  obtain ⟨lifted, collected, hlift, houtputs, rfl⟩ := steps_of_invoke_eq_ok hentered h
  have hdropped := hgoverns.serves.dropAll [raw] lifted
  have hcollected := (hgoverns.serves.within_collect (fun _ =>
    hgoverns.serves.within_liftOutput frame _) _).of_eq_ok houtputs
  exact ⟨lifted, hlift, hdropped.trans
    (hcollected.trans (hgoverns.closes.releaseFrame frame collected))⟩

/-- Blocks behind a bound are left alone when others are given back. -/
theorem keepsFrom_releaseAll {start : Nat} {handles : List Handle} (hsound : bridge.heap.Sound)
    (hbelow : ∀ handle ∈ handles, handle.toNat < start) :
    bridge.heap.KeepsFrom start ∅ (bridge.releaseAll env handles).heap := by
  induction handles generalizing bridge with
  | nil => exact Heap.keepsFrom_refl _ _ _
  | cons first rest ih =>
      obtain ⟨hfirst, hrest⟩ := List.forall_mem_cons.1 hbelow
      rw [releaseAll, List.foldl_cons, ← releaseAll]
      rcases attempt_release_cases env first bridge with ⟨heap, hunref, hafter⟩ | ⟨_, _, hafter⟩
      · rw [hafter]
        have hkept := Heap.keepsFrom_of_unref_eq_ok hsound hunref hfirst
        have hbehind := @ih { bridge with heap } ((Heap.Own.unref hunref).step.sound hsound) hrest
        exact hkept.trans hbehind
      · rw [hafter]
        exact ih hsound hrest

/-- The blocks that serve a call only are there when native code comes back. -/
theorem scratch_lt_of_enterPlan_eq_ok (hgoverns : Governs env (Change env))
    (hentered : enterPlan env plan receiver values ⟨bridge, {}⟩ = .ok raw ⟨returned, frame⟩) :
    ∀ handle ∈ frame.scratch.toList, handle.toNat < returned.heap.next := by
  obtain ⟨made, hlower, henter⟩ := of_enterPlan_eq_ok hentered
  have haccounts := Lowering.leaving_lower env plan receiver values ⟨bridge, {}⟩
  rw [hlower] at haccounts
  have hreached : Calling.Reached (⟨made, frame⟩ : Calling H) :=
    haccounts.reached fun _ hmem => by cases hmem
  have hgrown := Heap.next_le_of_reflTransGen
    (heap_of_changes ((hgoverns.within_enter _ _).of_eq_ok henter))
  exact fun handle hmem =>
    Nat.lt_of_lt_of_le (hreached handle (List.mem_append_left _ hmem)) hgrown

/-- Behind its value a call gives up only blocks that served it, if it has no outputs and neither
what came back nor the frame keeps anything alive. -/
theorem leaves_lifted_of_invoke_eq_ok {lifted : Bridge H} {value : Value}
    (hgoverns : Governs env (Change env)) (hattained : Attained env lifted)
    (hentered : enterPlan env plan receiver values ⟨bridge, {}⟩ = .ok raw ⟨returned, frame⟩)
    (hinvoke : invoke env plan receiver values bridge = .ok result last)
    (hlift : lift env frame.args plan.returns raw returned = .ok value lifted)
    (houtputs : plan.outputs = []) (hshares : raw.shares = []) (htokens : frame.callTokens = [])
    (hheld : frame.held = []) :
    result = ⟨value, []⟩ ∧ last.registry = lifted.registry ∧
      lifted.heap.KeepsFrom returned.heap.next ∅ last.heap := by
  obtain ⟨found, collected, hfound, hcollect, rfl⟩ := steps_of_invoke_eq_ok hentered hinvoke
  obtain ⟨value, outputs⟩ := result
  cases hlift.symm.trans hfound
  rw [drop_eq_of_sharesOf_eq_nil (by rw [Value.sharesOf, hshares]; rfl), liftOutputs, houtputs]
    at hcollect
  cases hcollect
  have hlast : lifted.releaseFrame env frame = lifted.releaseAll env frame.scratch.toList := by
    rw [releaseFrame_eq, htokens, hheld, drop_eq_of_sharesOf_eq_nil rfl]
    rfl
  rw [hlast]
  exact ⟨rfl, registry_releaseAll _ _ _, keepsFrom_releaseAll hattained.spaced.sound
    (scratch_lt_of_enterPlan_eq_ok hgoverns hentered)⟩

/-- What has been read is freed, if at all, without a change to wrappers or other blocks. -/
theorem spent_cases (env : Env H) (ownership : Ownership) (base : Handle) (bridge : Bridge H) :
    ∃ heap, bridge.spent env ownership base = { bridge with heap } ∧
      (heap = bridge.heap ∨ ownership = .full ∧ bridge.heap.unref base = .ok heap) := by
  unfold spent
  split
  next hfull =>
    rcases attempt_release_cases env base bridge with ⟨heap, hunref, hafter⟩ | ⟨_, _, hafter⟩
    · exact ⟨heap, hafter, .inr ⟨hfull, hunref⟩⟩
    · exact ⟨bridge.heap, hafter, .inl rfl⟩
  next => exact ⟨bridge.heap, rfl, .inl rfl⟩

/-- Freeing an array leaves the copies of its records alone. -/
theorem IsCopy.spent {qualified : String} {size : Nat} {source copy : Handle} {id : WrapperId}
    {ownership : Ownership} (h : IsCopy env qualified size returned source bridge id copy)
    (hserves : Serves env (Change env)) (hattained : Attained env bridge)
    (hstart : returned.heap.next ≤ copy.toNat)
    (hbase : ownership = .full →
      base.toNat < returned.heap.next ∨ bridge.heap.next ≤ base.toNat) :
    IsCopy env qualified size returned source (bridge.spent env ownership base) id copy := by
  have hrun := hserves.within_spent ownership base bridge
  refine h.of_run hattained hstart hrun ?_ ?_
  all_goals obtain ⟨heap, hspent, hheap⟩ := spent_cases env ownership base bridge
  · rw [hspent]
    exact h.live
  · rw [hspent]
    rcases hheap with rfl | ⟨hfull, hunref⟩
    · exact Heap.keepsFrom_refl _ _ _
    · have hlt := Heap.lt_next_of_unref_eq_ok hattained.spaced.sound hunref
      have hbelow := (hbase hfull).resolve_right (Nat.not_le_of_lt hlt)
      exact Heap.keepsFrom_of_unref_eq_ok hattained.spaced.sound hunref hbelow

end Bridge

namespace CallPlan

open Bridge

variable {env : Env H} {plan : CallPlan} {receiver : Option Value} {values : List Value}
  {bridge returned last : Bridge H} {frame : Frame} {raw : Value} {result : CallResult}
  {base : Handle}

/-- What a call lifts from an array of records by value is a copy of each record, and the copies are
there when the array has been freed. -/
theorem copies_of_invoke_eq_ok (hgoverns : Governs env (Change env))
    (hattained : Attained env bridge) {qualified library : String} {own ownership : Ownership}
    {size stride : Nat} {length : ArrayLength} {kind : ArrayKind}
    (hreturns : plan.returns =
      .array (.struct qualified library size true own) ownership length kind stride)
    (hentered : enterPlan env plan receiver values ⟨bridge, {}⟩ = .ok raw ⟨returned, frame⟩)
    (hraw : raw.nonNull? = some base)
    (hinvoke : invoke env plan receiver values bridge = .ok result last)
    (hfits : last.heap.next ≤ twoPow 64)
    (hbase : ownership = .full → base.toNat < returned.heap.next ∨ last.heap.next ≤ base.toNat)
    (hfiled : ∀ cls, last.registry.classes.get? (schemaTypeName (repo env) qualified) =
      some cls → cls.kind ≠ .struct →
        returned.registry.LiveOutside returned.heap.next last.heap.next) :
    ∃ (items : List Value) (copied : Bridge H), result.value = .array items ∧
      (length = .fixed items.length ∨ ∃ index, length = .param index ∧
        lengthAt frame.args index returned = .ok items.length returned) ∧
      lift env frame.args plan.returns raw returned =
        .ok (.array items) (copied.spent env ownership base) ∧
      Attained env (copied.spent env ownership base) ∧
      ReflTransGen (Change env) (copied.spent env ownership base) last ∧
      (items.map Value.asHandle?).Nodup ∧
      ∀ (index : Nat) (item : Value), items[index]? = some item → ∃ id copy,
        item = .object id copy ∧ returned.heap.next ≤ copy.toNat ∧
        IsCopy env qualified size returned (.ofNat (base.toNat + index * stride))
          (copied.spent env ownership base) id copy := by
  have hreached := hattained.trans (hgoverns.run_of_enterPlan_eq_ok hentered)
  obtain ⟨lifted, hlift, hlast⟩ := exists_lift_of_invoke_eq_ok hgoverns hentered hinvoke
  rw [hreturns] at hlift
  obtain ⟨items, copied, hvalue, rfl, hlength, hcopying⟩ := copying_of_lift_array_eq_ok hgoverns
    hreached hraw hlift (Heap.next_le_of_reflTransGen (heap_of_changes hlast)) hfits
    (fun cls hcls hkind => hfiled cls (get?_of_run hlast hcls) hkind)
  have hcopied := hreached.trans hcopying.run
  have hspent := hcopied.trans (hgoverns.serves.within_spent ownership base copied)
  rw [hvalue, ← hreturns] at hlift
  refine ⟨items, copied, hvalue, hlength, hlift, hspent, hlast, hcopying.distinct,
    fun index item hitem => ?_⟩
  obtain ⟨id, copy, rfl, hstart, hcopy⟩ := hcopying.copies index item hitem
  have hgrown := Heap.next_le_of_reflTransGen (heap_of_changes (.trans
    (hgoverns.serves.within_spent ownership base copied) hlast))
  exact ⟨id, copy, rfl, hstart, hcopy.spent hgoverns.serves hcopied hstart
    fun hfull => (hbase hfull).imp_right (Nat.le_trans hgrown)⟩

/-- The copies are there when the call has ended, if it has no outputs and neither what came back
nor the frame keeps anything alive. -/
theorem copies_last_of_invoke_eq_ok (hgoverns : Governs env (Change env))
    (hattained : Attained env bridge) {qualified library : String} {own ownership : Ownership}
    {size stride : Nat} {length : ArrayLength} {kind : ArrayKind}
    (hreturns : plan.returns =
      .array (.struct qualified library size true own) ownership length kind stride)
    (hentered : enterPlan env plan receiver values ⟨bridge, {}⟩ = .ok raw ⟨returned, frame⟩)
    (hraw : raw.nonNull? = some base)
    (hinvoke : invoke env plan receiver values bridge = .ok result last)
    (hfits : last.heap.next ≤ twoPow 64)
    (hbase : ownership = .full → base.toNat < returned.heap.next ∨ last.heap.next ≤ base.toNat)
    (hfiled : ∀ cls, last.registry.classes.get? (schemaTypeName (repo env) qualified) =
      some cls → cls.kind ≠ .struct →
        returned.registry.LiveOutside returned.heap.next last.heap.next)
    (houtputs : plan.outputs = []) (hshares : raw.shares = []) (htokens : frame.callTokens = [])
    (hheld : frame.held = []) :
    ∃ items, result = ⟨.array items, []⟩ ∧ (items.map Value.asHandle?).Nodup ∧
      ∀ (index : Nat) (item : Value), items[index]? = some item → ∃ id copy,
        item = .object id copy ∧
        IsCopy env qualified size returned (.ofNat (base.toNat + index * stride)) last id copy := by
  obtain ⟨items, copied, hvalue, _, hlift, hspent, hrun, hdistinct, hcopies⟩ :=
    copies_of_invoke_eq_ok hgoverns hattained hreturns hentered hraw hinvoke hfits hbase hfiled
  obtain ⟨hresult, hregistry, hkeeps⟩ := leaves_lifted_of_invoke_eq_ok hgoverns hspent hentered
    hinvoke hlift houtputs hshares htokens hheld
  refine ⟨items, hresult, hdistinct, fun index item hitem => ?_⟩
  obtain ⟨id, copy, rfl, hstart, hcopy⟩ := hcopies index item hitem
  exact ⟨id, copy, rfl, hcopy.of_run hspent hstart hrun (hregistry ▸ hcopy.live) hkeeps⟩

/-- A call that returns an array of records by value gives a copy of each record, at different
addresses. An array that is given away must not begin at an address that the heap only comes to
when the results are lifted, and no live wrapper may be filed under such an address, unless natives
of the record's class are wrapped without identity. The copies are there when the array has been
freed, and stay there as long as their wrappers are live and nobody touches the blocks that came
after the array. -/
theorem gives_copies_of_build {builder : CallBuilder} {callable : Callable} {owner : Option Owner}
    {usage usage' : Usage} (hgoverns : Governs env (Change env)) (hattained : Attained env bridge)
    (hbuilt : builder.build callable owner usage = .ok plan usage')
    {qualified library : String} {own ownership : Ownership} {size stride : Nat}
    {length : ArrayLength} {kind : ArrayKind}
    (hreturns : plan.returns =
      .array (.struct qualified library size true own) ownership length kind stride)
    (hentered : enterPlan env plan receiver values ⟨bridge, {}⟩ = .ok raw ⟨returned, frame⟩)
    (hraw : raw.nonNull? = some base)
    (hinvoke : invoke env plan receiver values bridge = .ok result last)
    (hfits : last.heap.next ≤ twoPow 64)
    (hbase : ownership = .full → base.toNat < returned.heap.next ∨ last.heap.next ≤ base.toNat)
    (hfiled : ∀ cls, last.registry.classes.get? (schemaTypeName (repo env) qualified) =
      some cls → cls.kind ≠ .struct →
        returned.registry.LiveOutside returned.heap.next last.heap.next) :
    size = builder.mapper.platform.typeSize qualified ∧ stride = size ∧
      ∃ (items : List Value) (copied : Bridge H), result.value = .array items ∧
        (length = .fixed items.length ∨ ∃ index, length = .param index ∧
          lengthAt frame.args index returned = .ok items.length returned) ∧
        lift env frame.args plan.returns raw returned =
          .ok (.array items) (copied.spent env ownership base) ∧
        ReflTransGen (Change env) (copied.spent env ownership base) last ∧
        (items.map Value.asHandle?).Nodup ∧
        ∀ (index : Nat) (item : Value), items[index]? = some item → ∃ id copy,
          item = .object id copy ∧
          IsCopy env qualified size returned (.ofNat (base.toNat + index * stride))
            (copied.spent env ownership base) id copy ∧
          ∀ later, ReflTransGen (Change env) (copied.spent env ownership base) later →
            later.registry.OwnsAs (schemaTypeName (repo env) qualified) id copy ∧
            (later.registry.isLive id = true →
              (copied.spent env ownership base).heap.KeepsFrom returned.heap.next ∅ later.heap →
              IsCopy env qualified size returned (.ofNat (base.toNat + index * stride)) later
                id copy) := by
  obtain ⟨_, _, _, h⟩ := CallBuilder.exists_built_of_build hbuilt
  obtain ⟨_, hrenders⟩ := h.renders_returned_array hreturns
  obtain ⟨hsize, hstride⟩ := hrenders.of_array_inPlace
  obtain ⟨items, copied, hvalue, hlength, hlift, hspent, hlast, hdistinct, hcopies⟩ :=
    copies_of_invoke_eq_ok hgoverns hattained hreturns hentered hraw hinvoke hfits hbase hfiled
  refine ⟨hsize, hstride, items, copied, hvalue, hlength, hlift, hlast, hdistinct,
    fun index item hitem => ?_⟩
  obtain ⟨id, copy, rfl, hstart, hcopy⟩ := hcopies index item hitem
  refine ⟨id, copy, rfl, hcopy, fun later hlater => ⟨ownsAs_of_run hlater hcopy.owns, ?_⟩⟩
  exact fun hlive hkeeps => hcopy.of_run hspent hstart hlater hlive hkeeps

/-! ## Points that are given away -/

/-- A program with two boxed records of the same size. -/
def charts : CallBuilder where
  mapper.platform.repo := .ofSpaces [{
    name := "N"
    libraries := ["libn.so"]
    records := [
      { name := "Point"
        cType := some "NPoint"
        getType := some "n_point_get_type"
        fields := [.shown "x" (.named "gint32"), .shown "y" (.named "gint32")] },
      { name := "Other"
        cType := some "NOther"
        getType := some "n_other_get_type"
        fields := [.shown "z" (.named "gint64")] }] }]
  mapper.platform.pointerSize := 8
  mapper.options := {}
  mapper.space := "N"
  library := "libn.so"

/-- A function that gives points away. -/
def points (params : List Param) (count : Nat) : Callable where
  name := "points"
  symbol := "n_points"
  params := params
  returns :=
    (((TypeRef.named "Point").withCType "NPoint").arrayOf (.fixed count)).withTransfer .full

def pointsPlan (params : List Param) (count : Nat) : CallPlan :=
  (value? (charts.build (points params count) none {})).getD default

/-- The program with a native function. -/
def chartsEnv (reply : NativeCall → Native greeter Value) : Env greeter where
  compiler := ⟨charts.mapper.platform, charts.mapper.options⟩
  native _ call := reply call
  effect _ _ := return ⟨⟩
  managed := nofun

def chartsBridge : Bridge greeter :=
  { (start () : Bridge greeter) with
    symbols := (start () : Bridge greeter).symbols.define "libn.so" "n_points" (.host ()) }

/-- What has become of the program after some actions. -/
def charted (reply : NativeCall → Native greeter Value) (actions : List Action) : Bridge greeter :=
  actions.foldl (Action.perform (chartsEnv reply)) chartsBridge

/-- What a call of the function comes to after some actions. -/
def handed (reply : NativeCall → Native greeter Value) (params : List Param) (count : Nat)
    (actions : List Action) : EStateM.Result BindError (Bridge greeter) CallResult :=
  invoke (chartsEnv reply) (pointsPlan params count) none [] (charted reply actions)

section Reply

variable {reply : NativeCall → Native greeter Value}

theorem governs_chartsEnv (h : ∀ call, Within (Change (chartsEnv reply)) (reply call)) :
    Governs (chartsEnv reply) (Change (chartsEnv reply)) :=
  { permits_change (chartsEnv reply) with
    native := fun _ call => h call
    effect := fun _ _ => within_pure _
    managed := nofun }

theorem attained_charted (h : ∀ call, Within (Change (chartsEnv reply)) (reply call))
    (actions : List Action) : Attained (chartsEnv reply) (charted reply actions) := by
  have hstart : Attained (chartsEnv reply) chartsBridge := ⟨(), .single (.other rfl rfl rfl)⟩
  exact hstart.trans ((governs_chartsEnv h).serves.performAll actions _)

end Reply

/-- The native function lays out the point at the first address, and one at the origin. -/
def drawn (call : NativeCall) : Native greeter Value :=
  call.returnArray [.pointer (.ofNat 0x1000), .pointer .null]

theorem within_drawn (call : NativeCall) : Within (Change (chartsEnv drawn)) (drawn call) :=
  (permits_change (chartsEnv drawn)).works.within_returnArray call _

/-- A point is made and written to. -/
def drawing : List Action :=
  [.make "N.Point", .write (.pointer (.ofNat 0x1000)) "N.Point" "x" (.int 7)]

/-- What comes back from the native function. -/
def redrawn : EStateM.Result BindError (Calling greeter) Value :=
  enterPlan (chartsEnv drawn) (pointsPlan [] 2) none [] ⟨charted drawn drawing, {}⟩

/-- The array lies behind the point, the only instance that a wrapper is filed for. -/
theorem exists_redrawn : ∃ raw returned frame, redrawn = .ok raw ⟨returned, frame⟩ ∧
    raw.nonNull? = some (.ofNat 0x1020) ∧ returned.heap.next = 0x1040 ∧
    returned.registry.identities = [(.ofNat 0x1000, ⟨0⟩)] ∧ raw.shares = [] ∧
    frame.callTokens = [] ∧ frame.held = [] := by
  have hsome : (value? redrawn).isSome = true := by decide +kernel
  have hraw : (value? redrawn).bind Value.nonNull? = some (.ofNat 0x1020) := by decide +kernel
  have hnext : (ending redrawn).bridge.heap.next = 0x1040 := by decide +kernel
  have hentries : (ending redrawn).bridge.registry.identities = [(.ofNat 0x1000, ⟨0⟩)] := by
    decide +kernel
  have hshares : (value? redrawn).map (·.shares.length) = some 0 := by decide +kernel
  have htokens : (ending redrawn).frame.callTokens = [] := by decide +kernel
  have hheld : (ending redrawn).frame.held.length = 0 := by decide +kernel
  obtain ⟨raw, ⟨returned, frame⟩, hentered⟩ : ∃ raw calling, redrawn = .ok raw calling :=
    ⟨_, _, eq_ok_of_isSome default hsome⟩
  rw [hentered] at hraw hnext hentries hshares htokens hheld
  exact ⟨raw, returned, frame, hentered, hraw, hnext, hentries,
    List.length_eq_zero_iff.1 (Option.some.inj hshares), htokens, List.length_eq_zero_iff.1 hheld⟩

/-- Both points are copied, the one at the origin as well, and the copies are there when the call
has ended. -/
theorem points_copied : ∃ usage raw returned frame items last,
    charts.build (points [] 2) none {} = .ok (pointsPlan [] 2) usage ∧
      redrawn = .ok raw ⟨returned, frame⟩ ∧
      invoke (chartsEnv drawn) (pointsPlan [] 2) none [] (charted drawn drawing) =
        .ok ⟨.array items, []⟩ last ∧
      items.length = 2 ∧ (items.map Value.asHandle?).Nodup ∧
      ∀ (index : Nat) (item : Value), items[index]? = some item → ∃ id copy,
        item = .object id copy ∧ last.registry.OwnsAs "NPoint" id copy ∧
        IsCopy (chartsEnv drawn) "N.Point" 8 returned (.ofNat (0x1020 + index * 8)) last
          id copy := by
  obtain ⟨usage, hbuilt⟩ : ∃ usage, charts.build (points [] 2) none {} =
      .ok (pointsPlan [] 2) usage := ⟨_, eq_ok_of_isSome default (by decide +kernel)⟩
  obtain ⟨raw, returned, frame, hentered, hraw, hnext, hentries, hshares, htokens, hheld⟩ :=
    exists_redrawn
  have hinvoked : (value? (handed drawn [] 2 drawing)).isSome = true := by decide +kernel
  have hfits : (ending (handed drawn [] 2 drawing)).heap.next ≤ twoPow 64 := by decide +kernel
  have houtputs : (pointsPlan [] 2).outputs = [] := by decide +kernel
  obtain ⟨result, last, hinvoke⟩ : ∃ result last, handed drawn [] 2 drawing = .ok result last :=
    ⟨_, _, eq_ok_of_isSome default hinvoked⟩
  rw [hinvoke] at hfits
  have hreturns : (pointsPlan [] 2).returns =
      .array (.struct "N.Point" "libn.so" 8 true .none) .full (.fixed 2) .c 8 := by
    with_unfolding_all rfl
  -- the point was made before the call, so it is not where copies are made
  have hfiled : returned.registry.LiveOutside returned.heap.next last.heap.next := by
    intro entry hentry _ _ _
    rw [hentries] at hentry
    obtain rfl := List.mem_singleton.1 hentry
    refine .inl ?_
    rw [hnext]
    decide
  have hbase : (Handle.ofNat 0x1020).toNat < returned.heap.next := by
    rw [hnext]
    decide
  have hgoverns := governs_chartsEnv within_drawn
  have hattained := attained_charted within_drawn drawing
  obtain ⟨_, _, items, copied, _, hlength, hlift, hlast, hdistinct, hcopies⟩ :=
    gives_copies_of_build hgoverns hattained hbuilt hreturns hentered hraw hinvoke hfits
      (fun _ => .inl hbase) (fun _ _ _ => hfiled)
  have htwo : items.length = 2 := by
    rcases hlength with hfixed | ⟨_, hparam, _⟩
    · exact (ArrayLength.fixed.inj hfixed).symm
    · cases hparam
  have hspent : Attained (chartsEnv drawn) (copied.spent (chartsEnv drawn) .full (.ofNat 0x1020)) :=
    (hattained.trans (hgoverns.run_of_enterPlan_eq_ok hentered)).trans
      ((hgoverns.serves.within_lift _ _ _).of_eq_ok hlift)
  obtain ⟨rfl, hregistry, hkeeps⟩ := leaves_lifted_of_invoke_eq_ok hgoverns hspent hentered hinvoke
    hlift houtputs hshares htokens hheld
  have hname : schemaTypeName (repo (chartsEnv drawn)) "N.Point" = "NPoint" := by decide +kernel
  refine ⟨usage, raw, returned, frame, items, last, hbuilt, hentered, hinvoke, htwo, hdistinct,
    fun index item hitem => ?_⟩
  obtain ⟨id, copy, rfl, hcopy, hlater⟩ := hcopies index item hitem
  obtain ⟨howns, hstays⟩ := hlater last hlast
  exact ⟨id, copy, rfl, hname ▸ howns, hstays (hregistry ▸ hcopy.live) hkeeps⟩

/-! ## Copies that go astray -/

/-- In a state that the program gets to by some actions, a call of the function gives records with
these wrappers and handles. -/
structure Hands (reply : NativeCall → Native greeter Value) (params : List Param) (count : Nat)
    (actions : List Action) (given : List (WrapperId × Handle)) (last : Bridge greeter) : Prop where
  attained : Attained (chartsEnv reply) (charted reply actions)
  built : ∃ usage, charts.build (points params count) none {} =
    .ok (pointsPlan params count) usage
  invoked : ∃ outputs, handed reply params count actions =
    .ok ⟨.array (given.map fun (id, handle) => .object id handle), outputs⟩ last

theorem eq_map_object_of_map_wrapped? {items : List Value} {given : List (WrapperId × Handle)}
    (h : items.map Value.wrapped? = given.map some) :
    items = given.map fun (id, handle) => .object id handle := by
  induction items generalizing given with
  | nil =>
      rw [List.map_nil, eq_comm, List.map_eq_nil_iff] at h
      rw [h, List.map_nil]
  | cons item rest ih =>
      cases given with
      | nil => cases h
      | cons first others =>
          rw [List.map_cons, List.map_cons, List.cons.injEq] at h
          rw [List.map_cons, ← ih h.2, Value.eq_object_of_wrapped? h.1]

theorem hands_of_handed {reply : NativeCall → Native greeter Value} {params : List Param}
    {count : Nat} {actions : List Action} {given : List (WrapperId × Handle)}
    (hreply : ∀ call, Within (Change (chartsEnv reply)) (reply call))
    (hbuilt : (value? (charts.build (points params count) none {})).isSome = true)
    (hgiven : (value? (handed reply params count actions)).bind (fun result =>
      result.value.asArray?.map (List.map Value.wrapped?)) = some (given.map some)) :
    Hands reply params count actions given (ending (handed reply params count actions)) := by
  refine ⟨attained_charted hreply actions, ⟨_, eq_ok_of_isSome default hbuilt⟩, ?_⟩
  cases hended : handed reply params count actions with
  | error error last =>
      rw [hended] at hgiven
      cases hgiven
  | ok result last =>
      obtain ⟨value, outputs⟩ := result
      rw [hended] at hgiven
      obtain ⟨items, hitems, hwrapped⟩ := Option.map_eq_some_iff.1 hgiven
      cases value with
      | array found =>
          obtain rfl : found = items := Option.some.inj hitems
          rw [eq_map_object_of_map_wrapped? hwrapped]
          exact ⟨outputs, rfl⟩
      | _ => cases hitems

/-- A step past the end of a record leads to where the first copy will lie. -/
def straying : List Action := [.make "N.Other", .element (.pointer (.ofNat 0x1000)) "N.Other" 8]

/-- The native function gives an address that the heap has not come to. -/
def dangling (_ : NativeCall) : Native greeter Value := return .pointer (.ofNat 0x1000)

/-- An array that is given away beside the points. -/
def sizes : List Param :=
  [{ name := "sizes"
     type := ((TypeRef.named "guint32").arrayOf (.fixed 1)).withTransfer .full
     direction := .output }]

/-- The native function gives the address of the first copy as that of the sizes. -/
def overlapping (call : NativeCall) : Native greeter Value := do
  call.setOut 0 (.pointer (.ofNat 0x1040))
  call.returnArray [.pointer .null, .pointer .null]

theorem within_overlapping (call : NativeCall) :
    Within (Change (chartsEnv overlapping)) (overlapping call) :=
  ((permits_change (chartsEnv overlapping)).works.within_setOut call 0 _).bind fun _ =>
    (permits_change (chartsEnv overlapping)).works.within_returnArray call _

/-- A live wrapper of another class that is filed where a copy is made is handed over for it. A copy
that is made where the array is said to lie is freed with the array, and one that is made where
another array is said to lie is freed with that. -/
theorem copies_astray :
    (∃ last wrapper cls, Hands drawn [] 2 straying
        [(⟨1⟩, .ofNat 0x1040), (⟨2⟩, .ofNat 0x1060)] last ∧
      last.registry.wrapper? ⟨1⟩ = some wrapper ∧
      last.registry.classes.get? (schemaTypeName (repo (chartsEnv drawn)) "N.Point") = some cls ∧
      wrapper.cls ≠ cls) ∧
    (∃ last, Hands dangling [] 1 [] [(⟨0⟩, .ofNat 0x1000)] last ∧
      last.heap.isLive (.ofNat 0x1000) = false) ∧
    ∃ last, Hands overlapping sizes 2 [] [(⟨0⟩, .ofNat 0x1040), (⟨1⟩, .ofNat 0x1060)] last ∧
      last.heap.isLive (.ofNat 0x1040) = false := by
  refine ⟨?stray, ?dangle, ?overlap⟩
  case stray =>
    have hwrapper : ((ending (handed drawn [] 2 straying)).registry.wrapper? ⟨1⟩).map
        (·.cls.typeName) = some "NOther" := by decide +kernel
    have hcls : ((ending (handed drawn [] 2 straying)).registry.classes.get?
        (schemaTypeName (repo (chartsEnv drawn)) "N.Point")).map (·.typeName) = some "NPoint" := by
      decide +kernel
    obtain ⟨wrapper, hwrapper, hother⟩ := Option.map_eq_some_iff.1 hwrapper
    obtain ⟨cls, hcls, hpoint⟩ := Option.map_eq_some_iff.1 hcls
    refine ⟨_, wrapper, cls, hands_of_handed within_drawn (by decide +kernel) (by decide +kernel),
      hwrapper, hcls, ?_⟩
    rintro rfl
    rw [hother] at hpoint
    exact absurd hpoint (by decide)
  case dangle =>
    exact ⟨_, hands_of_handed (fun _ => within_pure _) (by decide +kernel) (by decide +kernel),
      by decide +kernel⟩
  case overlap =>
    exact ⟨_, hands_of_handed within_overlapping (by decide +kernel) (by decide +kernel),
      by decide +kernel⟩

end CallPlan

end Interop
