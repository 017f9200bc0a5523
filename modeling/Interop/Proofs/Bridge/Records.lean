import Interop.Proofs.Bridge.Calls
import Interop.Proofs.Call.Arguments

/-! # Records that the caller makes

A record for the native side to fill is noted in the frame with the place of its argument. That
argument is one of the outputs, so a call that succeeds gives the record back, in a wrapper that
owns it.
-/

namespace Interop

open Schema Relation Steps

variable {H : Host}

/-! ## Which arguments get a record -/

namespace CallBuilder.Built

variable {builder : CallBuilder} {callable : Callable} {owner : Option Owner}
  {described : List Descriptor} {returned : Descriptor} {args : List CallArg} {plan : CallPlan}

/-- What only takes a value out is given back to the caller. -/
theorem mem_outputs_of_outSlot (h : Built builder callable owner described returned args plan)
    {native : Nat} {arg : CallArg} (harg : plan.args[native]? = some arg)
    (hsource : arg.source = .outSlot) : native ∈ plan.outputs := by
  rw [CallPlan.mem_outputs_iff]
  refine ⟨arg, harg, ?_⟩
  rcases h.of_getElem? harg with ⟨_, hreceiver⟩ |
    ⟨index, param, descriptor, number, rfl, _, _, rfl⟩ | herror
  · obtain ⟨type, _, rfl⟩ := eq_of_mem_receivers hreceiver
    cases hsource
  · rw [isResult_argOf_iff]
    cases hrole : Companion.find? (Companion.requests callable described) index with
    | some role =>
        rw [hrole, source_argOf_of_role] at hsource
        have hcompanion := role.isCompanion_source callable.offset
        rw [hsource] at hcompanion
        cases hcompanion
    | none =>
        rw [hrole, source_argOf_none] at hsource
        by_cases houtput : param.direction = .output
        · exact ⟨rfl, .inl houtput⟩
        · rw [if_neg houtput] at hsource
          cases hsource
  · rw [eq_of_mem_errorArgs herror] at hsource
    cases hsource

end CallBuilder.Built

namespace Lowering

variable {env : Env H} {plan : CallPlan} {receiver : Option Value} {values : List Value}
  {done rest : List CallArg} {arg : CallArg} {frame frame' : Frame} {calling calling' : Calling H}

theorem exists_of_callerRecord? (h : (callerRecord? env arg).isSome = true) :
    ∃ inner innerType, arg.descriptor = .reference inner ∧
      ((∃ library ownership getType, inner = .boxed innerType library ownership getType) ∨
        ∃ library size inPlace ownership,
          inner = .struct innerType library size inPlace ownership) := by
  unfold callerRecord? at h
  split at h
  next =>
    split at h
    next hdescriptor => exact ⟨_, _, hdescriptor, .inl ⟨_, _, _, rfl⟩⟩
    next hdescriptor => exact ⟨_, _, hdescriptor, .inr ⟨_, _, _, _, rfl⟩⟩
    next => cases h
  next => cases h

/-- The frame has a native argument for each of these arguments. Its records are for arguments that
get one, and no argument has two. -/
structure Listed (env : Env H) (done : List CallArg) (frame : Frame) : Prop where
  descriptors : frame.args.toList.map (·.descriptor) = done.map (·.descriptor)
  records : ∀ record ∈ frame.records, ∃ arg, done[record.1]? = some arg ∧
    arg.source = .outSlot ∧ (callerRecord? env arg).isSome = true
  distinct : (frame.records.map (·.1)).Nodup

theorem listed_empty (env : Env H) : Listed env [] ({} : Frame) where
  descriptors := rfl
  records := by simp
  distinct := List.nodup_nil

/-- One more argument, which has no record. -/
theorem Listed.push (h : Listed env done frame) (native : NativeArg)
    (hargs : frame'.args = frame.args.push native)
    (hdescriptor : native.descriptor = arg.descriptor) (hrecords : frame'.records = frame.records) :
    Listed env (done ++ [arg]) frame' := by
  constructor
  · rw [hargs]
    simp [h.descriptors, hdescriptor]
  · intro record hrecord
    rw [hrecords] at hrecord
    obtain ⟨owner, howner, hsource⟩ := h.records record hrecord
    obtain ⟨hbound, _⟩ := List.getElem?_eq_some_iff.1 howner
    refine ⟨owner, ?_, hsource⟩
    rwa [List.getElem?_append_left hbound]
  · rw [hrecords]
    exact h.distinct

/-- One more argument, with its record. -/
theorem Listed.pushRecord (h : Listed env done frame) (native : NativeArg) {handle : Handle}
    (hargs : frame'.args = frame.args.push native)
    (hdescriptor : native.descriptor = arg.descriptor) (hsource : arg.source = .outSlot)
    (hrecord : (callerRecord? env arg).isSome = true)
    (hrecords : frame'.records = frame.records ++ [(done.length, handle)]) :
    Listed env (done ++ [arg]) frame' := by
  have hplain : Listed env (done ++ [arg]) { frame' with records := frame.records } :=
    h.push native hargs hdescriptor rfl
  constructor
  · exact hplain.descriptors
  · intro record hmem
    rw [hrecords] at hmem
    rcases List.mem_append.1 hmem with hold | hnew
    · exact hplain.records record hold
    · obtain rfl := List.mem_singleton.1 hnew
      exact ⟨arg, by simp, hsource, hrecord⟩
  · rw [hrecords, List.map_append, List.map_singleton]
    apply List.Nodup.append h.distinct (List.nodup_singleton _)
    rw [List.disjoint_singleton]
    intro hmem
    -- the arguments before it have smaller places
    obtain ⟨record, hold, hplace⟩ := List.mem_map.1 hmem
    obtain ⟨owner, howner, _⟩ := h.records record hold
    obtain ⟨hbound, _⟩ := List.getElem?_eq_some_iff.1 howner
    exact absurd hplace (Nat.ne_of_lt hbound)

/-- The frames have the same arguments and records. -/
def SameNotes (calling calling' : Calling H) : Prop :=
  (calling'.frame.args, calling'.frame.records) = (calling.frame.args, calling.frame.records)

theorem lowers_sameNotes (R : Bridge H → Bridge H → Prop) : Lowers R SameNotes where
  bridge _ _ := rfl
  frame bridge hargs hrecords := by rw [SameNotes, hargs, hrecords]

theorem eq_of_sameNotes (h : ReflTransGen SameNotes calling calling') :
    calling'.frame.args = calling.frame.args ∧ calling'.frame.records = calling.frame.records :=
  Prod.mk.injEq .. ▸ same_of_run _ h

theorem Listed.lowerArg (h : Listed env done calling.frame) {value : Value}
    (hok : lowerArg env plan receiver values arg done.length calling = .ok value calling') :
    Listed env (done ++ [arg]) { calling'.frame with
      args := calling'.frame.args.push ⟨arg.descriptor, value, arg.flags.optional⟩ } := by
  by_cases hplain : arg.source = .outSlot → callerRecord? env arg = none
  · have hwithin := within_lowerArg (lowers_sameNotes _).makes (Bridge.permits_step env).works
      plan receiver values hplain done.length
    obtain ⟨hargs, hrecords⟩ := eq_of_sameNotes (hwithin.of_eq_ok hok)
    rw [hargs]
    exact h.push ⟨arg.descriptor, value, arg.flags.optional⟩ rfl rfl hrecords
  · rw [Classical.not_imp] at hplain
    obtain ⟨hsource, hrecord⟩ := hplain
    obtain ⟨⟨size, typeName, library⟩, hrecord⟩ := Option.ne_none_iff_exists'.1 hrecord
    rw [lowerArg_of_record env plan receiver values done.length hsource hrecord] at hok
    obtain ⟨handle, made, halloc, hok⟩ := of_bind_eq_ok hok
    obtain ⟨hargs, hrecords⟩ := eq_of_sameNotes ((within_alloc (lowers_sameNotes _).makes
      (Bridge.permits_step env).works size (some typeName) (some library)).of_eq_ok halloc)
    have hmakes : (callerRecord? env arg).isSome = true := by
      rw [hrecord]
      rfl
    cases hok
    apply h.pushRecord ⟨arg.descriptor, .pointer handle, arg.flags.optional⟩ ?_ rfl hsource hmakes
    · exact congrArg (· ++ [(done.length, handle)]) hrecords
    · rw [← hargs]

/-- By induction over the arguments that are still to come. -/
theorem Listed.forM (h : Listed env done calling.frame) {u : PUnit}
    (hok : (rest.zipIdx done.length).forM (passArg env plan receiver values) calling =
      .ok u calling') : Listed env (done ++ rest) calling'.frame := by
  induction rest generalizing done calling with
  | nil =>
      cases hok
      rwa [List.append_nil]
  | cons arg rest ih =>
      obtain ⟨_, after, hfirst, hrest⟩ := of_bind_eq_ok hok
      obtain ⟨value, middle, hlower, hpush⟩ := of_bind_eq_ok hfirst
      have hnext : Listed env (done ++ [arg]) after.frame := by
        cases hpush
        exact h.lowerArg hlower
      rw [List.append_cons]
      apply ih hnext
      rwa [List.length_append]

/-- The frame of a call whose arguments are all there lists them. -/
theorem listed_of_lower_eq_ok {bridge : Bridge H} {u : Unit}
    (h : lower env plan receiver values ⟨bridge, {}⟩ = .ok u calling) :
    Listed env plan.args calling.frame := by
  obtain ⟨_, middle, hcallbacks, hargs⟩ := of_bind_eq_ok h
  have hprepared := Within.forM (fun (entry : CallArg × Nat) => within_prepareCallback
    (lowers_sameNotes _) (Bridge.permits_step env) values entry.1 entry.2) plan.args.zipIdx
  obtain ⟨hnoArgs, hnoRecords⟩ := eq_of_sameNotes (hprepared.of_eq_ok hcallbacks)
  have hempty : Listed env [] middle.frame := by
    constructor
    · rw [hnoArgs]
      rfl
    · rw [hnoRecords]
      exact (listed_empty env).records
    · rw [hnoRecords]
      exact List.nodup_nil
  exact hempty.forM hargs

/-- A record is given back as it is, with its reference. -/
theorem Listed.exists_liftOutput_eq (h : Listed env done frame) {index : Nat} {handle : Handle}
    (hrecord : (index, handle) ∈ frame.records) :
    ∃ innerType, Bridge.liftOutput env frame index = Bridge.wrapAs env handle innerType .full := by
  obtain ⟨arg, harg, _, hmakes⟩ := h.records _ hrecord
  obtain ⟨inner, innerType, hdescriptor, hinner⟩ := exists_of_callerRecord? hmakes
  have hfound : frame.records.lookup index = some handle := lookup_of_mem h.distinct hrecord
  obtain ⟨native, hnative, hsame⟩ : ∃ native, frame.args[index]? = some native ∧
      native.descriptor = .reference inner := by
    have hplaces := congrArg (·[index]?) h.descriptors
    simpa [harg, hdescriptor] using hplaces
  refine ⟨innerType, ?_⟩
  unfold Bridge.liftOutput
  rcases hinner with ⟨_, _, _, rfl⟩ | ⟨_, _, _, _, rfl⟩
  · simp only [hnative, hsame, hfound]
  · simp only [hnative, hsame, hfound]

end Lowering

namespace Bridge

variable {env : Env H} {bridge bridge' after : Bridge H} {handle : Handle} {id : WrapperId}

/-! ## Wrappers stay -/

theorem Change.keeps (h : Change env bridge bridge') :
    bridge.registry.Keeps bridge'.registry := by
  cases h with
  | heap h => exact Registry.keeps_of_eq rfl
  | register h => exact Registry.keeps_of_eq rfl
  | registerClass h =>
      obtain ⟨classes, _, rfl⟩ := Registry.of_registerClass_eq_ok h
      exact Registry.keeps_of_eq rfl
  | wrap handle target ownership => exact Registry.keeps_wrap _ _ _ _ _
  | retain id =>
      exact Registry.keeps_modifyWrapper _ _ (fun _ => rfl) (fun _ => rfl) fun _ howns => howns
  | drop id => exact Registry.keeps_drop _ _
  | other _ hregistry _ => exact Registry.keeps_of_eq (congrArg Registry.wrappers hregistry)

/-- A wrapper that owns its reference is there for good. -/
theorem owns_of_run (h : ReflTransGen (Change env) bridge bridge')
    (howns : bridge.registry.Owns id handle) : bridge'.registry.Owns id handle := by
  induction h with
  | refl => exact howns
  | tail _ hchange ih => exact ih.of_keeps hchange.keeps

theorem wraps_of_run (h : ReflTransGen (Change env) bridge bridge')
    (hwraps : bridge.registry.Wraps id handle) : bridge'.registry.Wraps id handle := by
  induction h with
  | refl => exact hwraps
  | tail _ hchange ih => exact ih.of_keeps hchange.keeps

theorem ownsAs_of_run {typeName : String} (h : ReflTransGen (Change env) bridge bridge')
    (howns : bridge.registry.OwnsAs typeName id handle) :
    bridge'.registry.OwnsAs typeName id handle := by
  induction h with
  | refl => exact howns
  | tail _ hchange ih => exact ih.of_keeps hchange.keeps fun _ => hchange.get?_eq

/-- What is wrapped with its reference comes in a wrapper that owns it. -/
theorem owns_of_wrap_full_eq_ok (h : Governs env (Change env)) (hfiled : bridge.registry.Filed)
    (hnull : handle.isNull = false) {target : Option String} {value : Value}
    (hok : wrap env handle target .full bridge = .ok value after) :
    ∃ id, value = .object id handle ∧ after.registry.Owns id handle := by
  have hcase := bridge.registry.wrap_cases bridge.introspection handle target .full
  unfold wrap wrapRaw at hok
  rcases hwrap : bridge.registry.wrap bridge.introspection handle target .full with
    ⟨result, registry⟩
  rw [hwrap] at hok hcase
  cases result with
  | error error => cases hok
  | ok wrapped =>
      cases hid : wrapped.id with
      | none =>
          cases hcase with
          | null hisNull => exact absurd (hisNull.symm.trans hnull) (by decide)
          | found => cases hid
          | made => cases hid
      | some id =>
          have howns := hfiled.owns_of_wrap_full hwrap hid
          dsimp only at hok
          rw [hid] at hok
          cases hok
          have hsettled := h.serves.settle wrapped.release { bridge with registry }
          exact ⟨id, rfl, owns_of_run hsettled howns⟩

theorem owns_of_wrapAs_full_eq_ok (h : Governs env (Change env)) (hattained : Attained env bridge)
    (hnull : handle.isNull = false) {qualified : String} {value : Value}
    (hok : wrapAs env handle qualified .full bridge = .ok value after) :
    ∃ id, value = .object id handle ∧ after.registry.Owns id handle := by
  obtain ⟨_, middle, hspace, hok⟩ := of_bind_eq_ok hok
  have hspaces : Within (Change env) (discard (namespaceOf env qualified)) :=
    (h.serves.within_namespaceOf qualified).bind fun _ => within_pure _
  have hmiddle := hattained.trans (hspaces.of_eq_ok hspace)
  exact owns_of_wrap_full_eq_ok h hmiddle.filed hnull hok

/-! ## Calls that succeed -/

theorem of_orDrop_eq_ok {α : Type} {values : List Value} {step : Run H α} {value : α}
    (h : orDrop env values step bridge = .ok value after) : step bridge = .ok value after := by
  unfold orDrop at h
  cases hstep : step bridge with
  | ok other middle =>
      rw [hstep] at h
      exact h
  | error error middle =>
      rw [hstep] at h
      cases h

/-- The record is one of the outputs, in a wrapper that owns it. -/
def HandsOver (result : CallResult) (after : Bridge H) (handle : Handle) : Prop :=
  ∃ id, .object id handle ∈ result.outputs ∧ after.registry.Owns id handle

/-- If the results of a call can be made, they hand over the records that the caller made. -/
theorem handsOver_of_complete_eq_ok (h : Governs env (Change env)) (hattained : Attained env bridge)
    {plan : CallPlan} {frame : Frame} (hlisted : Lowering.Listed env plan.args frame)
    (houtputs : ∀ (index : Nat) (arg : CallArg), plan.args[index]? = some arg →
      arg.source = .outSlot → index ∈ plan.outputs)
    {raw : Value} {result : CallResult}
    (hok : complete env plan frame raw bridge = .ok result after) {record : Nat × Handle}
    (hrecord : record ∈ frame.records) (hnull : record.2.isNull = false) :
    HandsOver result after record.2 := by
  obtain ⟨index, handle⟩ := record
  obtain ⟨arg, harg, hsource, _⟩ := hlisted.records _ hrecord
  obtain ⟨place, hplace, hindex⟩ := List.getElem_of_mem (houtputs index arg harg hsource)
  obtain ⟨innerType, hlifts⟩ := hlisted.exists_liftOutput_eq hrecord
  obtain ⟨pending, first, hpending, hok⟩ := of_bind_eq_ok hok
  have hfirst := (h.serves.within_orDrop _
    (within_inCall (h.serves.within_pendingError plan frame))).of_eq_ok hpending
  cases pending with
  | some error =>
      obtain ⟨_, _, _, hok⟩ := of_bind_eq_ok hok
      cases hok
  | none =>
      obtain ⟨value, second, hlifted, hok⟩ := of_bind_eq_ok hok
      have hsecond := (h.serves.within_thenDrop _ (h.serves.within_lift _ _ _)).of_eq_ok hlifted
      obtain ⟨outputs, third, hcollected, hok⟩ := of_bind_eq_ok hok
      cases hok
      obtain ⟨output, houtput, before, behind, hbefore, hlift, hbehind⟩ :=
        of_collect_eq_ok (fun _ => h.serves.within_liftOutput frame _) (of_orDrop_eq_ok hcollected)
          hplace
      rw [List.getD_eq_getElem?_getD, List.getElem?_eq_getElem hplace, hindex, Option.getD_some,
        hlifts] at hlift
      have hreached := ((hattained.trans hfirst).trans hsecond).trans hbefore
      obtain ⟨id, rfl, howns⟩ := owns_of_wrapAs_full_eq_ok h hreached hnull hlift
      exact ⟨id, houtput, owns_of_run hbehind howns⟩

end Bridge

end Interop
