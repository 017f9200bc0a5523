import Interop.Proofs.Bridge.Raised
import Interop.Proofs.Bridge.StartValues

/-! # Calls whose native function fails

A throwing plan ends with the slot for the error. If the native function reports an error the call
fails with it, whatever outputs were stored before and whatever the native function gives. The record
of the error is freed, and so are the records that were made for the native side to fill.
-/

namespace Interop

open Schema Relation Steps

variable {H : Host}

/-! ## The slot of a throwing plan -/

namespace CallBuilder.Built

variable {builder : CallBuilder} {callable : Callable} {owner : Option Owner}
  {described : List Descriptor} {returned : Descriptor} {args : List CallArg} {plan : CallPlan}

/-- The slot for the error is the last argument, and the first that is one. -/
theorem exists_args_eq_append (h : Built builder callable owner described returned args plan)
    (hthrows : callable.throws = true) : ∃ front, plan.args = front ++ [builder.errorArg] ∧
      plan.errorIndex? = some front.length := by
  have hlast : builder.errorArgs callable = [builder.errorArg] := if_pos hthrows
  have hargs := h.args_eq
  rw [hlast] at hargs
  refine ⟨_, hargs, ?_⟩
  have hfront : ∀ arg ∈ receivers callable owner ++ args, (arg.source == .errorSlot) = false := by
    intro arg harg
    rw [beq_eq_false_iff_ne]
    rcases List.mem_append.1 harg with hreceiver | hparam
    · obtain ⟨type, _, rfl⟩ := eq_of_mem_receivers hreceiver
      exact fun hsource => by cases hsource
    · obtain ⟨role, number, param, descriptor, rfl⟩ := h.placed.exists_eq_argOf hparam
      exact source_argOf_ne rfl (by simp) (by simp)
  have hself : List.findIdx? (·.source == .errorSlot) [builder.errorArg] = some 0 := rfl
  rw [CallPlan.errorIndex?, hargs, List.findIdx?_append, List.findIdx?_eq_none_iff.2 hfront, hself,
    Option.none_or, Option.map_some, Nat.zero_add]

end CallBuilder.Built

namespace Lowering

open Bridge

variable {env : Env H} {plan : CallPlan} {receiver : Option Value} {values : List Value}
  {start : Bridge H} {calling : Calling H} {index : Nat} {arg : CallArg}

/-- The records that are noted lie in blocks that have been made since the beginning. -/
def RecordsFrom (start : Nat) (calling : Calling H) : Prop :=
  start ≤ calling.bridge.heap.next ∧ ∀ record ∈ calling.frame.records, ∃ addr,
    record.2 = .ofNat addr ∧ start ≤ addr ∧ addr < calling.bridge.heap.next

theorem lowers_recordsFrom (env : Env H) (start : Nat) : Lowers (Unshared env)
    fun calling calling' : Calling H => RecordsFrom start calling → RecordsFrom start calling' := by
  constructor
  case bridge =>
    rintro bridge bridge' h frame ⟨hstart, hrecords⟩
    have hnext := next_le_of_unshared (.single h)
    refine ⟨Nat.le_trans hstart hnext, fun record hrecord => ?_⟩
    obtain ⟨addr, haddr, hlow, hhigh⟩ := hrecords record hrecord
    exact ⟨addr, haddr, hlow, Nat.lt_of_lt_of_le hhigh hnext⟩
  case frame =>
    rintro frame frame' bridge _ hsame ⟨hstart, hrecords⟩
    exact ⟨hstart, fun record hrecord => hrecords record (hsame ▸ hrecord)⟩

/-- A record that is made lies where the heap had come to. -/
theorem recordsFrom_of_record (start size : Nat) (typeName library : String) (index : Nat) :
    Within (fun calling calling' => RecordsFrom start calling → RecordsFrom start calling') (do
      let handle ← onBridge (inCall (Bridge.alloc size (some typeName) (some library)))
      modifyFrame fun frame => { frame with records := frame.records ++ [(index, handle)] }
      return .pointer handle : Lowering H Value) := by
  intro calling
  rcases alloc_eq size (some typeName) (some library) calling.bridge with hok | ⟨name, _, herror⟩
  · have hmade : onBridge (inCall (Bridge.alloc size (some typeName) (some library))) calling =
        .ok (.ofNat calling.bridge.heap.next) { calling with bridge :=
          { calling.bridge with heap := (calling.bridge.heap.alloc size (some typeName)).2 } } := by
      unfold onBridge inCall
      rw [hok]
      rfl
    rw [bind_eq_of_eq_ok hmade]
    refine .single fun ⟨hstart, hrecords⟩ => ?_
    have hnext : calling.bridge.heap.next < (calling.bridge.heap.alloc size (some typeName)).2.next :=
      Nat.lt_of_le_of_lt (Nat.le_add_right _ _) (Heap.lt_next_alloc _ _ _)
    refine ⟨Nat.le_trans hstart (Nat.le_of_lt hnext), fun record hrecord => ?_⟩
    rcases List.mem_append.1 hrecord with hold | hnew
    · obtain ⟨addr, haddr, hlow, hhigh⟩ := hrecords record hold
      exact ⟨addr, haddr, hlow, Nat.lt_trans hhigh hnext⟩
    · obtain rfl := List.mem_singleton.1 hnew
      exact ⟨_, rfl, hstart, hnext⟩
  · have hmissing : onBridge (inCall (Bridge.alloc size (some typeName) (some library))) calling =
        .error (.dispatch (.libraryNotFound name)) calling := by
      unfold onBridge inCall
      rw [herror]
    rw [bind_eq_of_eq_error hmissing]
    exact .refl

theorem recordsFrom_of_lower_eq_ok
    (h : lower env plan receiver values ⟨start, {}⟩ = .ok ⟨⟩ calling) :
    RecordsFrom start.heap.next calling := by
  have hlowers := lowers_recordsFrom env start.heap.next
  have hwithin : Within (fun calling calling' => RecordsFrom start.heap.next calling →
      RecordsFrom start.heap.next calling') (lower env plan receiver values) := by
    rw [lower_eq]
    refine (Within.forM (fun entry => ?_) _).bind fun _ => Within.forM (fun entry => ?_) _
    · exact within_prepareCallback hlowers (permits_unshared env) values entry.1 entry.2
    · refine Within.bind (within_lowerArg_cases (fun hplain => ?_) fun size typeName library =>
        recordsFrom_of_record _ size typeName library _) fun _ => ?_
      · exact within_lowerArg hlowers.makes (permits_unshared env).works plan receiver values hplain
          entry.2
      · exact fun _ => .single fun hfrom => hfrom
  have hrun := hwithin.of_eq_ok h
  clear h
  induction hrun with
  | refl => exact ⟨Nat.le_refl _, fun _ hrecord => by cases hrecord⟩
  | tail _ hstep ih => exact hstep ih

/-- What is reported is stored in the last argument, if that is a slot for errors. -/
theorem Listed.errorSlot?_nativeCall {frame : Frame} (h : Listed env plan.args frame)
    {front : List CallArg} (hargs : plan.args = front ++ [arg]) {last : NativeArg}
    (hlast : frame.args[front.length]? = some last)
    (herror : NativeCall.isErrorSlot last.descriptor = true) :
    (plan.nativeCall frame).errorSlot? = some front.length := by
  have hlength : frame.args.toList.length = front.length + 1 := by
    have hlisted := congrArg List.length h.descriptors
    rw [List.length_map, List.length_map, hargs, List.length_append] at hlisted
    exact hlisted
  have hsplit : frame.args.toList = frame.args.toList.take front.length ++ [last] := by
    calc frame.args.toList
        = frame.args.toList.take (front.length + 1) := by rw [← hlength, List.take_length]
      _ = frame.args.toList.take front.length ++ (frame.args.toList[front.length]?).toList :=
          List.take_add_one
      _ = frame.args.toList.take front.length ++ [last] := by
          rw [Array.getElem?_toList, hlast]
          rfl
  have hfound := NativeCall.errorSlot?_eq (show (plan.nativeCall frame).args = _ from hsplit) herror
  rwa [List.length_take, hlength, Nat.min_eq_left (Nat.le_succ _)] at hfound

/-- There is room for an address in the slot for the error, behind all that was there before. -/
theorem exists_slot_of_errorSlot (hsound : start.heap.Sound)
    (h : lower env plan receiver values ⟨start, {}⟩ = .ok ⟨⟩ calling)
    (hfits : calling.bridge.heap.next ≤ twoPow 64) (harg : plan.args[index]? = some arg)
    (hsource : arg.source = .errorSlot) {inner : Descriptor}
    (hinner : arg.descriptor = .reference inner) :
    ∃ slot, calling.frame.args[index]? =
        some ⟨.reference inner, .pointer slot, arg.flags.optional⟩ ∧
      start.heap.next ≤ slot.toNat ∧ calling.bridge.heap.Room slot Heap.pointerSize := by
  obtain ⟨value, before, behind, hbefore, _, hmade, hbehind, hthere⟩ :=
    exists_lowerArg_of_lower_eq_ok h harg (by rw [hinner]; rfl)
  rw [lowerArg, hsource] at hmade
  obtain ⟨slot, allotted, hslot, hlast⟩ := of_bind_eq_ok hmade
  cases hlast
  obtain ⟨found, hfound, hheap⟩ :=
    allots_scratch (H := H) (max (inner.slotSize Heap.pointerSize) Heap.pointerSize) before
  rw [hinner] at hslot hthere
  cases hslot.symm.trans hfound
  have hgrown := hbehind.next_le.trans hfits
  have hnext : before.bridge.heap.next < twoPow 64 := by
    have hlt := Heap.lt_next_alloc before.bridge.heap
      (max (inner.slotSize Heap.pointerSize) Heap.pointerSize) none
    rw [← hheap] at hlt
    omega
  have hready := hbefore.sound hsound
  refine ⟨_, hthere, ?_, ?_⟩
  · rw [Handle.toNat_ofNat_of_lt hnext]
    exact hbefore.next_le
  · have hroom := Heap.room_alloc hready hnext
      (max (inner.slotSize Heap.pointerSize) Heap.pointerSize) none
    have hmade := (Heap.framed_alloc before.bridge.heap
      (max (inner.slotSize Heap.pointerSize) Heap.pointerSize) none).sound hready
    rw [← hheap] at hroom hmade
    exact (hroom.mono (Nat.le_max_right _ _)).of_framed hbehind hmade hfits

end Lowering

namespace Bridge

variable {env : Env H} {R : Bridge H → Bridge H → Prop} {call : NativeCall}
  {bridge bridge' : Bridge H} {start : Nat}

/-! ## Before an error and behind it -/

/-- What a native function does before it reports an error, whether it succeeds or not: it stores
outputs, and makes instances and arrays. -/
inductive Prepares (call : NativeCall) (bridge : Bridge H) : Bridge H → Prop
  | setOut (index : Nat) (value : Value) :
      Prepares call bridge (ending (call.setOut index value bridge))
  | newInstance (typeName : String) (size : Nat) :
      Prepares call bridge (ending (NativeCall.newInstance typeName size bridge))
  | returnArray (items : List Value) :
      Prepares call bridge (ending (call.returnArray items bridge))

theorem run_of_prepares
    (halloc : ∀ size typeName, Within R (alloc size typeName none : Native H Handle))
    (hwrite : ∀ handle descriptor offset value,
      Within R (write handle descriptor offset value : Native H Unit))
    (h : ReflTransGen (Prepares call) bridge bridge') : ReflTransGen R bridge bridge' := by
  induction h with
  | refl => exact .refl
  | tail _ hstep ih =>
      refine ih.trans ?_
      cases hstep with
      | setOut index value => exact within_setOut_of (fun _ _ => hwrite _ _ _ _) call index _
      | newInstance typeName size => exact halloc size (some typeName) _
      | returnArray items => exact within_returnArray_of (fun _ => halloc _ _) hwrite call items _

theorem Works.run_of_prepares (h : Works env R)
    (hrun : ReflTransGen (Prepares call) bridge bridge') : ReflTransGen R bridge bridge' :=
  Bridge.run_of_prepares (fun _ _ => h.within_alloc _ _ _) (fun _ _ _ _ => h.within_write _ _ _ _)
    hrun

theorem touches_of_prepares (hrun : ReflTransGen (Prepares call) bridge bridge') :
    bridge.Touches Set.univ bridge' :=
  touches_of_run (run_of_prepares (fun _ _ => (within_touches_alloc _ _ _).mono fun _ _ =>
    .mono (Set.empty_subset _)) within_touches_univ_write hrun)

theorem symbols_of_prepares (env : Env H) (hrun : ReflTransGen (Prepares call) bridge bridge') :
    bridge'.symbols = bridge.symbols :=
  same_of_run (fun bridge : Bridge H => bridge.symbols)
    ((works_of_view env (fun bridge => bridge.symbols) fun _ _ _ _ _ _ _ _ => rfl).run_of_prepares
      hrun)

/-- The blocks that have been made since a bound are left alone, and so are the names of domains. -/
structure Spares (start : Nat) (bridge bridge' : Bridge H) : Prop where
  heap : bridge.heap.KeepsFrom start ∅ bridge'.heap
  names : ∀ quark name, bridge.quarks.name? quark = some name →
    bridge'.quarks.name? quark = some name
  namer : bridge'.symbols.find coreLibrary quarkNamer =
    bridge.symbols.find coreLibrary quarkNamer

theorem spares_refl (start : Nat) (bridge : Bridge H) : Spares start bridge bridge :=
  ⟨Heap.keepsFrom_refl _ _ _, fun _ _ => id, rfl⟩

/-! ## The call -/

variable {fn : H.Native} {plan : CallPlan} {receiver : Option Value} {values : List Value}
  {raw : Value} {made ready raised returned after : Bridge H} {frame : Frame}
  {domain message : String} {code : Int32} {library : String}

/-- The namespace of errors has the library that every program has, if it is there. -/
theorem errorLibrary_eq_coreLibrary
    (h : ∀ resolved, (repo env).resolveQualified? errorType = some resolved →
      resolved.space.library = coreLibrary) : errorLibrary env = coreLibrary := by
  unfold errorLibrary
  cases hresolved : (repo env).resolveQualified? errorType with
  | none => rfl
  | some resolved => exact h resolved hresolved

/-- The error is found in the last slot, and the records are discarded. -/
theorem invoke_eq_of_reports (hsuffice : Suffice plan.params values)
    (hlower : Lowering.lower env plan receiver values ⟨bridge, {}⟩ = .ok ⟨⟩ ⟨made, frame⟩)
    {given : Value}
    (henter : enter env plan.library (plan.nativeCall frame) made = .ok given returned)
    {error : NativeError} (hpending : pendingError env plan frame returned = .ok (some error) after) :
    invoke env plan receiver values bridge = .error (.native error)
      (((after.discardRecords env frame).drop env [given]).releaseFrame env frame) := by
  rw [invoke_eq_of_accepted (checkArity_eq_ok_iff.2 hsuffice), enterPlan_eq_ok hlower henter]
  dsimp only
  rw [complete_eq_of_pendingError hpending]

section Raise

variable {builder : CallBuilder} {callable : Callable} {owner : Option Owner} {usage usage' : Usage}
  (hbuilt : builder.build callable owner usage = .ok plan usage') (hthrows : callable.throws = true)
  (hattained : Attained env bridge)
  (hlower : Lowering.lower env plan receiver values ⟨bridge, {}⟩ = .ok ⟨⟩ ⟨made, frame⟩)
  (hprepared : ReflTransGen (Prepares (plan.nativeCall frame)) made ready)
include hbuilt hthrows hattained hlower hprepared

/-- The error stands in a record of its own, whose address is in the slot of the plan. -/
theorem exists_reports_of_raise
    (hnamer : bridge.symbols.find coreLibrary quarkNamer = .ok .quarkToString)
    (hzero : '\x00' ∉ message.toList) (hquarks : ready.quarks.names.length + 1 < twoPow 32)
    (hfits : (ending ((plan.nativeCall frame).raise domain code.toInt message ready)).heap.next ≤
      twoPow 64) :
    ∃ raised index slot library optional, (plan.nativeCall frame).raise domain code.toInt message
        ready = .ok ⟨⟩ raised ∧
      raised.symbols = bridge.symbols ∧
      raised.quarks = (ready.quarks.intern domain).2 ∧
      plan.errorIndex? = some index ∧
      frame.args[index]? = some ⟨.reference (.boxed errorType library .full
        (some "g_error_get_type")), .pointer slot, optional⟩ ∧
      bridge.heap.next ≤ slot.toNat ∧ ready.heap.next < raised.heap.next ∧
      raised.heap.Reports slot (.ofNat ready.heap.next) (ready.quarks.intern domain).1 code
        message := by
  obtain ⟨_, _, _, h⟩ := CallBuilder.exists_built_of_build hbuilt
  obtain ⟨front, hargs, hindex⟩ := h.exists_args_eq_append hthrows
  have hlast : plan.args[front.length]? = some builder.errorArg := by
    rw [hargs, List.getElem?_concat_length]
  have hspaced := hattained.spaced
  have hmade := Lowering.run_of_lower_eq_ok (permits_unshared env) hlower
  have hgrown := (touches_of_prepares hprepared).next_le
  have hready : ready.heap.next ≤ twoPow 64 := (next_le_of_unshared
    ((permits_unshared env).works.within_raise _ domain code.toInt message ready)).trans hfits
  have hmadeSound := (hattained.trans (changes_of_unshared hmade)).spaced.sound
  obtain ⟨slot, hthere, hstart, hroom⟩ := Lowering.exists_slot_of_errorSlot
    hattained.spaced.sound hlower (hgrown.trans hready) hlast rfl rfl
  have hplace := (Lowering.listed_of_lower_eq_ok hlower).errorSlot?_nativeCall hargs hthere rfl
  have hsymbols : ready.symbols = bridge.symbols :=
    (symbols_of_prepares env hprepared).trans (Lowering.symbols_of_lower_eq_ok hlower)
  have hlibrary : ready.symbols.hasLibrary coreLibrary = true := by
    rw [hsymbols]
    exact SymbolTable.hasLibrary_of_find_eq_ok hnamer
  obtain ⟨heap, hraise, hlt, hreports⟩ := exists_raise_eq_ok hplace
    ((Array.getElem?_toList ..).trans hthere) hlibrary
    ((touches_of_prepares hprepared).sound hmadeSound)
    (hroom.of_framed (touches_of_prepares hprepared) hmadeSound hready) hzero hquarks hfits
  exact ⟨_, _, slot, _, _, hraise, hsymbols, rfl, hindex, hthere, hstart, hlt, hreports⟩

end Raise

/-- The error is found as long as what has been made for the call is left alone. -/
theorem pendingError_eq_of_spares {slot record : Handle} {quark index : Nat} {optional : Bool}
    {getType : Option String} {ownership : Ownership}
    (hreports : raised.heap.Reports slot record quark code message)
    (hspaced : bridge.heap.Spaced) (hrun : ReflTransGen Heap.Step bridge.heap raised.heap)
    (hslot : bridge.heap.next ≤ slot.toNat) (hrecord : bridge.heap.next ≤ record.toNat)
    (hname : raised.quarks.name? quark = some domain) (hquark : quark < twoPow 32)
    (hnamer : raised.symbols.find coreLibrary quarkNamer = .ok .quarkToString)
    (hlibrary : errorLibrary env = coreLibrary) (hindex : plan.errorIndex? = some index)
    (harg : frame.args[index]? =
      some ⟨.reference (.boxed errorType library ownership getType), .pointer slot, optional⟩)
    (hspares : Spares bridge.heap.next raised returned) (hsound : returned.heap.Sound) :
    pendingError env plan frame returned =
      .ok (some ⟨domain, code.toInt, message⟩) (attempt (release env record none) returned) := by
  obtain ⟨block, hlocate, _⟩ := Heap.of_bytes_eq_ok hreports.slot
  have hkept := hreports.of_keepsFrom hspares.heap hsound hlocate
    (hspaced.le_base_of_locate? hrun hlocate hslot) hrecord
  have hnull : slot.isNull = false :=
    Handle.isNull_eq_false_iff.2 (Nat.lt_of_lt_of_le hspaced.sound.next_pos hslot)
  refine pendingError_eq_ok hkept hsound (hspares.names quark domain hname) hquark ?_ hindex harg
    hnull
  rw [hlibrary, hspares.namer]
  exact hnamer

/-- When a call fails with a native error, the record of the error is freed and so are those that
were made for the native side to fill, if nobody else refers to them. -/
theorem free_of_pendingError {handle record : Handle} (hgoverns : Governs env (Change env))
    (hspaced : returned.heap.Spaced) (hlone : returned.heap.Lone handle.toNat)
    (hbound : handle.toNat < returned.heap.next)
    (hmem : handle = record ∨ handle ∈ frame.records.map (·.2)) (given : Value) :
    ((((attempt (release env record none) returned).discardRecords env frame).drop env
      [given]).releaseFrame env frame).heap.Free handle.toNat := by
  have htaken := hgoverns.serves.attempt_release record none returned
  have hdiscarded :=
    hgoverns.serves.discardRecords frame (attempt (release env record none) returned)
  have hlast := (hgoverns.serves.dropAll [given] _).trans (hgoverns.closes.releaseFrame frame
    (((attempt (release env record none) returned).discardRecords env frame).drop env [given]))
  have hbehind {behind : Bridge H} (hrun : ReflTransGen (Change env) returned behind) :
      behind.heap.Spaced ∧ handle.toNat < behind.heap.next :=
    ⟨Heap.spaced_of_reflTransGen (heap_of_changes hrun) hspaced,
      Nat.lt_of_lt_of_le hbound (Heap.next_le_of_reflTransGen (heap_of_changes hrun))⟩
  rcases hmem with rfl | hmem
  · obtain ⟨hpending, hreach⟩ := hbehind htaken
    exact free_of_run (free_release hlone) hpending hreach (hdiscarded.trans hlast)
  · have hkept : (attempt (release env record none) returned).heap.Lone handle.toNat := by
      rcases attempt_release_cases env record returned with ⟨heap, hunref, hafter⟩ | ⟨_, _, hafter⟩
      · rw [hafter]
        exact hlone.of_unref_eq_ok hunref
      · rwa [hafter]
    obtain ⟨hpending, hreach⟩ := hbehind (htaken.trans hdiscarded)
    exact free_of_run (free_discardRecords hkept hmem) hpending hreach hlast

/-- If the native function of a throwing plan reports an error, the call fails with this error,
whatever outputs have been stored before and whatever the native function gives. Neither the record
of the error is left nor one that was made for the native side to fill. The names of domains come from
the function that every program has, and if the native function gives a value that is nothing to the
caller, giving it up leaves alone what has been made for the call. Addresses are assumed to fit into
64 bits, and numbers of domains into 32. -/
theorem invoke_eq_native_error_of_build {builder : CallBuilder} {callable : Callable}
    {owner : Option Owner} {usage usage' : Usage} (hgoverns : Governs env (Change env))
    (hattained : Attained env bridge) (hbuilt : builder.build callable owner usage = .ok plan usage')
    (hthrows : callable.throws = true)
    (hlibrary : ∀ resolved, (repo env).resolveQualified? errorType = some resolved →
      resolved.space.library = coreLibrary)
    (hnamer : bridge.symbols.find coreLibrary quarkNamer = .ok .quarkToString)
    (hfind : bridge.symbols.find plan.library plan.symbol = .ok (.host fn))
    (hsuffice : Suffice plan.params values)
    (hlower : Lowering.lower env plan receiver values ⟨bridge, {}⟩ = .ok ⟨⟩ ⟨made, frame⟩)
    (hprepared : ReflTransGen (Prepares (plan.nativeCall frame)) made ready)
    (hnative : env.native fn (plan.nativeCall frame) made = (do
      (plan.nativeCall frame).raise domain code.toInt message
      return raw) ready)
    (hzero : '\x00' ∉ message.toList) (hquarks : ready.quarks.names.length + 1 < twoPow 32)
    (hfits : (ending ((plan.nativeCall frame).raise domain code.toInt message ready)).heap.next ≤
      twoPow 64)
    (hspares : plan.returns.isNull = true → ∀ raised,
      (plan.nativeCall frame).raise domain code.toInt message ready = .ok ⟨⟩ raised →
      Spares bridge.heap.next raised (raised.drop env [raw])) :
    ∃ raised last,
      (plan.nativeCall frame).raise domain code.toInt message ready = .ok ⟨⟩ raised ∧
      raised.heap.Starts (.ofNat ready.heap.next) "GError" NativeCall.errorSize ∧
      invoke env plan receiver values bridge =
        .error (.native ⟨domain, code.toInt, message⟩) last ∧
      last.heap.Free ready.heap.next ∧
      ∀ record ∈ frame.records, last.heap.Free record.2.toNat := by
  obtain ⟨raised, index, slot, _, _, hraise, hsymbols, hquark, hindex, harg, hslot, hlt, hreports⟩ :=
    exists_reports_of_raise hbuilt hthrows hattained hlower hprepared hnamer hzero hquarks hfits
  have hmade := Lowering.run_of_lower_eq_ok (permits_unshared env) hlower
  rw [bind_eq_of_eq_ok hraise] at hnative
  obtain ⟨given, henter⟩ := enter_eq_ok_of_native_eq_ok hlower hfind hnative
  have hspaced := hattained.spaced
  have hmadeRun := hmade.trans ((permits_unshared env).works.run_of_prepares hprepared)
  have hraised : ReflTransGen (Unshared env) ready raised :=
    ((permits_unshared env).works.within_raise _ domain code.toInt message).of_eq_ok hraise
  have hbefore := hmadeRun.trans hraised
  have hnext : raised.heap.next ≤ twoPow 64 := by
    rw [hraise] at hfits
    exact hfits
  have hrecord : (Handle.ofNat ready.heap.next).toNat = ready.heap.next :=
    Handle.toNat_ofNat_of_lt (Nat.lt_of_lt_of_le hlt hnext)
  -- a value that is nothing to the caller is given up before the slot is looked at
  let returned := if plan.returns.isNull then raised.drop env [raw] else raised
  have hreturned : ReflTransGen (Change env) raised returned ∧
      Spares bridge.heap.next raised returned := by
    unfold returned
    split
    next hnull => exact ⟨hgoverns.serves.dropAll [raw] raised, hspares hnull raised hraise⟩
    next => exact ⟨.refl, spares_refl _ _⟩
  have hafter := (hattained.trans ((changes_of_unshared hbefore).trans hreturned.1)).spaced
  have hpending := pendingError_eq_of_spares hreports hspaced
    (heap_of_changes (changes_of_unshared hbefore)) hslot
    (hrecord.symm ▸ next_le_of_unshared hmadeRun) (hquark ▸ QuarkTable.name?_intern _ domain)
    (Nat.lt_of_le_of_lt (QuarkTable.intern_le _ domain) hquarks) (hsymbols ▸ hnamer)
    (errorLibrary_eq_coreLibrary hlibrary) hindex harg hreturned.2 hafter.sound
  have hfree : ∀ handle : Handle, bridge.heap.next ≤ handle.toNat →
      handle.toNat < raised.heap.next →
      (handle = .ofNat ready.heap.next ∨ handle ∈ frame.records.map (·.2)) →
      ((((attempt (release env (.ofNat ready.heap.next) none) returned).discardRecords env
        frame).drop env [given]).releaseFrame env frame).heap.Free handle.toNat := by
    intro handle hlow hhigh hmem
    have hfresh := (Heap.fresh_of_spaced hspaced).of_run (heap_of_unshared hbefore)
    have hlone := (hfresh.single.lone hlow).of_keepsFrom hfresh.spaced
      (heap_of_changes hreturned.1) hreturned.2.heap hlow hhigh
    exact free_of_pendingError hgoverns hafter hlone (Nat.lt_of_lt_of_le hhigh
      (Heap.next_le_of_reflTransGen (heap_of_changes hreturned.1))) hmem given
  refine ⟨raised, _, hraise, hreports.starts, invoke_eq_of_reports hsuffice hlower henter hpending,
    ?_, fun record hmem => ?_⟩
  · have hself := hfree (.ofNat ready.heap.next)
    rw [hrecord] at hself
    exact hself (next_le_of_unshared hmadeRun) hlt (.inl rfl)
  · obtain ⟨addr, haddr, hlow, hhigh⟩ := (Lowering.recordsFrom_of_lower_eq_ok hlower).2 record hmem
    have hgrown := Nat.lt_of_lt_of_le hhigh (touches_of_prepares hprepared).next_le
    have hsame : record.2.toNat = addr := by
      rw [haddr]
      exact Handle.toNat_ofNat_of_lt (by omega)
    exact hfree record.2 (hsame ▸ hlow) (by omega) (.inr (List.mem_map_of_mem hmem))

/-! ## A closed hall -/

/-- A native function that offers a seat and then reports that the door is closed. -/
def closed (call : NativeCall) : Native greeter Value := do
  call.setOut 1 (.int 3)
  call.raise "n-door" 7 "closed"
  return .null

/-- A program with this function, in which there is a type for errors. -/
def hallEnv : Env greeter where
  compiler := .ofRepository (.ofSpaces [welcome,
    { name := "GLib"
      libraries := [coreLibrary]
      records := [{ name := "Error", getType := some "g_error_get_type" }] }]) {}
  native _ call := closed call
  effect _ _ := return ⟨⟩
  managed := nofun

theorem governs_hallEnv : Governs hallEnv (Change hallEnv) :=
  { permits_change hallEnv with
    native := fun _ call => ((permits_change hallEnv).works.within_setOut call 1 _).bind fun _ =>
      ((permits_change hallEnv).works.within_raise call _ _ _).bind fun _ => within_pure _
    effect := fun _ _ => within_pure _
    managed := nofun }

/-- A function that fills a record, gives a seat, has an output that is an error, and may fail. -/
def admission : Callable where
  name := "admission"
  symbol := "n_greet"
  params := [
    { name := "guest", type := .named "Guest", direction := .output, callerAllocates := true },
    { name := "seat", type := .named "gint", direction := .output },
    { name := "warning", type := .named "GLib.Error", direction := .output }]
  throws := true

def admitPlan : CallPlan :=
  (value? ((hallEnv.compiler.builder welcome).build admission none {})).getD default

/-- The state in which the arguments are made. -/
def admitting : Calling greeter := lowered hallEnv admitPlan none [] greeterBridge

/-- The state in which the seat is given. -/
def seated : Bridge greeter :=
  ending ((admitPlan.nativeCall admitting.frame).setOut 1 (.int 3) admitting.bridge)

/-- The caller learns that the door is closed. The record of the guest is freed, and so is the one of
the error; the seat is not seen, and the other output is not taken for the error. -/
theorem admit_closed : ∃ usage last,
    (hallEnv.compiler.builder welcome).build admission none {} = .ok admitPlan usage ∧
      admitPlan.outputs = [0, 1, 2] ∧ admitPlan.errorIndex? = some 3 ∧
      admitting.frame.records = [(0, .ofNat 4096)] ∧
      invoke hallEnv admitPlan none [] greeterBridge =
        .error (.native ⟨"n-door", 7, "closed"⟩) last ∧
      last.heap.Free seated.heap.next ∧ last.heap.Free 4096 := by
  obtain ⟨usage, hbuilt⟩ : ∃ usage, (hallEnv.compiler.builder welcome).build admission none {} =
      .ok admitPlan usage := ⟨_, eq_ok_of_isSome default (by decide +kernel)⟩
  have hlower : Lowering.lower hallEnv admitPlan none [] ⟨greeterBridge, {}⟩ =
      .ok ⟨⟩ ⟨admitting.bridge, admitting.frame⟩ :=
    eq_ok_of_isSome ⟨⟩ (by decide +kernel)
  have hset : (admitPlan.nativeCall admitting.frame).setOut 1 (.int 3) admitting.bridge =
      .ok ⟨⟩ seated := eq_ok_of_isSome ⟨⟩ (by decide +kernel)
  have hlibrary : ∀ resolved, (repo hallEnv).resolveQualified? errorType = some resolved →
      resolved.space.library = coreLibrary := by
    intro resolved hresolved
    have hspace : ((repo hallEnv).resolveQualified? errorType).map (·.space.library) =
        some coreLibrary := by decide +kernel
    rw [hresolved] at hspace
    exact Option.some.inj hspace
  have hattained : Attained hallEnv greeterBridge := ⟨(), .single (.other rfl rfl rfl)⟩
  have hsuffice : Suffice admitPlan.params [] := by decide +kernel
  have hnative : closed (admitPlan.nativeCall admitting.frame) admitting.bridge = (do
      (admitPlan.nativeCall admitting.frame).raise "n-door" (Int32.toInt 7) "closed"
      return Value.null) seated := bind_eq_of_eq_ok hset
  obtain ⟨raised, last, _, _, hinvoke, hrecord, hrecords⟩ :=
    invoke_eq_native_error_of_build governs_hallEnv hattained hbuilt rfl hlibrary rfl rfl
      hsuffice hlower (.single (.setOut 1 (.int 3))) hnative (by decide) (by decide +kernel)
      (by decide +kernel) fun _ _ _ => by
        rw [drop_eq_of_sharesOf_eq_nil rfl]
        exact spares_refl _ _
  have hfilled : admitting.frame.records = [(0, .ofNat 4096)] := by decide +kernel
  refine ⟨usage, last, hbuilt, by decide +kernel, by decide +kernel, hfilled, hinvoke, hrecord, ?_⟩
  exact hrecords (0, .ofNat 4096) (by rw [hfilled]; exact List.mem_singleton_self _)

end Bridge

end Interop
