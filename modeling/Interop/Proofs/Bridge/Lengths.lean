import Interop.Proofs.Bridge.ArrayArguments
import Interop.Proofs.Call.Grammar
import Interop.Proofs.Memory.Encodings

/-! # How many items an array has

The number of items of an array is fixed, or native code sets it in a slot that the caller does not
see, or the array ends in front of the first element that is read as zero. No item is read as zero
unless it is zero, and the element behind the items is, so the scan stops behind the last item.
-/

namespace Interop

open Schema Relation Steps

variable {H : Host}

/-! ## Zero elements -/

namespace Value

variable {value : Value}

/-- However a value is looked at, it is seen whether it is zero. -/
theorem isZero_of_asBool? {flag : Bool} (h : value.asBool? = some flag) :
    value.stored.isZero = !flag := by
  cases value with
  | bool | int | uint =>
      cases h
      simp [stored, isZero, bne]
  | _ => cases h

theorem isZero_of_asInt? {n : Int64} (h : value.asInt? = some n) :
    value.stored.isZero = (n == 0) := by
  cases value with
  | bool flag =>
      cases h
      cases flag <;> rfl
  | int =>
      cases h
      rfl
  | uint number =>
      simp only [asInt?] at h
      split at h
      · cases h
        change (number == 0) = (number.toInt64 == 0)
        rw [Bool.eq_iff_iff, beq_iff_eq, beq_iff_eq]
        refine ⟨fun hzero => hzero ▸ rfl, fun hzero => ?_⟩
        rw [← UInt64.toUInt64_toInt64 number, hzero]
        rfl
      · cases h
  | _ => cases h

theorem isZero_of_asUInt? {n : UInt64} (h : value.asUInt? = some n) :
    value.stored.isZero = (n == 0) := by
  cases value with
  | bool flag =>
      cases h
      cases flag <;> rfl
  | uint | pointer =>
      cases h
      rfl
  | int number =>
      simp only [asUInt?] at h
      split at h
      · cases h
        change (number == 0) = (number.toUInt64 == 0)
        rw [Bool.eq_iff_iff, beq_iff_eq, beq_iff_eq]
        refine ⟨fun hzero => hzero ▸ rfl, fun hzero => ?_⟩
        rw [← Int64.toInt64_toUInt64 number, hzero]
        rfl
      · cases h
  | _ => cases h

theorem isZero_of_asHandle? {handle : Handle} (h : value.asHandle? = some handle) :
    value.stored.isZero = handle.isNull := by
  cases value with
  | null | pointer | object =>
      cases h
      rfl
  | _ => cases h

end Value

/-- A number, a truth value or an address is read as zero only if it is zero. -/
theorem PrimitiveKind.isZero_represented {kind : PrimitiveKind} (hexact : kind.isExact = true)
    {value read : Value} (h : kind.represent? value = some read) :
    read.isZero = value.stored.isZero := by
  cases kind with
  | void | float | double => cases hexact
  | bool =>
      obtain ⟨flag, hview, rfl⟩ := Option.map_eq_some_iff.1 h
      exact (Value.isZero_of_asBool? hview).symm
  | int8 | int16 | int32 | int64 =>
      obtain ⟨number, hview, rfl⟩ := Option.map_eq_some_iff.1 h
      exact (Value.isZero_of_asInt? hview).symm
  | uint8 | uint16 | uint32 | uint64 | unichar | gtype =>
      obtain ⟨number, hview, rfl⟩ := Option.map_eq_some_iff.1 h
      exact (Value.isZero_of_asUInt? hview).symm
  | pointer =>
      obtain ⟨handle, hview, rfl⟩ := Option.map_eq_some_iff.1 h
      rw [Value.isZero_of_asHandle? hview]
      cases hnull : handle.isNull with
      | true => rfl
      | false => exact hnull

/-- Whether no bytes but zeros are read as zero, as for whole numbers, truth values and texts. -/
def Descriptor.isMarked : Descriptor → Bool
  | .primitive kind _ => kind.isExact
  | .string _ => true
  | _ => false

namespace Heap

variable {heap : Heap} {element : Descriptor} {item found : Value} {base : Handle} {offset : Nat}

theorem isZero_represented (hmarked : element.isMarked = true)
    (h : heap.represent? element item = some (.ok found)) : found.isZero = item.stored.isZero := by
  cases element with
  | primitive kind size =>
      obtain ⟨read, hread, hfound⟩ := Option.map_eq_some_iff.1 h
      cases hfound
      exact PrimitiveKind.isZero_represented hmarked hread
  | string ownership =>
      rcases represent?_string_cases h with ⟨_, rfl, rfl⟩ |
        ⟨target, htarget, ⟨hnull, rfl⟩ | ⟨hthere, _, rfl⟩⟩
      · rfl
      · exact ((Value.isZero_of_asHandle? htarget).trans hnull).symm
      · exact ((Value.isZero_of_asHandle? htarget).trans hthere).symm
  | _ => cases hmarked

/-- Zeros are read as what ends an array. -/
theorem exists_read_zeros (hscalar : element.IsScalar) (hmarked : element.isMarked = true)
    (hnull : base.isNull = false)
    (h : heap.bytes base offset (element.slotSize pointerSize) =
      .ok (List.replicate (element.slotSize pointerSize) 0)) :
    ∃ zero, heap.read base element offset = .ok zero ∧ zero.isZero = true := by
  cases element with
  | primitive kind size =>
      obtain rfl : size = kind.size pointerSize := hscalar
      refine ⟨_, read_primitive hnull h, ?_⟩
      cases kind with
      | void | float | double => cases hmarked
      | _ => decide
  | string ownership =>
      have hzero : bytesOf pointerSize Handle.null.toNat = List.replicate pointerSize 0 := by decide
      exact ⟨.null, read_string hnull (hzero ▸ h), rfl⟩
  | _ => cases hmarked

end Heap

namespace Bridge

/-! ## Scanning -/

variable {bridge : Bridge H} {base : Handle} {element : Descriptor} {stride index bound : Nat}
  {items : List Value}

section Scan

variable (hsound : bridge.heap.Sound)
  (hlays : bridge.heap.Lays base element stride (items.length + 1) items)
  (hscalar : element.IsScalar) (hmarked : element.isMarked = true)
  (hstride : stride = element.slotSize Heap.pointerSize)
  (hlegible : ∀ item ∈ items, bridge.heap.Legible element item)
  (hitems : ∀ item ∈ items, item.stored.isZero = false)
include hsound hlays hscalar hmarked hstride hlegible hitems

/-- From any item on, the scan goes to the element behind the last one. By induction over the number
of elements that may be looked at. -/
theorem findEnd_eq_ok (hindex : index ≤ items.length) (hbound : items.length < index + bound) :
    findEnd base element stride index bound bridge = .ok items.length bridge := by
  induction bound generalizing index with
  | zero => omega
  | succ bound ih =>
      rw [findEnd]
      rcases Nat.lt_or_eq_of_le hindex with hlt | rfl
      · have hitem := List.getElem?_eq_getElem hlt
        have hmem := List.mem_of_getElem? hitem
        obtain ⟨found, hfound, hread⟩ := hlays.exists_read hsound hitem (hlegible _ hmem)
        have hzero : found.isZero = false :=
          (Heap.isZero_represented hmarked hfound).trans (hitems _ hmem)
        have hfirst : read base element (index * stride) bridge = .ok found bridge := by
          rw [read_eq, hread]
          rfl
        rw [bind_eq_of_eq_ok hfirst, hzero]
        exact ih hlt (by omega)
      · have hzeros := hlays.rest items.length (Nat.le_refl _) (Nat.lt_succ_self _)
        rw [hstride] at hzeros
        obtain ⟨zero, hread, hzero⟩ :=
          Heap.exists_read_zeros hscalar hmarked (hlays.isNull hsound) hzeros
        have hlast : read base element (items.length * stride) bridge = .ok zero bridge := by
          rw [read_eq, hstride, hread]
          rfl
        rw [bind_eq_of_eq_ok hlast, hzero]
        rfl

/-- The scan ends in front of the zero: the block has room for as many elements as are looked at. -/
theorem terminatedLength_eq_ok :
    terminatedLength base element stride bridge = .ok items.length bridge := by
  have hpos : 0 < stride := by
    rw [hstride]
    cases element with
    | primitive kind size =>
        obtain rfl : size = kind.size Heap.pointerSize := hscalar
        cases kind with
        | void | float | double => cases hmarked
        | _ => decide
    | string => exact Nat.zero_lt_succ 7
    | _ => cases hmarked
  obtain ⟨block, hlocate, hreach, _⟩ :=
    Heap.of_bytes_eq_ok (hlays.rest items.length (Nat.le_refl _) (Nat.lt_succ_self _))
  -- every element takes a byte at least, so there are no more of them than bytes
  have hroom : items.length < block.size + 1 := by
    have := Nat.mul_le_mul_left items.length hpos
    omega
  have hscan := findEnd_eq_ok hsound hlays hscalar hmarked hstride hlegible hitems
    (Nat.zero_le _) (hroom.trans_le (Nat.zero_add _).ge)
  have hstrideNe : (stride == 0) = false := beq_false_of_ne (Nat.ne_of_gt hpos)
  unfold terminatedLength
  have hget : (get : Native H (Bridge H)) bridge = .ok bridge bridge := rfl
  cases element with
  | primitive | string =>
      rw [hstrideNe, Bool.or_false, if_neg Bool.false_ne_true]
      refine (bind_eq_of_eq_ok hget).trans ?_
      rw [hlocate]
      exact hscan
  | _ => cases hmarked

end Scan

end Bridge

namespace Value

/-- A number is counted alike with a sign and without one. -/
theorem toInt_eq_of_views {number : Value} {signed : Int64} {unsigned : UInt64}
    (hsigned : number.asInt? = some signed) (hunsigned : number.asUInt? = some unsigned) :
    signed.toInt = unsigned.toNat := by
  cases number with
  | bool flag =>
      cases hsigned
      cases hunsigned
      cases flag <;> rfl
  | int number =>
      cases hsigned
      by_cases hle : 0 ≤ signed
      · obtain ⟨n, hview, hsame⟩ := exists_asUInt?_int (Int64.le_iff_toInt_le.1 hle)
        obtain rfl := Option.some.inj (hview.symm.trans hunsigned)
        exact hsame.symm
      · rw [asUInt?, if_neg hle] at hunsigned
        cases hunsigned
  | uint number =>
      cases hunsigned
      by_cases hlt : unsigned.toNat < twoPow 63
      · obtain ⟨n, hview, hsame⟩ := exists_asInt?_uint hlt
        obtain rfl := Option.some.inj (hview.symm.trans hsigned)
        exact hsame
      · rw [asInt?, if_neg hlt] at hsigned
        cases hsigned
  | _ => cases hsigned

theorem nonNull?_eq_some {value : Value} {slot : Handle} (hhandle : value.asHandle? = some slot)
    (hnull : slot.isNull = false) : value.nonNull? = some slot := by
  rw [nonNull?, hhandle]
  exact Option.filter_eq_some_iff.2 ⟨rfl, by rw [hnull]; rfl⟩

end Value

/-! ## The slot of a hidden length -/

/-- A number is read from a slot as one that stands for the same. -/
theorem Heap.exists_read_of_write {heap heap' : Heap} {slot : Handle} {type : PrimitiveKind}
    {number : Value} {u : Unit} (hsound : heap.Sound)
    (h : write slot (.primitive type (type.size pointerSize)) 0 number heap = .ok u heap') :
    ∃ bytes, heap'.bytes slot 0 (type.size pointerSize) = .ok bytes ∧
      type.content? (type.decode bytes) = type.content? number := by
  have hscalar : (Descriptor.primitive type (type.size pointerSize)).IsScalar := rfl
  obtain ⟨middle, new, hwritten, hstore⟩ := exists_written hscalar h
  have hbytes := bytes_store_self (hwritten.sound hsound) hstore
  rw [hwritten.length_eq] at hbytes
  refine ⟨new, hbytes, ?_⟩
  cases hwritten with
  | number hencode =>
      exact PrimitiveKind.content?_represented (PrimitiveKind.represent?_eq_decode hencode)

/-- Numbers, truth values and texts that native code writes to have the sizes that its memory has. -/
theorem CallBuilder.Built.isScalar {builder : CallBuilder} {callable : Callable}
    {owner : Option Owner} {described : List Descriptor} {returned inner : Descriptor}
    {args : List CallArg} {plan : CallPlan} {native : Nat} {arg : CallArg}
    (h : Built builder callable owner described returned args plan)
    (hpointer : builder.pointerSize = Heap.pointerSize) (harg : plan.args[native]? = some arg)
    (hsource : arg.source ≠ .receiver) (hinner : arg.descriptor = .reference inner)
    (hbasic : inner.isBasic = true) : inner.IsScalar := by
  have hformed := h.wellFormed_arg harg fun hreceiver => absurd hreceiver hsource
  have hlayered := hformed.layered [.inner] inner (by rw [hinner]; rfl)
  cases inner with
  | primitive type size =>
      rw [Descriptor.IsScalar, ← hpointer]
      exact hlayered.2
  | string => trivial
  | _ => cases hbasic

/-- The argument holds the length of an array, which the caller does not pass. -/
def CallArg.holdsLength (arg : CallArg) : Bool :=
  match arg.source with
  | .arrayLength _ | .returnLength => true
  | _ => false

namespace Lowering

open Bridge

variable {env : Env H} {plan : CallPlan} {receiver : Option Value} {values : List Value}
  {arg : CallArg} {index : Nat} {inner : Descriptor} {value : Value} {handle : Handle}
  {calling calling' : Calling H}

/-- There is something at a block that is new. -/
theorem Allots.isNull {size : Nat} {make : Lowering H Handle} (h : Allots size make)
    (hsound : calling.bridge.heap.Sound) (hmake : make calling = .ok handle calling')
    (hfits : calling'.bridge.heap.next ≤ twoPow 64) : handle.isNull = false := by
  obtain ⟨made, hmade, hheap⟩ := h calling
  rw [hmake] at hmade
  cases hmade
  have hnext := Heap.lt_next_alloc calling.bridge.heap size none
  have hpos := hsound.next_pos
  rw [← hheap] at hnext
  rw [Handle.isNull_eq_false_iff, Handle.toNat_ofNat_of_lt (by omega)]
  exact hpos

/-- Native code gets a slot for a length that it can set. -/
theorem isNull_of_lowerArg_length (hsound : calling.bridge.heap.Sound)
    (hfits : calling'.bridge.heap.next ≤ twoPow 64) (hlength : arg.holdsLength = true)
    (hinner : arg.descriptor = .reference inner)
    (h : lowerArg env plan receiver values arg index calling = .ok value calling')
    (hhandle : value.asHandle? = some handle) : handle.isNull = false := by
  obtain ⟨size, hslot⟩ := allots_slot (H := H) arg.descriptor
  unfold lowerArg at h
  cases hsource : arg.source with
  | returnLength =>
      rw [hsource] at h
      obtain ⟨found, made, hmake, hlast⟩ := of_bind_eq_ok h
      cases hlast
      cases hhandle
      exact hslot.isNull hsound hmake hfits
  | arrayLength array =>
      rw [hsource] at h
      dsimp only at h
      unfold lowerLength at h
      split at h
      next =>
        obtain ⟨found, made, hmake, hrest⟩ := of_bind_eq_ok h
        rw [hinner] at hrest
        obtain ⟨_, written, hwrite, hlast⟩ := of_bind_eq_ok hrest
        cases hlast
        cases hhandle
        have hbehind := Calling.touches_of_run
          ((within_touches_write _ _ _ _).of_eq_ok hwrite)
        exact hslot.isNull hsound hmake (Nat.le_trans hbehind.next_le hfits)
      next =>
        cases h
        rw [hinner] at hhandle
        cases hhandle
  | _ =>
      rw [CallArg.holdsLength, hsource] at hlength
      cases hlength

end Lowering

namespace Bridge

variable {env : Env H} {plan : CallPlan} {receiver : Option Value} {values items : List Value}
  {frame : Frame} {bridge before returned set : Bridge H} {element inner : Descriptor}
  {value number : Value} {length : ArrayLength} {stride index : Nat} {base : Handle}

/-- A whole number that a slot holds is what it says about a length. -/
theorem lengthAt_eq_ok {args : Array NativeArg} {slot : Handle} {optional : Bool}
    {type : PrimitiveKind} {size count : Nat} {number : Value}
    (harg : args[index]? = some ⟨.reference (.primitive type size), value, optional⟩)
    (hslot : value.nonNull? = some slot)
    (hread : bridge.heap.read slot (.primitive type size) 0 = .ok number)
    (hnumber : type.content? number = some (.number count)) :
    lengthAt args index bridge = .ok count bridge := by
  have hfirst : inCall (read slot (.primitive type size) 0) bridge = .ok number bridge := by
    rw [inCall, read_eq, hread]
    rfl
  rw [lengthAt, harg]
  dsimp only
  rw [hslot]
  refine (bind_eq_of_eq_ok hfirst).trans (congrArg (EStateM.Result.ok · bridge) ?_)
  -- a number is looked at with its sign first, and without it if it has none
  cases type with
  | int8 | int16 | int32 | int64 =>
      obtain ⟨signed, hsigned, hcount⟩ := Option.map_eq_some_iff.1 hnumber
      rw [hsigned]
      have hsame : signed.toInt = count := PrimitiveKind.Content.number.inj hcount
      dsimp only
      omega
  | uint8 | uint16 | uint32 | uint64 | unichar | gtype =>
      obtain ⟨unsigned, hunsigned, hcount⟩ := Option.map_eq_some_iff.1 hnumber
      have hsame : unsigned.toNat = count := Int.ofNat.inj (PrimitiveKind.Content.number.inj hcount)
      cases hsigned : number.asInt? with
      | none =>
          rw [hunsigned]
          exact hsame
      | some signed =>
          have hviews := Value.toInt_eq_of_views hsigned hunsigned
          dsimp only
          omega
  | bool | pointer =>
      obtain ⟨_, _, hcount⟩ := Option.map_eq_some_iff.1 hnumber
      cases hcount
  | void | float | double => cases hnumber

/-- An output is set where its slot is, if there is one. -/
theorem of_setOut_eq_ok {call : NativeCall} {optional : Bool} {u : Unit}
    (harg : call.args[index]? = some ⟨.reference inner, value, optional⟩)
    (h : call.setOut index number before = .ok u set) :
    ∃ slot, value.asHandle? = some slot ∧
      (slot.isNull = true ∧ set = before ∨
        slot.isNull = false ∧ Heap.write slot inner 0 number before.heap = .ok ⟨⟩ set.heap) := by
  cases hhandle : value.asHandle? with
  | none =>
      obtain ⟨_, _, hview, _⟩ := of_bind_eq_ok h
      have hvalue : (call.arg index : Native H Value) = pure value := by
        rw [NativeCall.arg, harg]
      rw [NativeCall.handle, NativeCall.view, hvalue, pure_bind, hhandle] at hview
      cases hview
  | some slot =>
      refine ⟨slot, rfl, ?_⟩
      have hfirst : (call.handle index : Native H Handle) before = .ok slot before :=
        view_eq_ok _ harg hhandle
      rw [NativeCall.setOut, bind_eq_of_eq_ok hfirst] at h
      cases hnull : slot.isNull with
      | true =>
          rw [hnull] at h
          cases h
          exact .inl ⟨rfl, rfl⟩
      | false =>
          rw [hnull, NativeCall.descriptor, harg] at h
          exact .inr ⟨rfl, of_onHeap_eq_ok h⟩

/-- How many items there are is told in the way that an array has for it. -/
inductive Announces (plan : CallPlan) (frame : Frame) (element : Descriptor) (items : List Value)
    (returned : Bridge H) : ArrayLength → Prop
  | fixed : Announces plan frame element items returned (.fixed items.length)
  /-- Native code has set an output for whole numbers that the caller does not see, and has left it
  alone since then. -/
  | param {index : Nat} {arg : CallArg} {type : PrimitiveKind} {size : Nat} {number : Value}
      {before set : Bridge H} (harg : plan.args[index]? = some arg)
      (hlength : arg.holdsLength = true) (htype : arg.descriptor = .reference (.primitive type size))
      (hsound : before.heap.Sound)
      (hset : (plan.nativeCall frame).setOut index number before = .ok ⟨⟩ set)
      (hnumber : type.content? number = some (.number items.length))
      (hkept : ∀ slot bytes, (plan.nativeCall frame).handle index set = .ok slot set →
        set.heap.bytes slot 0 size = .ok bytes → returned.heap.bytes slot 0 size = .ok bytes) :
      Announces plan frame element items returned (.param index)
  /-- There is no zero among the items. -/
  | zeroTerminated (hmarked : element.isMarked = true)
      (hitems : ∀ item ∈ items, item.stored.isZero = false) :
      Announces plan frame element items returned .zeroTerminated

/-- What is told about the number of items is what the call goes by. -/
theorem Announces.elementCount_eq_ok {builder : CallBuilder} {callable : Callable}
    {owner : Option Owner} {described : List Descriptor} {result : Descriptor}
    {args : List CallArg} {made : Bridge H} (h : Announces plan frame element items returned length)
    (hbuilt : CallBuilder.Built builder callable owner described result args plan)
    (hpointer : builder.pointerSize = Heap.pointerSize) (hstart : bridge.heap.Sound)
    (hlower : Lowering.lower env plan receiver values ⟨bridge, {}⟩ = .ok ⟨⟩ ⟨made, frame⟩)
    (hfits : made.heap.next ≤ twoPow 64) (hsound : returned.heap.Sound)
    (hlays : returned.heap.Lays base element stride (length.slots items.length) items)
    (hscalar : element.IsScalar) (hstride : stride = element.slotSize Heap.pointerSize)
    (hlegible : ∀ item ∈ items, returned.heap.Legible element item) :
    elementCount frame.args base element stride length returned = .ok items.length returned := by
  cases h with
  | fixed => rfl
  | @param index arg type size number before set harg hlength htype hready hset hnumber hkept =>
      obtain ⟨value, calling, behind, hcalling, _, hvalue, hbehind, hthere⟩ :=
        Lowering.exists_lowerArg_of_lower_eq_ok hlower harg (by rw [htype]; rfl)
      have hsize : size = type.size Heap.pointerSize := hbuilt.isScalar hpointer harg
        (fun hreceiver => by
          rw [CallArg.holdsLength, hreceiver] at hlength
          cases hlength) htype rfl
      subst hsize
      rw [htype] at hthere
      have hplace : (plan.nativeCall frame).args[index]? =
          some ⟨.reference (.primitive type (type.size Heap.pointerSize)), value,
            arg.flags.optional⟩ := (Array.getElem?_toList ..).trans hthere
      obtain ⟨slot, hslot, hstored⟩ := of_setOut_eq_ok hplace hset
      have hnull := Lowering.isNull_of_lowerArg_length (hcalling.sound hstart)
        (Nat.le_trans hbehind.next_le hfits) hlength htype hvalue hslot
      -- there is a slot for the length, so the number has been written to it
      obtain ⟨_, hwrite⟩ := hstored.resolve_left fun hnone =>
        Bool.false_ne_true (hnull.symm.trans hnone.1)
      obtain ⟨bytes, hbytes, hcontent⟩ := Heap.exists_read_of_write hready hwrite
      have hread : returned.heap.read slot (.primitive type (type.size Heap.pointerSize)) 0 =
          .ok (type.decode bytes) :=
        Heap.read_primitive hnull (hkept slot bytes (view_eq_ok _ hplace hslot) hbytes)
      exact lengthAt_eq_ok hthere (Value.nonNull?_eq_some hslot hnull) hread (hcontent.trans hnumber)
  | zeroTerminated hmarked hitems =>
      have hcount := terminatedLength_eq_ok hsound hlays hscalar hmarked hstride hlegible hitems
      rw [elementCount, inCall, hcount]

end Bridge

end Interop
