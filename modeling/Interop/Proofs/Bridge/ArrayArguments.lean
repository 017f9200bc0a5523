import Interop.Proofs.Bridge.Rows
import Interop.Proofs.Call.Stems
import Interop.Proofs.Memory.Arrays

/-! # Arrays that native code is passed

An array of numbers or texts lies in a block of its own when native code is entered. Native code
finds the items of the caller in it, in order, and their number in the argument that holds it.
-/

namespace Interop

open Schema Relation Steps

variable {H : Host}

/-- A number, a truth value or a text. -/
def Descriptor.isBasic : Descriptor → Bool
  | .primitive .. | .string _ => true
  | _ => false

theorem Represents.isScalar {platform : Platform} {context : UseContext} {origin : Origin}
    {descriptor : Descriptor} (h : Represents platform Heap.pointerSize context origin descriptor)
    (hbasic : descriptor.isBasic = true) : descriptor.IsScalar := by
  cases h with
  | primitive => rfl
  | string => trivial
  | _ => cases hbasic

theorem Descriptor.IsScalar.isArray {descriptor : Descriptor} (h : descriptor.IsScalar) :
    descriptor.isArray = false := by
  cases descriptor with
  | array => exact h.elim
  | _ => rfl

/-- How many slots an array has: one more than items where a zero ends it. -/
def ArrayLength.slots (length : ArrayLength) (count : Nat) : Nat :=
  if length = .zeroTerminated then count + 1 else count

namespace Value

/-- A number that is not negative is one without a sign as well. -/
theorem exists_asUInt?_int {number : Int64} (h : 0 ≤ number.toInt) :
    ∃ n, (int number).asUInt? = some n ∧ (n.toNat : Int) = number.toInt := by
  have hle : 0 ≤ number := Int64.le_iff_toInt_le.2 h
  refine ⟨number.toUInt64, if_pos hle, ?_⟩
  rw [Int64.toNat_toUInt64_of_le hle]
  exact Int.toNat_of_nonneg h

/-- A small number without a sign is one with a sign as well. -/
theorem exists_asInt?_uint {number : UInt64} (h : number.toNat < twoPow 63) :
    ∃ n, (uint number).asInt? = some n ∧ n.toInt = number.toNat := by
  refine ⟨number.toInt64, if_pos h, ?_⟩
  have hsame : number.toInt64 = Int64.ofNat number.toNat := by
    rw [← UInt64.toInt64_ofNat', UInt64.ofNat_toNat]
  rw [hsame, Int64.toInt_ofNat_of_lt h]

end Value

namespace Lowering

open Bridge

variable {element : Descriptor} {ownership : Ownership} {length : ArrayLength} {kind : ArrayKind}
  {stride index : Nat} {items : List Value} {lowered : Value} {handle : Handle}
  {calling calling' : Calling H}

/-- By induction over the items. -/
theorem fill_of_lowerItems_eq_ok (helement : element.isArray = false) {u : Unit}
    (h : lowerItems handle element stride index items calling = .ok u calling') :
    Heap.Fill handle element stride index (items.map Value.stored) calling.bridge.heap
      calling'.bridge.heap := by
  induction items generalizing index calling with
  | nil =>
      rw [lowerItems] at h
      cases h
      exact .nil _ _
  | cons item rest ih =>
      rw [lowerItems, lowerValue_of_isArray_eq_false helement, pure_bind] at h
      obtain ⟨_, written, hwrite, hrest⟩ := of_bind_eq_ok h
      obtain ⟨hwrite, _⟩ := of_write_eq_ok (of_onBridge_eq_ok hwrite)
      exact .cons hwrite (ih hrest)

/-- An array that is passed is laid out in a block, unless it is empty and passed as none. -/
theorem lays_of_lowerValue_eq_ok (hsound : calling.bridge.heap.Sound)
    (hfits : calling'.bridge.heap.next ≤ twoPow 64) (hscalar : element.IsScalar)
    (hstride : element.slotSize Heap.pointerSize ≤ stride)
    (hzero : ∀ ownership text, element = .string ownership → .string text ∈ items →
      '\x00' ∉ text.toList)
    (h : lowerValue (.array element ownership length kind stride) (.array items) calling =
      .ok lowered calling') :
    items = [] ∧ length ≠ .zeroTerminated ∧ lowered = .pointer .null ∨
      ∃ base, lowered = .pointer base ∧ calling'.bridge.heap.Lays base element stride
        (length.slots items.length) (items.map Value.stored) := by
  refine (of_lowerValue_array_eq_ok h).imp_right fun ⟨hlowered, made, hmade, hitems⟩ => ?_
  refine ⟨_, hlowered, ?_⟩
  have hfill := fill_of_lowerItems_eq_ok hscalar.isArray hitems
  rw [hmade] at hfill
  refine Heap.lays_of_fill hsound hfits hscalar hstride ?_ ?_ hfill
  · rw [List.length_map, ArrayLength.slots]
    split <;> omega
  · intro ownership text hstring hmem
    obtain ⟨item, hitem, hsame⟩ := List.mem_map.1 hmem
    cases item with
    | string =>
        cases hsame
        exact hzero ownership text hstring hitem
    | _ => cases hsame

end Lowering

namespace Bridge

/-! ## What native code finds -/

/-- Reading slots one behind the other gives what each of them gives. By induction over the items
that they hold. -/
theorem exists_readItems_eq_ok {R : Value → Value → Prop} {bridge : Bridge H} {handle : Handle}
    {element : Descriptor} {stride index : Nat} {items : List Value} (seen : List Value)
    (h : ∀ (place : Nat) (item : Value), items[place]? = some item → ∃ found, R item found ∧
      bridge.heap.read handle element ((index + place) * stride) = .ok found) :
    ∃ found, List.Forall₂ R items found ∧
      readItems handle element stride seen index items.length bridge =
        .ok (seen.reverse ++ found) bridge := by
  induction items generalizing index seen with
  | nil =>
      refine ⟨[], .nil, ?_⟩
      rw [List.append_nil]
      rfl
  | cons item rest ih =>
      obtain ⟨found, hfound, hread⟩ := h 0 item rfl
      have hbehind : ∀ (place : Nat) (item : Value), rest[place]? = some item → ∃ found,
          R item found ∧
            bridge.heap.read handle element ((index + 1 + place) * stride) = .ok found := by
        intro place item hitem
        have hplace : index + 1 + place = index + (place + 1) := by omega
        rw [hplace]
        exact h (place + 1) item hitem
      obtain ⟨others, hothers, hrest⟩ := ih (found :: seen) hbehind
      refine ⟨found :: others, .cons hfound hothers, ?_⟩
      have hfirst : read handle element (index * stride) bridge = .ok found bridge := by
        rw [read_eq, ← Nat.add_zero index, hread]
        rfl
      rw [List.length_cons, readItems, bind_eq_of_eq_ok hfirst, hrest, List.reverse_cons,
        List.append_assoc, List.singleton_append]

/-- What native code finds where an array was passed: the items, each as values like it are read, and
a zero element behind them if that is what ends the array. -/
structure FindsArray (bridge : Bridge H) (call : NativeCall) (native : Nat) (element : Descriptor)
    (length : ArrayLength) (stride : Nat) (items : List Value) : Prop where
  each : ∃ found, call.array native items.length bridge = .ok found bridge ∧
    List.Forall₂ (fun item value =>
      bridge.heap.represent? element item.stored = some (.ok value)) items found
  last : length = .zeroTerminated → ∃ base, call.handle native bridge = .ok base bridge ∧
    bridge.heap.bytes base (items.length * stride) stride = .ok (List.replicate stride 0)

/-- Native code finds a number as an argument, be it read with a sign or without one. -/
structure FindsNumber (bridge : Bridge H) (call : NativeCall) (native n : Nat) : Prop where
  signed : ∃ number, call.int native bridge = .ok number bridge ∧ number.toInt = n
  unsigned : ∃ number, call.uint native bridge = .ok number bridge ∧ number.toNat = n

variable {bridge : Bridge H} {call : NativeCall} {native stride : Nat} {element : Descriptor}
  {ownership : Ownership} {length : ArrayLength} {kind : ArrayKind} {items : List Value}
  {optional : Bool}

theorem view_eq_ok {α : Type} {value : Value} {descriptor : Descriptor} {a : α} (expected : String)
    {look : Value → Option α} (harg : call.args[native]? = some ⟨descriptor, value, optional⟩)
    (hlook : look value = some a) : call.view native expected look bridge = .ok a bridge := by
  have hvalue : (call.arg native : Native H Value) = pure value := by
    rw [NativeCall.arg, harg]
  rw [NativeCall.view, hvalue, pure_bind, hlook]
  rfl

/-- An empty array can be passed as none. -/
theorem findsArray_null (hlength : length ≠ .zeroTerminated)
    (harg : call.args[native]? =
      some ⟨.array element ownership length kind stride, .pointer .null, optional⟩) :
    FindsArray bridge call native element length stride [] := by
  refine ⟨⟨[], ?_, .nil⟩, fun hzero => absurd hzero hlength⟩
  have hhandle : (call.handle native : Native H Handle) bridge = .ok .null bridge :=
    view_eq_ok _ harg rfl
  rw [NativeCall.array, bind_eq_of_eq_ok hhandle, NativeCall.descriptor, harg]
  rfl

/-- An array is found in the block that it lies in. -/
theorem findsArray_of_lays (hsound : bridge.heap.Sound) {base : Handle}
    (hlays : bridge.heap.Lays base element stride (length.slots items.length)
      (items.map Value.stored))
    (hlegible : ∀ item ∈ items, bridge.heap.Legible element item.stored)
    (harg : call.args[native]? =
      some ⟨.array element ownership length kind stride, .pointer base, optional⟩) :
    FindsArray bridge call native element length stride items := by
  have hhandle : (call.handle native : Native H Handle) bridge = .ok base bridge :=
    view_eq_ok _ harg rfl
  constructor
  case each =>
    have hread : ∀ (place : Nat) (item : Value), items[place]? = some item → ∃ found,
        bridge.heap.represent? element item.stored = some (.ok found) ∧
          bridge.heap.read base element ((0 + place) * stride) = .ok found := by
      intro place item hitem
      have hstored : (items.map Value.stored)[place]? = some item.stored := by
        rw [List.getElem?_map, hitem, Option.map_some]
      rw [Nat.zero_add]
      exact hlays.exists_read hsound hstored (hlegible item (List.mem_of_getElem? hitem))
    obtain ⟨found, hfound, hitems⟩ := exists_readItems_eq_ok [] hread
    refine ⟨found, ?_, hfound⟩
    rw [NativeCall.array, bind_eq_of_eq_ok hhandle, NativeCall.descriptor, harg]
    exact hitems
  case last =>
    rintro rfl
    have hlast := hlays.rest items.length (Nat.le_of_eq (List.length_map _))
      (Nat.lt_succ_self items.length)
    exact ⟨base, hhandle, hlast⟩

/-- A count is passed with a sign if its type has one. -/
theorem findsNumber_countValue {kind : PrimitiveKind} {size count : Nat}
    (hcount : count < twoPow 63)
    (harg : call.args[native]? = some ⟨.primitive kind size,
      Lowering.countValue (.primitive kind size) count, optional⟩) :
    FindsNumber bridge call native count := by
  have hsmall : (UInt64.ofNat count).toNat = count :=
    UInt64.toNat_ofNat_of_lt' (Nat.lt_trans hcount (by decide))
  have hsigned := Int64.toInt_ofNat_of_lt hcount
  rw [Lowering.countValue] at harg
  split at harg
  next =>
    obtain ⟨number, hview, hnumber⟩ :=
      Value.exists_asUInt?_int (hsigned ▸ Int.natCast_nonneg count)
    rw [hsigned] at hnumber
    exact ⟨⟨_, view_eq_ok _ harg rfl, hsigned⟩, ⟨number, view_eq_ok _ harg hview, by omega⟩⟩
  next =>
    obtain ⟨number, hview, hnumber⟩ := Value.exists_asInt?_uint (hsmall.symm ▸ hcount)
    rw [hsmall] at hnumber
    exact ⟨⟨number, view_eq_ok _ harg hview, hnumber⟩, ⟨_, view_eq_ok _ harg rfl, hsmall⟩⟩

end Bridge

namespace CallBuilder.Built

variable {builder : CallBuilder} {callable : Callable} {owner : Option Owner}
  {described : List Descriptor} {returned : Descriptor} {args : List CallArg} {plan : CallPlan}
  {element : Descriptor} {ownership : Ownership} {length : ArrayLength} {kind : ArrayKind}
  {stride : Nat}

/-- An array that the caller passes steps from item to item by the size of an item. -/
theorem of_caller_array (h : Built builder callable owner described returned args plan)
    {native visible : Nat} {arg : CallArg} (harg : plan.args[native]? = some arg)
    (hsource : arg.source = .caller visible)
    (harray : arg.descriptor = .array element ownership length kind stride) :
    stride = element.slotSize builder.pointerSize ∧ ∃ source,
      Represents builder.mapper.platform builder.pointerSize .element source element := by
  obtain ⟨index, param, descriptor, number, _, _, ⟨_, _, hmap⟩, rfl⟩ := h.of_caller harg hsource
  rw [descriptor_argOf_of_caller hsource] at harray
  have hrenders : Renders builder.mapper.platform builder.pointerSize _
      (.array element ownership length kind stride) :=
    ⟨_, _, Mapper.represents_of_mapParam hmap, .inr ⟨_, harray.symm⟩⟩
  obtain ⟨_, _, hrepresents⟩ := hrenders.exists_array
  exact hrepresents.of_array

/-- A parameter that holds the length of an array and serves nothing else gets its value from there.
If it is no slot, native code does not write to it. -/
theorem of_length (h : Built builder callable owner described returned args plan)
    {index slot : Nat}
    (hasked : ∀ role, Companion.Asked builder.mapper callable role slot ↔
      role = .length (some index)) {count : CallArg}
    (hcount : plan.args[slot + callable.offset]? = some count)
    (hslot : count.descriptor.isReference = false) (hne : slot ≠ index) :
    count.source = .arrayLength (index + callable.offset) ∧ count.flags.output = false := by
  have hparam := List.getElem?_eq_getElem (h.inRange _ _ ((hasked _).2 rfl))
  obtain ⟨descriptor, number, ⟨_, _, hmap⟩, hsame, hfound⟩ := h.getElem? hparam
  have hrole : Companion.find? (Companion.requests callable described) slot =
      some (.length (some index)) := by
    refine (Companion.find?_requests_eq_some_iff h.maps).2
      ⟨(hasked _).2 rfl, fun hself => hne (Option.some.inj hself).symm, fun other hother _ => ?_⟩
    rw [(hasked other).1 hother]
  rw [hrole] at hfound
  obtain rfl := Option.some.inj (hcount.symm.trans (hsame.symm.trans hfound))
  refine ⟨rfl, ?_⟩
  change (descriptor.shift callable.offset).isReference = false at hslot
  rw [Descriptor.isReference_shift] at hslot
  obtain ⟨_, _, _, ⟨hdirection, _⟩ | ⟨_, _, rfl⟩⟩ := Mapper.of_mapParamWith_eq_ok hmap
  · exact hdirection
  · cases hslot

end CallBuilder.Built

namespace CallPlan

open Bridge

variable {env : Env H} {plan : CallPlan} {receiver : Option Value} {values items : List Value}
  {start : Bridge H} {calling : Calling H} {native visible : Nat} {arg : CallArg}

/-- An array that is no callback is made from the value that the caller passes. -/
theorem lowerArg_of_caller {index : Nat} {value : Value} (hsource : arg.source = .caller visible)
    (hnone : calling.frame.callback? index = none) (hvalue : values[visible]? = some value) :
    Lowering.lowerArg env plan receiver values arg index calling =
      Lowering.lowerCaller arg value calling := by
  have hget : (get : Lowering H (Calling H)) calling = .ok calling calling := rfl
  rw [Lowering.lowerArg, hsource]
  dsimp only
  rw [bind_eq_of_eq_ok hget, hnone, hvalue]

theorem findsArray_of_lower_eq_ok (hsound : start.heap.Sound)
    (hlower : Lowering.lower env plan receiver values ⟨start, {}⟩ = .ok ⟨⟩ calling)
    (hfits : calling.bridge.heap.next ≤ twoPow 64) (harg : plan.args[native]? = some arg)
    (hsource : arg.source = .caller visible) {element : Descriptor} {ownership : Ownership}
    {length : ArrayLength} {kind : ArrayKind} {stride : Nat}
    (harray : arg.descriptor = .array element ownership length kind stride)
    (hscalar : element.IsScalar) (hstride : stride = element.slotSize Heap.pointerSize)
    (hvalue : values[visible]? = some (.array items))
    (hlegible : ∀ item ∈ items, calling.bridge.heap.Legible element item.stored) :
    FindsArray calling.bridge (plan.nativeCall calling.frame) native element length stride
      items := by
  obtain ⟨value, before, behind, hbefore, hnone, hmade, hbehind, hthere⟩ :=
    Lowering.exists_lowerArg_of_lower_eq_ok hlower harg (by rw [harray]; rfl)
  have hvalueMade : Lowering.lowerValue arg.descriptor (.array items) before = .ok value behind := by
    rw [← hmade, lowerArg_of_caller hsource hnone hvalue, Lowering.lowerCaller, harray]
  rw [harray] at hvalueMade hthere
  have hready := hbefore.sound hsound
  have hzero : ∀ ownership text, element = .string ownership → .string text ∈ items →
      '\x00' ∉ text.toList := by
    rintro ownership text rfl hmem
    exact hlegible _ hmem
  rcases Lowering.lays_of_lowerValue_eq_ok hready (Nat.le_trans hbehind.next_le hfits) hscalar
    (Nat.le_of_eq hstride.symm) hzero hvalueMade with ⟨rfl, hlength, rfl⟩ | ⟨base, rfl, hlays⟩
  · exact findsArray_null hlength ((Array.getElem?_toList ..).trans hthere)
  · have hsoundBehind : behind.bridge.heap.Sound := by
      have hrun := Lowering.within_touches_lowerArg env plan receiver values arg native before
      rw [hmade] at hrun
      exact (Calling.touches_of_run hrun).sound hready
    have hlast := hbehind.sound hsoundBehind
    exact findsArray_of_lays hlast
      (hlays.of_keepsFrom (hbehind.keepsFrom hsoundBehind hfits _) hlast) hlegible
      ((Array.getElem?_toList ..).trans hthere)

/-- What the number of items is passed as. -/
theorem findsNumber_of_lower_eq_ok
    (hlower : Lowering.lower env plan receiver values ⟨start, {}⟩ = .ok ⟨⟩ calling)
    (harg : plan.args[native]? = some arg) (hsource : arg.source = .caller visible)
    (hvalue : values[visible]? = some (.array items)) {counter : Nat} {count : CallArg}
    (hcounter : plan.args[counter]? = some count) (hlength : count.source = .arrayLength native)
    (houtput : count.flags.output = false) {kind : PrimitiveKind} {size : Nat}
    (hprimitive : count.descriptor = .primitive kind size) (hitems : items.length < twoPow 63) :
    FindsNumber calling.bridge (plan.nativeCall calling.frame) counter items.length := by
  obtain ⟨value, before, behind, _, _, hmade, _, hthere⟩ :=
    Lowering.exists_lowerArg_of_lower_eq_ok hlower hcounter (by rw [hprimitive]; rfl)
  have hcount : Lowering.itemCount plan values native = items.length := by
    simp only [Lowering.itemCount, harg, Option.map_some, hsource, hvalue, Option.bind_some,
      Value.asArray?, Option.getD_some]
  simp only [Lowering.lowerArg, hlength, hcount, Lowering.lowerLength, houtput] at hmade
  cases hmade
  rw [hprimitive] at hthere
  exact findsNumber_countValue hitems ((Array.getElem?_toList ..).trans hthere)

/-- An array of numbers, truth values or texts is passed so that native code finds it: the items are
there in order, with a zero element behind them if that is what ends the array, and their number is
what it gets for the parameter that holds the length, wherever this parameter stands. -/
theorem finds_array_of_build {builder : CallBuilder} {callable : Callable} {owner : Option Owner}
    {usage usage' : Usage} (hbuilt : builder.build callable owner usage = .ok plan usage')
    (hpointer : builder.pointerSize = Heap.pointerSize) (hsound : start.heap.Sound)
    (hlower : Lowering.lower env plan receiver values ⟨start, {}⟩ = .ok ⟨⟩ calling)
    (hfits : calling.bridge.heap.next ≤ twoPow 64) {index : Nat}
    (harg : plan.args[index + callable.offset]? = some arg) (hsource : arg.source = .caller visible)
    {element : Descriptor} {ownership : Ownership} {length : ArrayLength} {kind : ArrayKind}
    {stride : Nat} (harray : arg.descriptor = .array element ownership length kind stride)
    (hbasic : element.isBasic = true) (hvalue : values[visible]? = some (.array items))
    (hlegible : ∀ item ∈ items, calling.bridge.heap.Legible element item.stored)
    -- no list has more items than this
    (hitems : items.length < twoPow 63) :
    FindsArray calling.bridge (plan.nativeCall calling.frame) (index + callable.offset) element
      length stride items ∧
    ∀ (slot : Nat) (count : CallArg) (kind : PrimitiveKind) (size : Nat),
      (∀ role, Companion.Asked builder.mapper callable role slot ↔ role = .length (some index)) →
      plan.args[slot + callable.offset]? = some count → count.descriptor = .primitive kind size →
      FindsNumber calling.bridge (plan.nativeCall calling.frame) (slot + callable.offset)
        items.length := by
  obtain ⟨described, returned, args, h⟩ := CallBuilder.exists_built_of_build hbuilt
  obtain ⟨hstride, source, helement⟩ := h.of_caller_array harg hsource harray
  rw [hpointer] at hstride helement
  refine ⟨findsArray_of_lower_eq_ok hsound hlower hfits harg hsource harray
    (helement.isScalar hbasic) hstride hvalue hlegible, ?_⟩
  intro slot count kind size hasked hcount hprimitive
  have hne : slot ≠ index := by
    rintro rfl
    obtain rfl : arg = count := Option.some.inj (harg.symm.trans hcount)
    rw [harray] at hprimitive
    cases hprimitive
  obtain ⟨hlength, houtput⟩ := h.of_length hasked hcount (by rw [hprimitive]; rfl) hne
  exact findsNumber_of_lower_eq_ok hlower harg hsource hvalue hcount hlength houtput hprimitive
    hitems

/-- A method that takes numbers and how many there are. -/
def weigh : Callable where
  name := "weigh"
  symbol := "n_watcher_weigh"
  kind := .method
  params := [
    { name := "weights", type := (TypeRef.named "gint16").arrayOf (.counted 1) },
    { name := "count", type := .named "guint" }]

def weighPlan : CallPlan :=
  (Steps.value? (watching.build weigh (watching.ownerOf? "N.Watcher") {})).getD default

/-- What has been made for a call of this method with two numbers. -/
def weighing : Calling silent :=
  ending (Lowering.lower (silentEnv watching.mapper.platform.repo) weighPlan
    (some (.pointer (.ofNat 8))) [.array [.int 7, .bool true]] ⟨Bridge.start (), {}⟩)

theorem weigh_asked (role : Companion) :
    Companion.Asked watching.mapper weigh role 1 ↔ role = .length (some 0) := by
  constructor
  · intro h
    cases h with
    | returned h => cases h
    | @array index _ _ hparam h =>
        match index with
        | 0 => rfl
        | 1 =>
            cases hparam
            cases h
    | @closure index _ _ hparam _ h | @destroy index _ _ hparam _ h =>
        match index with
        | 0 | 1 =>
            cases hparam
            cases h
  · rintro rfl
    have hparam : weigh.params[0]? = some (weigh.params.getD 0 default) := rfl
    exact .array hparam rfl

/-- The instance comes first, so the numbers are the second argument and their count is the third. -/
theorem weigh_finds : ∃ usage,
    watching.build weigh (watching.ownerOf? "N.Watcher") {} = .ok weighPlan usage ∧
      FindsArray weighing.bridge (weighPlan.nativeCall weighing.frame) 1 (.primitive .int16 2)
        (.param 2) 2 [.int 7, .bool true] ∧
      FindsNumber weighing.bridge (weighPlan.nativeCall weighing.frame) 2 2 := by
  have hbuilt : (Steps.value? (watching.build weigh (watching.ownerOf? "N.Watcher") {})).isSome =
      true := by decide +kernel
  have hlower : (Steps.value? (Lowering.lower (silentEnv watching.mapper.platform.repo) weighPlan
      (some (.pointer (.ofNat 8))) [.array [.int 7, .bool true]]
      ⟨Bridge.start (), {}⟩)).isSome = true := by decide +kernel
  have harg : weighPlan.args[0 + weigh.offset]? = some (weighPlan.args.getD 1 default) := rfl
  have hfound := finds_array_of_build (Steps.eq_ok_of_isSome default hbuilt) rfl Heap.sound_empty
    (Steps.eq_ok_of_isSome ⟨⟩ hlower) (by decide +kernel) harg rfl rfl rfl rfl
    (fun _ _ => trivial) (by decide)
  exact ⟨_, Steps.eq_ok_of_isSome default hbuilt, hfound.1,
    hfound.2 1 _ _ _ weigh_asked rfl rfl⟩

end CallPlan

end Interop
