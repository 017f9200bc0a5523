import Mathlib.Data.Option.Basic
import Interop.Proofs.Bridge.Outcome
import Interop.Proofs.Call.Arguments

/-! # What the calls of an operation get

A caller does not pass the ready callback, and may leave out values at the end. The start call gets
the callback at its place, so what stands behind it moves by one, and values that are left out
before it are null. Values that suffice for the operation suffice for both of its calls.
-/

namespace Interop

open Schema Steps

variable {H : Host}

/-- Values suffice for parameters of which only optional ones at the end are left out. -/
structure Suffice (params : List VisibleParam) (values : List Value) : Prop where
  length_le : values.length ≤ params.length
  optional : ∀ number param, values.length ≤ number → params[number]? = some param →
    param.optional = true

theorem suffice_iff {params : List VisibleParam} {values : List Value} :
    Suffice params values ↔ values.length ≤ params.length ∧
      (params.drop values.length).find? (!·.optional) = none := by
  simp only [List.find?_eq_none, Bool.not_eq_true', Bool.not_eq_false]
  constructor
  · rintro ⟨hlength, hoptional⟩
    refine ⟨hlength, fun param hparam => ?_⟩
    obtain ⟨index, hindex⟩ := List.mem_iff_getElem?.1 hparam
    rw [List.getElem?_drop] at hindex
    exact hoptional _ param (Nat.le_add_right ..) hindex
  · rintro ⟨hlength, hoptional⟩
    refine ⟨hlength, fun number param hle hparam => hoptional param ?_⟩
    rw [List.mem_iff_getElem?]
    exact ⟨number - values.length, by rwa [List.getElem?_drop, Nat.add_sub_cancel' hle]⟩

instance (params : List VisibleParam) (values : List Value) : Decidable (Suffice params values) :=
  decidable_of_iff (values.length ≤ params.length ∧
    ((params.drop values.length).find? (!·.optional)).isNone = true) (by
      rw [suffice_iff, Option.isNone_iff_eq_none])

/-- Why values are refused that do not suffice. -/
inductive Refused (callable : String) (params : List VisibleParam) (values : List Value) :
    MarshalError → Prop
  | tooMany (h : params.length < values.length) :
      Refused callable params values (.tooManyArguments callable params.length values.length)
  | missing {number : Nat} {param : VisibleParam} (hle : values.length ≤ number)
      (hparam : params[number]? = some param) (hoptional : param.optional = false) :
      Refused callable params values (.missingArgument param.name)

theorem checkArity_cases (callable : String) (params : List VisibleParam) (values : List Value)
    (bridge : Bridge H) :
    Suffice params values ∧ checkArity callable params values bridge = .ok ⟨⟩ bridge ∨
      ¬ Suffice params values ∧ ∃ error, Refused callable params values error ∧
        checkArity callable params values bridge = .error (.marshal error) bridge := by
  rw [suffice_iff]
  unfold checkArity
  split
  next hmany => exact .inr ⟨fun h => Nat.not_le_of_lt hmany h.1, _, .tooMany hmany, rfl⟩
  next hfew =>
    cases hfind : (params.drop values.length).find? (!·.optional) with
    | some param =>
        obtain ⟨index, hindex⟩ := List.mem_iff_getElem?.1 (List.mem_of_find?_eq_some hfind)
        rw [List.getElem?_drop] at hindex
        have hoptional : param.optional = false := by simpa using List.find?_some hfind
        exact .inr ⟨nofun, _, .missing (Nat.le_add_right ..) hindex hoptional, rfl⟩
    | none => exact .inl ⟨⟨Nat.le_of_not_lt hfew, rfl⟩, rfl⟩

theorem checkArity_eq_ok_iff {callable : String} {params : List VisibleParam}
    {values : List Value} {bridge : Bridge H} :
    checkArity callable params values bridge = .ok ⟨⟩ bridge ↔ Suffice params values := by
  rcases checkArity_cases callable params values bridge with
    ⟨hsuffice, hok⟩ | ⟨hnot, error, _, hrefused⟩
  · exact iff_of_true hok hsuffice
  · rw [hrefused]
    exact iff_of_false nofun hnot

namespace AsyncPlan

variable {plan : AsyncPlan} {name : String} {start finish : CallPlan}

/-- The parameter of the start call that is a parameter of the operation. -/
def startParam (plan : AsyncPlan) (number : Nat) : Nat :=
  if number < plan.callbackParam then number else number + 1

/-- What stands in a list of the start call without what stands there for the ready callback. -/
theorem getElem?_startParam {α : Type} (items : List α) (number : Nat) :
    items[plan.startParam number]? = (items.eraseIdx plan.callbackParam)[number]? := by
  rw [List.getElem?_eraseIdx, startParam]
  split <;> rfl

theorem exists_startParam_eq {place : Nat} (h : place ≠ plan.callbackParam) :
    ∃ number, plan.startParam number = place := by
  rcases Nat.lt_or_gt_of_ne h with hbefore | hbehind
  · exact ⟨place, if_pos hbefore⟩
  · refine ⟨place - 1, ?_⟩
    rw [startParam, if_neg (by omega)]
    omega

/-- What two plans have to be like to be joined. -/
structure Joins (plan : AsyncPlan) : Prop where
  /-- The start call passes on the ready callback. -/
  callback : ∃ arg params result scope userDataIndex destroyIndex,
    plan.start.args[plan.callbackArg]? = some arg ∧ arg.source = .caller plan.callbackParam ∧
      arg.descriptor = .callback .asyncReady params result scope userDataIndex destroyIndex
  /-- The caller of the finish call passes nothing but the token. -/
  arity_eq : plan.finish.arity = 1
  result : ∃ arg, plan.finish.args[plan.resultArg]? = some arg ∧ arg.source = .caller 0
  params_eq : plan.params = plan.start.params.eraseIdx plan.callbackParam

theorem of_readySlot?_eq_some {arg : CallArg} {number : Nat}
    (h : readySlot? arg = some number) : arg.source = .caller number ∧
      ∃ params result scope userDataIndex destroyIndex,
        arg.descriptor = .callback .asyncReady params result scope userDataIndex destroyIndex := by
  unfold readySlot? at h
  split at h
  next hdescriptor hsource =>
    cases h
    exact ⟨hsource, _, _, _, _, _, hdescriptor⟩
  next => cases h

theorem joins_of_ofPlans? (h : ofPlans? name start finish = some plan) :
    plan.start = start ∧ plan.finish = finish ∧ plan.Joins := by
  obtain ⟨⟨callbackArg, callbackParam⟩, hcallback, h⟩ := Option.bind_eq_some_iff.1 h
  obtain ⟨_, harity, h⟩ := Option.bind_eq_some_iff.1 h
  obtain ⟨resultArg, hresult, h⟩ := Option.bind_eq_some_iff.1 h
  cases h
  refine ⟨rfl, rfl, ?_⟩
  constructor
  case callback =>
    obtain ⟨⟨arg, place⟩, hmem, hslot⟩ := List.exists_of_findSome?_eq_some hcallback
    obtain ⟨number, hslot, hsame⟩ := Option.map_eq_some_iff.1 hslot
    cases hsame
    obtain ⟨hsource, params, result, scope, userDataIndex, destroyIndex, hdescriptor⟩ :=
      of_readySlot?_eq_some hslot
    exact ⟨arg, params, result, scope, userDataIndex, destroyIndex,
      List.mem_zipIdx_iff_getElem?.1 hmem, hsource, hdescriptor⟩
  case arity_eq => exact (Option.guard_eq_some' _).1 harity
  case result =>
    obtain ⟨hless, hsource, _⟩ := List.findIdx?_eq_some_iff_getElem.1 hresult
    exact ⟨_, List.getElem?_eq_getElem hless, eq_of_beq hsource⟩
  case params_eq => rfl

end AsyncPlan

namespace Bridge

variable {plan : AsyncPlan} {ready : CallbackId} {values : List Value}

theorem length_startValues :
    (startValues plan ready values).length = max values.length plan.callbackParam + 1 := by
  simp only [startValues, List.length_append, List.length_cons, List.length_take, List.length_drop,
    List.length_replicate]
  omega

/-- The values that come before the ready callback are there, if need be as nulls. -/
theorem length_take_startValues : ((values ++ List.replicate (plan.callbackParam - values.length)
    Value.null).take plan.callbackParam).length = plan.callbackParam := by
  simp only [List.length_append, List.length_take, List.length_replicate]
  omega

theorem getElem?_startValues_callbackParam :
    (startValues plan ready values)[plan.callbackParam]? = some (.callback ready) := by
  rw [startValues, List.getElem?_append_right (Nat.le_of_eq length_take_startValues),
    length_take_startValues, Nat.sub_self, List.getElem?_cons_zero]

theorem eraseIdx_startValues : (startValues plan ready values).eraseIdx plan.callbackParam =
    values ++ List.replicate (plan.callbackParam - values.length) .null := by
  rw [startValues, List.eraseIdx_append_of_length_le (Nat.le_of_eq length_take_startValues),
    length_take_startValues, Nat.sub_self, List.eraseIdx_cons_zero, List.take_append_drop]

/-- Beside the ready callback the start call gets the values of the caller, and nulls up to it. -/
theorem getElem?_startValues_startParam (number : Nat) :
    (startValues plan ready values)[plan.startParam number]? =
      if values.length ≤ number ∧ number < plan.callbackParam then some .null
      else values[number]? := by
  rw [AsyncPlan.getElem?_startParam, eraseIdx_startValues]
  split
  next homitted =>
    rw [List.getElem?_append_right homitted.1, List.getElem?_replicate_of_lt (by omega)]
  next hnot =>
    rcases Nat.lt_or_ge number values.length with hless | hle
    · rw [List.getElem?_append_left hless]
    · rw [List.getElem?_append_right hle, List.getElem?_eq_none hle, List.getElem?_eq_none]
      rw [List.length_replicate]
      omega

/-- Values that suffice for an operation suffice for its start call. -/
theorem suffice_startValues (hjoins : plan.Joins)
    (hcallback : plan.callbackParam < plan.start.params.length) (h : Suffice plan.params values) :
    Suffice plan.start.params (startValues plan ready values) := by
  constructor
  case length_le =>
    have hlength := h.length_le
    rw [hjoins.params_eq, List.length_eraseIdx_of_lt hcallback] at hlength
    rw [length_startValues]
    omega
  case optional =>
    intro place param hbehind hparam
    rw [length_startValues] at hbehind
    obtain ⟨number, rfl⟩ := @AsyncPlan.exists_startParam_eq plan place (by omega)
    rw [AsyncPlan.getElem?_startParam, ← hjoins.params_eq] at hparam
    refine h.optional number param ?_ hparam
    rw [AsyncPlan.startParam] at hbehind
    split at hbehind <;> omega

/-- What the calls of an operation get for values that suffice. -/
structure Passes (H : Host) (plan : AsyncPlan) (ready : CallbackId) (values : List Value) :
    Prop where
  start (bridge : Bridge H) : checkArity plan.start.name plan.start.params
    (startValues plan ready values) bridge = .ok ⟨⟩ bridge
  callback : (startValues plan ready values)[plan.callbackParam]? = some (.callback ready) ∧
    ∃ arg, plan.start.args[plan.callbackArg]? = some arg ∧ arg.source = .caller plan.callbackParam
  /-- What is passed for a parameter gets to the argument of this parameter. -/
  given (number : Nat) (value : Value) : values[number]? = some value → ∃ param,
    plan.params[number]? = some param ∧
    plan.start.params[plan.startParam number]? = some param ∧
    (startValues plan ready values)[plan.startParam number]? = some value ∧
    ∃ arg ∈ plan.start.args, arg.source = .caller (plan.startParam number) ∧
      arg.name = param.name ∧ arg.descriptor = param.descriptor
  null (number : Nat) : values.length ≤ number → number < plan.callbackParam →
    plan.startParam number = number ∧ (startValues plan ready values)[number]? = some .null
  /-- What is left out behind the ready callback is left out of the start call too. -/
  omitted (number : Nat) : values.length ≤ number → plan.callbackParam ≤ number →
    (startValues plan ready values)[plan.startParam number]? = none
  finish (token : Value) (bridge : Bridge H) :
    checkArity plan.finish.name plan.finish.params [token] bridge = .ok ⟨⟩ bridge
  result : ∃ arg, plan.finish.args[plan.resultArg]? = some arg ∧ arg.source = .caller 0

theorem passes_of_suffice {mapper : Mapper} {callable : Callable} {owner : Option Owner}
    (hfollows : plan.start.Follows mapper callable owner) (hjoins : plan.Joins)
    (h : Suffice plan.params values) (ready : CallbackId) : Passes H plan ready values := by
  obtain ⟨callbackArg, _, _, _, _, _, hcallbackArg, hcallback, _⟩ := hjoins.callback
  obtain ⟨_, hshown, _⟩ :=
    hfollows.params callbackArg (List.mem_of_getElem? hcallbackArg) _ hcallback
  have hless := (List.getElem?_eq_some_iff.1 hshown).1
  have hstart : Suffice plan.start.params (startValues plan ready values) :=
    suffice_startValues hjoins hless h
  constructor
  case start => exact fun bridge => checkArity_eq_ok_iff.2 hstart
  case callback => exact ⟨getElem?_startValues_callbackParam, callbackArg, hcallbackArg, hcallback⟩
  case given =>
    intro number value hvalue
    have hpassed : (startValues plan ready values)[plan.startParam number]? = some value := by
      rw [getElem?_startValues_startParam, if_neg, hvalue]
      have hgiven := (List.getElem?_eq_some_iff.1 hvalue).1
      omega
    have hshown := Nat.lt_of_lt_of_le (List.getElem?_eq_some_iff.1 hpassed).1 hstart.length_le
    -- each value of the caller is passed on by an argument
    have hnumber : plan.startParam number ∈ plan.start.args.filterMap (·.source.caller?) := by
      rw [hfollows.callers]
      exact List.mem_range.2 hshown
    obtain ⟨arg, harg, hsource⟩ := List.mem_filterMap.1 hnumber
    rw [ArgSource.caller?_eq_some_iff] at hsource
    obtain ⟨param, hparam, hname, hdescriptor⟩ := hfollows.params arg harg _ hsource
    refine ⟨param, ?_, hparam, hpassed, arg, harg, hsource, hname.symm, hdescriptor.symm⟩
    rw [hjoins.params_eq, ← AsyncPlan.getElem?_startParam, hparam]
  case null =>
    intro number hle hbefore
    have hsame : plan.startParam number = number := if_pos hbefore
    have hnull := @getElem?_startValues_startParam plan ready values number
    rw [if_pos ⟨hle, hbefore⟩, hsame] at hnull
    exact ⟨hsame, hnull⟩
  case omitted =>
    intro number hle hbehind
    rw [getElem?_startValues_startParam, if_neg (by omega), List.getElem?_eq_none hle]
  case finish =>
    intro token bridge
    have harity : plan.finish.params.length = 1 := hjoins.arity_eq
    refine checkArity_eq_ok_iff.2 ⟨Nat.le_of_eq harity.symm, fun number param hbehind hparam => ?_⟩
    rw [List.getElem?_eq_none (harity ▸ hbehind)] at hparam
    cases hparam
  case result => exact hjoins.result

/-- Values that suffice are passed on to both calls of an operation, with the ready callback that is
made for it; others are refused before anything happens. -/
theorem startPlan_passes_or_refused {builder : CallBuilder} {callable : Callable}
    {owner : Option Owner} {usage usage' : Usage} {name : String} {start finish : CallPlan}
    (hstart : builder.build callable owner usage = .ok start usage')
    (hplan : AsyncPlan.ofPlans? name start finish = some plan) (env : Env H)
    (receiver : Option Value) (values : List Value) (bridge : Bridge H) :
    let (completion, ready, begun) := bridge.newReady
    (Suffice plan.params values → Passes H plan ready values ∧
      startPlan env plan receiver values bridge =
        match invoke env start receiver (startValues plan ready values) begun with
        | .ok result after =>
          .ok ⟨plan, completion⟩ (after.drop env (result.values ++ [.callback ready]))
        | .error error after =>
          .error error ((after.drop env [.callback ready]).closeCompletion env completion)) ∧
    (¬ Suffice plan.params values → ∃ error, Refused plan.name plan.params values error ∧
      startPlan env plan receiver values bridge = .error (.marshal error) bridge) := by
  obtain ⟨rfl, rfl, hjoins⟩ := AsyncPlan.joins_of_ofPlans? hplan
  dsimp only
  constructor
  · intro hsuffice
    exact ⟨passes_of_suffice (CallPlan.follows_of_build hstart) hjoins hsuffice _,
      startPlan_eq env receiver (checkArity_eq_ok_iff.2 hsuffice)⟩
  · intro hnot
    rcases checkArity_cases plan.name plan.params values bridge with
      ⟨hsuffice, _⟩ | ⟨_, error, herror, hrefused⟩
    · exact absurd hsuffice hnot
    · exact ⟨error, herror, bind_eq_of_eq_error hrefused⟩

/-- A namespace with the two types that operations go by. -/
def loading : CallBuilder where
  mapper.platform.repo := .ofSpaces [{
    name := "N"
    interfaces := [{ name := "AsyncResult" }]
    callbacks := [{
      name := "AsyncReadyCallback"
      params := [{ name := "source", type := .named "gpointer" },
        { name := "result", type := .named "AsyncResult" },
        { name := "data", type := .named "gpointer" }] }] }]
  mapper.platform.pointerSize := 8
  mapper.options := {}
  mapper.space := "N"
  library := "libn.so"

/-- A start function that takes its ready callback between other values. -/
def loadAsync : Callable where
  name := "load_async"
  symbol := "n_load_async"
  params := [
    { name := "path", type := .named "utf8" },
    { name := "limit", type := (TypeRef.named "gpointer").asNullable },
    { name := "ready", type := .named "AsyncReadyCallback", closureIndex := some 3 },
    { name := "data", type := .named "gpointer" },
    { name := "flags", type := .named "guint", optional := true }]

def loadFinish : Callable where
  name := "load_finish"
  symbol := "n_load_finish"
  params := [{ name := "result", type := .named "AsyncResult" }]
  returns := .named "gboolean"

/-- The operation of the two functions. -/
def loadPlan : AsyncPlan :=
  let start := (value? (loading.build loadAsync none {})).getD default
  let finish := (value? (loading.build loadFinish none {})).getD default
  (AsyncPlan.ofPlans? "load" start finish).getD default

/-- Only the path is passed: what is left out before the ready callback is null in the start call,
and what is left out behind it is left out there as well. -/
theorem load_passes : ∃ start finish usage usage',
    loading.build loadAsync none {} = .ok start usage ∧
    loading.build loadFinish none {} = .ok finish usage' ∧
    AsyncPlan.ofPlans? "load" start finish = some loadPlan ∧
    loadPlan.params.map (·.name) = ["path", "limit", "flags"] ∧
    Suffice loadPlan.params [.string "a"] ∧ Passes relay loadPlan ⟨0⟩ [.string "a"] ∧
    startValues loadPlan ⟨0⟩ [.string "a"] = [.string "a", .null, .callback ⟨0⟩] := by
  have hstart := eq_ok_of_isSome default
    (by decide +kernel : (value? (loading.build loadAsync none {})).isSome = true)
  have hfinish := eq_ok_of_isSome default
    (by decide +kernel : (value? (loading.build loadFinish none {})).isSome = true)
  obtain ⟨plan, hplan⟩ := Option.isSome_iff_exists.1 (by decide +kernel :
    (AsyncPlan.ofPlans? "load" ((value? (loading.build loadAsync none {})).getD default)
      ((value? (loading.build loadFinish none {})).getD default)).isSome = true)
  have hsame : loadPlan = plan := by rw [loadPlan, hplan, Option.getD_some]
  rw [← hsame] at hplan
  have hsuffice : Suffice loadPlan.params [.string "a"] := by decide +kernel
  have hcallback : loadPlan.callbackParam = 2 := by decide +kernel
  obtain ⟨hpasses, _⟩ := startPlan_passes_or_refused hstart hplan relayEnv none [.string "a"]
    relayBridge
  refine ⟨_, _, _, _, hstart, hfinish, hplan, by decide +kernel, hsuffice, (hpasses hsuffice).1, ?_⟩
  rw [startValues, hcallback]
  rfl

end Bridge

end Interop
