import Interop.Bridge.Call
import Interop.Proofs.Bridge.Evolution
import Interop.Proofs.Quarks
import Interop.Proofs.Steps

/-! # Asking for numbers and strings

The bridge numbers strings for itself and for native code, which asks by calling two functions that
every program has. There is one table behind both: whoever asks, the same strings get the same
numbers, and the numbers of either stand for their strings with the other.
-/

namespace Interop

open Steps QuarkTable

variable {H : Host}

namespace NativeCall

/-- Asks for the number of a string. -/
def quarkOf (name : String) : NativeCall where
  symbol := "g_quark_from_string"
  args := [{ descriptor := .string .none, value := .string name }]
  returns := .ofPrimitive .uint32 Heap.pointerSize

/-- Asks for the string of a number. -/
def nameOf (quark : Nat) : NativeCall where
  symbol := Bridge.quarkNamer
  args := [{ descriptor := .ofPrimitive .uint32 Heap.pointerSize, value := .ofNat quark }]
  returns := .string .none

end NativeCall

namespace Bridge

variable {env : Env H} {bridge : Bridge H} {library : String}

theorem enter_quarkOf (env : Env H) (name : String)
    (hfind : bridge.symbols.find library "g_quark_from_string" = .ok .quarkFromString) :
    enter env library (.quarkOf name) bridge =
      .ok (.ofNat (bridge.quarks.intern name).1)
        { bridge with quarks := (bridge.quarks.intern name).2 } := by
  rw [enter, get_bind]
  dsimp only [NativeCall.quarkOf]
  rw [hfind]
  rfl

theorem enter_nameOf {quark : Nat} (env : Env H) (hquark : quark < twoPow 32)
    (hfind : bridge.symbols.find library quarkNamer = .ok .quarkToString) :
    enter env library (.nameOf quark) bridge =
      .ok (.ofText? (bridge.quarks.name? quark)) bridge := by
  have hsmall : (UInt64.ofNat quark).toNat % twoPow 32 = quark := by
    rw [UInt64.toNat_ofNat_of_lt' (Nat.lt_trans hquark (by decide)), Nat.mod_eq_of_lt hquark]
  have hnumber : ((NativeCall.nameOf quark).uint 0 : Native H UInt64) bridge =
      .ok (UInt64.ofNat quark) bridge := rfl
  have hrun : NativeFn.quarkToString.run env (.nameOf quark) bridge =
      .ok (.ofText? (bridge.quarks.name? quark)) bridge := by
    rw [NativeFn.run, bind_eq_of_eq_ok hnumber, get_bind, hsmall]
    rfl
  rw [enter, get_bind]
  dsimp only [NativeCall.nameOf] at hrun ⊢
  rw [hfind]
  exact bind_eq_of_eq_ok hrun

/-- Who asks. -/
inductive Asker where
  /-- The bridge, for itself. -/
  | bridge
  /-- Native code, by a call of one of the two functions. -/
  | native

/-- Puts a question and waits for its answer. Whoever asks is given the number in 32 bits. -/
def ask (env : Env H) : Asker × Question → Native H Event
  | (.bridge, .number name) => return .numbered name (.ofNat (← internQuark name))
  | (.bridge, .name quark) => return .named quark ((← get).quarks.name? quark.toNat)
  | (.native, .number name) => do
    let value ← enter env coreLibrary (.quarkOf name)
    match value.asUInt? with
    | some quark => return .numbered name quark.toUInt32
    | none => mismatch "uint" value
  | (.native, .name quark) => do
    match ← enter env coreLibrary (.nameOf quark.toNat) with
    | .null => return .named quark none
    | .string name => return .named quark (some name)
    | other => mismatch "string" other

/-- Native code that calls the two functions gets to those that every program has. -/
structure Offers (bridge : Bridge H) : Prop where
  number : bridge.symbols.find coreLibrary "g_quark_from_string" = .ok .quarkFromString
  name : bridge.symbols.find coreLibrary quarkNamer = .ok .quarkToString

theorem offers_start (host : H.State) : (start host : Bridge H).Offers := ⟨rfl, rfl⟩

/-- Whoever asks gets the answer of the table, and nothing but the table changes. -/
theorem ask_eq_ok (env : Env H) {asked : Asker × Question}
    (hoffers : asked.1 = .native → bridge.Offers) :
    ask env asked bridge =
      .ok (asked.2.answer bridge.quarks)
        { bridge with quarks := asked.2.after bridge.quarks } := by
  obtain ⟨asker, question⟩ := asked
  cases asker with
  | bridge => cases question <;> rfl
  | native =>
      cases question with
      | number name =>
          have hnarrow : (UInt64.ofNat (bridge.quarks.intern name).1).toUInt32 =
              UInt32.ofNat (bridge.quarks.intern name).1 := UInt64.toUInt32_ofNat' _
          rw [ask, bind_eq_of_eq_ok (enter_quarkOf env name (hoffers rfl).number)]
          exact congrArg (fun quark => EStateM.Result.ok (Event.numbered name quark) _) hnarrow
      | name quark =>
          rw [ask, bind_eq_of_eq_ok (enter_nameOf env quark.toNat_lt (hoffers rfl).name),
            Question.answer]
          cases bridge.quarks.name? quark.toNat <;> rfl

/-- By induction over the questions: an answer leaves the two functions where they are. -/
theorem mapM_ask_eq_ok (env : Env H) {asked : List (Asker × Question)}
    (hoffers : ∀ entry ∈ asked, entry.1 = .native → bridge.Offers) :
    asked.mapM (ask env) bridge =
      .ok (bridge.quarks.history (asked.map (·.2)))
        { bridge with quarks := bridge.quarks.run (asked.map (·.2)) } := by
  induction asked generalizing bridge with
  | nil => rfl
  | cons entry rest ih =>
      have hrest : ∀ other ∈ rest, other.1 = .native →
          Offers { bridge with quarks := entry.2.after bridge.quarks } := by
        intro other hmem hnative
        obtain ⟨hnumber, hname⟩ := hoffers other (List.mem_cons_of_mem _ hmem) hnative
        exact ⟨hnumber, hname⟩
      rw [List.mapM_cons, bind_eq_of_eq_ok (ask_eq_ok env (hoffers entry List.mem_cons_self)),
        bind_eq_of_eq_ok (ih hrest)]
      rfl

/-- From a program in which no number has been handed out, every question gets an answer, whoever
asks. Numbers count up from one; each stands for the one string it was handed out for, from then on
and whatever else is asked, and no other number stands for anything. -/
theorem faithful_of_mapM_ask (env : Env H) (bridge : Bridge H) (asked : List (Asker × Question))
    (hnew : bridge.quarks = {})
    (hoffers : ∀ entry ∈ asked, entry.1 = .native → bridge.Offers)
    (hfew : (strings (asked.map (·.2))).toFinset.card < twoPow 32) :
    ∃ events quarks, asked.mapM (ask env) bridge = .ok events { bridge with quarks } ∧
      Faithful (asked.map (·.2)) events := by
  refine ⟨_, _, mapM_ask_eq_ok env hoffers, ?_⟩
  rw [hnew]
  exact faithful_history hfew

/-- Two domains of errors, each of which is asked for by the bridge and by native code. -/
def domains : List (Asker × Question) := [
  (.native, .name 1),
  (.bridge, .number "g-io-error"), (.native, .number "n-door"), (.native, .number "g-io-error"),
  (.native, .name 1), (.bridge, .name 2), (.bridge, .number "n-door"),
  (.bridge, .name 0), (.native, .name 3)]

/-- A number stands for nothing before it is handed out, and neither do zero and the number behind
the last one. -/
theorem domains_faithful : ∃ events quarks,
    domains.mapM (ask (silentEnv default)) (start ()) = .ok events { start () with quarks } ∧
      Faithful (domains.map (·.2)) events ∧
      events = [.named 1 none, .numbered "g-io-error" 1, .numbered "n-door" 2,
        .numbered "g-io-error" 1, .named 1 (some "g-io-error"), .named 2 (some "n-door"),
        .numbered "n-door" 2, .named 0 none, .named 3 none] := by
  obtain ⟨events, quarks, hasked, hfaithful⟩ := faithful_of_mapM_ask (silentEnv default)
    (start ()) domains rfl (fun _ _ _ => offers_start (H := silent) ()) (by decide)
  have hevents : value? (domains.mapM (ask (silentEnv default)) (start ())) = some [
      .named 1 none, .numbered "g-io-error" 1, .numbered "n-door" 2, .numbered "g-io-error" 1,
      .named 1 (some "g-io-error"), .named 2 (some "n-door"), .numbered "n-door" 2,
      .named 0 none, .named 3 none] := by decide +kernel
  rw [hasked] at hevents
  exact ⟨events, quarks, hasked, hfaithful, Option.some.inj hevents⟩

end Bridge

end Interop
