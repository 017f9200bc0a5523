import Mathlib.Data.Finset.Card
import Interop.Number.Power
import Interop.Quarks

/-! # Numbers for strings

A table of quarks has no string twice and grows at its end only. What a number stands for is settled
when the number is handed out, then, and nothing is handed out for a second string. Callers see
numbers of 32 bits, which are as good as long as there are not more strings than such numbers.
-/

namespace Interop

theorem Lists.eraseDups_concat {α : Type} [DecidableEq α] (items : List α) (item : α) :
    (items ++ [item]).eraseDups =
      if item ∈ items then items.eraseDups else items.eraseDups ++ [item] := by
  rw [List.eraseDups_append, List.cons_removeAll]
  by_cases hmem : item ∈ items <;> simp [hmem, List.eraseDups_cons]

namespace QuarkTable

variable {table : QuarkTable} {name other : String} {quark number : Nat}

/-! ## One string more -/

theorem intern_of_mem (h : name ∈ table.names) : (table.intern name).2 = table := by
  unfold intern
  split
  next => rfl
  next hnone => exact absurd (List.findIdx?_eq_none_iff.1 hnone name h) (by simp)

theorem intern_of_notMem (h : name ∉ table.names) :
    table.intern name = (table.names.length + 1, ⟨table.names ++ [name]⟩) := by
  have hnone : table.names.findIdx? (· == name) = none :=
    List.findIdx?_eq_none_iff.2 fun old hold => beq_eq_false_iff_ne.2 fun hsame => h (hsame ▸ hold)
  rw [intern, hnone]

/-- The number that a string is given names the string. -/
theorem name?_intern (table : QuarkTable) (name : String) :
    (table.intern name).2.name? (table.intern name).1 = some name := by
  unfold intern
  split
  next index hindex =>
    obtain ⟨hlt, hname, _⟩ := List.findIdx?_eq_some_iff_getElem.1 hindex
    rw [name?, List.getElem?_eq_getElem hlt, eq_of_beq hname]
  next => simp [name?]

/-- At most one number more is used. -/
theorem intern_le (table : QuarkTable) (name : String) :
    (table.intern name).1 ≤ table.names.length + 1 := by
  unfold intern
  split
  next index hindex =>
    obtain ⟨hlt, _⟩ := List.findIdx?_eq_some_iff_getElem.1 hindex
    exact Nat.succ_le_succ (Nat.le_of_lt hlt)
  next => exact Nat.le_refl _

/-- No number behind the last one stands for anything. -/
theorem le_of_name?_eq_some (h : table.name? quark = some name) : quark ≤ table.names.length := by
  cases quark with
  | zero => cases h
  | succ index =>
      obtain ⟨hlt, _⟩ := List.getElem?_eq_some_iff.1 h
      exact hlt

/-- A string has one number. -/
theorem eq_of_name?_eq_some (hnodup : table.names.Nodup) (h : table.name? quark = some name)
    (hother : table.name? number = some name) : quark = number := by
  cases quark with
  | zero => cases h
  | succ index =>
      cases number with
      | zero => cases hother
      | succ place =>
          obtain ⟨hlt, _⟩ := List.getElem?_eq_some_iff.1 h
          exact congrArg _ ((List.getElem?_inj hlt hnodup).1 (h.trans hother.symm))

theorem name?_concat (names : List String) (name : String) (quark : Nat) :
    name? ⟨names ++ [name]⟩ quark =
      if quark = names.length + 1 then some name else name? ⟨names⟩ quark := by
  cases quark with
  | zero => rfl
  | succ index =>
      rcases Nat.lt_trichotomy index names.length with hlt | rfl | hgt
      · rw [if_neg (by omega)]
        exact List.getElem?_append_left hlt
      · rw [if_pos rfl]
        exact List.getElem?_concat_length
      · rw [if_neg (by omega), name?, name?, List.getElem?_eq_none (Nat.le_of_lt hgt),
          List.getElem?_eq_none (List.length_append.trans_le hgt)]

/-- All numbers keep their strings, and the string that was asked for has its number. -/
theorem name?_intern_eq_some_iff :
    (table.intern other).2.name? quark = some name ↔
      table.name? quark = some name ∨ name = other ∧ quark = (table.intern other).1 := by
  by_cases hmem : other ∈ table.names
  · have hgiven := table.name?_intern other
    rw [intern_of_mem hmem] at hgiven ⊢
    refine ⟨.inl, ?_⟩
    rintro (hold | ⟨rfl, rfl⟩)
    · exact hold
    · exact hgiven
  · rw [intern_of_notMem hmem, name?_concat]
    by_cases hnew : quark = table.names.length + 1
    · have hfree : table.name? quark ≠ some name := fun hold => by
        have hle := le_of_name?_eq_some hold
        omega
      simp [hnew, hnew ▸ hfree, eq_comm]
    · simp [hnew]

theorem mem_names_intern :
    other ∈ (table.intern name).2.names ↔ other ∈ table.names ∨ other = name := by
  by_cases hmem : name ∈ table.names
  · rw [intern_of_mem hmem]
    exact ⟨.inl, fun h => h.elim id fun hsame => hsame ▸ hmem⟩
  · rw [intern_of_notMem hmem]
    exact List.mem_append.trans (or_congr_right List.mem_singleton)

theorem nodup_names_intern (h : table.names.Nodup) (name : String) :
    (table.intern name).2.names.Nodup := by
  by_cases hmem : name ∈ table.names
  · rwa [intern_of_mem hmem]
  · rw [intern_of_notMem hmem]
    exact List.nodup_append.2 ⟨h, List.nodup_singleton name, fun old hold new hnew hsame =>
      hmem (List.mem_singleton.1 hnew ▸ hsame ▸ hold)⟩

theorem length_names_le_intern (table : QuarkTable) (name : String) :
    table.names.length ≤ (table.intern name).2.names.length := by
  by_cases hmem : name ∈ table.names
  · rw [intern_of_mem hmem]
  · rw [intern_of_notMem hmem, List.length_append]
    exact Nat.le_add_right _ _

/-! ## Questions and answers -/

/-- What a table is asked. -/
inductive Question where
  /-- The number of a string, which is given one if it has none. -/
  | number (name : String)
  /-- The string of a number. -/
  | name (quark : UInt32)
  deriving DecidableEq, Repr

/-- A question with its answer. -/
inductive Event where
  | numbered (name : String) (quark : UInt32)
  | named (quark : UInt32) (name? : Option String)
  deriving DecidableEq, Repr

namespace Question

/-- The string that is to be numbered. -/
def string? : Question → Option String
  | .number name => some name
  | .name _ => none

def answer (table : QuarkTable) : Question → Event
  | .number name => .numbered name (.ofNat (table.intern name).1)
  | .name quark => .named quark (table.name? quark.toNat)

/-- The table behind the answer. -/
def after (table : QuarkTable) : Question → QuarkTable
  | .number name => (table.intern name).2
  | .name _ => table

end Question

namespace Event

def question : Event → Question
  | .numbered name _ => .number name
  | .named quark _ => .name quark

/-- The number that is handed out. -/
def quark? : Event → Option UInt32
  | .numbered _ quark => some quark
  | .named .. => none

end Event

/-- The strings to be numbered. -/
def strings (questions : List Question) : List String := questions.filterMap Question.string?

/-- The numbers that are handed out. -/
def quarks (events : List Event) : List UInt32 := events.filterMap Event.quark?

/-- The table behind all answers. -/
def run (table : QuarkTable) (questions : List Question) : QuarkTable :=
  questions.foldl Question.after table

/-- Questions one after the other with their answers. -/
def history (table : QuarkTable) : List Question → List Event
  | [] => []
  | question :: rest => question.answer table :: (question.after table).history rest

/-- What whoever keeps a number in the place of a string relies on. -/
structure Faithful (questions : List Question) (events : List Event) : Prop where
  /-- Every question has its answer. -/
  questions_eq : events.map Event.question = questions
  /-- A string gets the same number each time, and no other string gets it. -/
  quark_eq_iff : ∀ name other quark number, .numbered name quark ∈ events →
    .numbered other number ∈ events → (quark = number ↔ name = other)
  /-- The numbers, each where it is first handed out, are 1, 2, 3 and so on. -/
  quarks_eq : (quarks events).eraseDups.map UInt32.toNat =
    List.range' 1 (strings questions).toFinset.card
  /-- A number stands for the string that it was handed out for before, however long ago, and for
  nothing if there is none. -/
  name?_eq_some_iff : ∀ before quark name? after, events = before ++ .named quark name? :: after →
    ∀ name, name? = some name ↔ .numbered name quark ∈ before
  /-- Zero stands for nothing. -/
  name?_zero : ∀ name?, .named 0 name? ∈ events → name? = none

theorem run_append (table : QuarkTable) (questions others : List Question) :
    table.run (questions ++ others) = (table.run questions).run others :=
  List.foldl_append

theorem map_question_history (table : QuarkTable) (questions : List Question) :
    (table.history questions).map Event.question = questions := by
  induction questions generalizing table with
  | nil => rfl
  | cons question rest ih =>
      rw [history, List.map_cons, ih]
      cases question <;> rfl

/-- An answer is that of the table behind the questions before it. -/
theorem exists_questions_of_history_eq {questions : List Question} {before after : List Event}
    {event : Event} (h : table.history questions = before ++ event :: after) :
    ∃ asked question rest, questions = asked ++ question :: rest ∧
      table.history asked = before ∧ question.answer (table.run asked) = event := by
  induction before generalizing table questions with
  | nil =>
      cases questions with
      | nil => cases h
      | cons question rest =>
          obtain ⟨hevent, _⟩ := List.cons.inj h
          exact ⟨[], question, rest, rfl, rfl, hevent⟩
  | cons first before ih =>
      cases questions with
      | nil => cases h
      | cons question rest =>
          obtain ⟨rfl, hrest⟩ := List.cons.inj h
          obtain ⟨asked, next, others, rfl, rfl, hevent⟩ := ih hrest
          exact ⟨question :: asked, next, others, rfl, rfl, hevent⟩

theorem nodup_names_run (h : table.names.Nodup) (questions : List Question) :
    (table.run questions).names.Nodup := by
  induction questions generalizing table with
  | nil => exact h
  | cons question rest ih =>
      cases question with
      | number name => exact ih (nodup_names_intern h name)
      | name quark => exact ih h

theorem mem_names_run (questions : List Question) :
    name ∈ (table.run questions).names ↔ name ∈ table.names ∨ name ∈ strings questions := by
  induction questions generalizing table with
  | nil => simp [run, strings]
  | cons question rest ih =>
      cases question with
      | number other =>
          refine ih.trans ?_
          simp [Question.after, mem_names_intern, strings, Question.string?, or_assoc]
      | name quark => exact ih.trans (by simp [Question.after, strings, Question.string?])

theorem length_names_le_run (table : QuarkTable) (questions : List Question) :
    table.names.length ≤ (table.run questions).names.length := by
  induction questions generalizing table with
  | nil => exact Nat.le_refl _
  | cons question rest ih =>
      cases question with
      | number name => exact (table.length_names_le_intern name).trans (ih _)
      | name quark => exact ih _

/-- There are as many numbers as there are strings. -/
theorem length_names_run (questions : List Question) :
    (run {} questions).names.length = (strings questions).toFinset.card := by
  rw [← List.toFinset_card_of_nodup (nodup_names_run List.nodup_nil questions)]
  refine congrArg Finset.card (Finset.ext fun name => ?_)
  rw [List.mem_toFinset, List.mem_toFinset, mem_names_run]
  exact or_iff_right List.not_mem_nil

/-! ## What a table knows -/

/-- The table is what the events leave: it has the strings that were numbered, with the numbers that
were handed out. -/
structure Records (table : QuarkTable) (events : List Event) : Prop where
  numbered_mem_iff : ∀ name quark,
    .numbered name quark ∈ events ↔ table.name? quark.toNat = some name
  quarks_eq : (quarks events).eraseDups.map UInt32.toNat = List.range' 1 table.names.length

namespace Records

variable {events : List Event}

theorem empty : Records {} [] where
  numbered_mem_iff name quark := by cases quark.toNat <;> simp [name?]
  quarks_eq := rfl

theorem mem_quarks_iff (h : table.Records events) {quark : UInt32} :
    quark ∈ quarks events ↔ ∃ name, table.name? quark.toNat = some name := by
  rw [quarks, List.mem_filterMap]
  constructor
  · rintro ⟨event, hevent, hquark⟩
    cases event with
    | numbered name number =>
        obtain rfl := Option.some.inj hquark
        exact ⟨name, (h.numbered_mem_iff name number).1 hevent⟩
    | named number name? => cases hquark
  · rintro ⟨name, hname⟩
    exact ⟨.numbered name quark, (h.numbered_mem_iff name quark).2 hname, rfl⟩

/-- A string that has a number gets it again, and one that has none gets the number behind all
others. -/
theorem numbered (h : table.Records events) {name : String}
    (hfew : (table.intern name).2.names.length < twoPow 32) :
    (table.intern name).2.Records
      (events ++ [.numbered name (.ofNat (table.intern name).1)]) := by
  have hgiven := table.name?_intern name
  -- the table has few enough strings for the number to fit, whether it is new or not
  have hnumber : (UInt32.ofNat (table.intern name).1).toNat = (table.intern name).1 :=
    UInt32.toNat_ofNat_of_lt' (Nat.lt_of_le_of_lt (le_of_name?_eq_some hgiven) hfew)
  refine ⟨fun other quark => ?_, ?_⟩
  · rw [name?_intern_eq_some_iff, List.mem_append, h.numbered_mem_iff, List.mem_singleton,
      Event.numbered.injEq, ← UInt32.toNat_inj, hnumber]
  · rw [quarks, List.filterMap_append]
    change (quarks events ++ [UInt32.ofNat (table.intern name).1]).eraseDups.map _ = _
    rw [Lists.eraseDups_concat]
    by_cases hmem : name ∈ table.names
    · rw [intern_of_mem hmem] at hgiven ⊢
      rw [if_pos (h.mem_quarks_iff.2 ⟨name, hnumber.symm ▸ hgiven⟩), h.quarks_eq]
    · -- numbers that were handed out stand for strings, and this one is behind the last string
      have hnew : UInt32.ofNat (table.intern name).1 ∉ quarks events := by
        rw [h.mem_quarks_iff, hnumber, intern_of_notMem hmem]
        rintro ⟨other, hother⟩
        exact Nat.not_succ_le_self _ (le_of_name?_eq_some hother)
      rw [if_neg hnew, List.map_append, h.quarks_eq, List.map_singleton, hnumber,
        intern_of_notMem hmem, List.length_append, List.length_singleton, List.range'_1_concat,
        Nat.add_comm 1]

/-- Looking a number up hands none out. -/
theorem named (h : table.Records events) (quark : UInt32) (name? : Option String) :
    table.Records (events ++ [.named quark name?]) where
  numbered_mem_iff name number := by simp [h.numbered_mem_iff]
  quarks_eq := by
    rw [← h.quarks_eq, quarks, List.filterMap_append]
    exact congrArg (fun given => (List.eraseDups given).map _) (List.append_nil _)

theorem answer (h : table.Records events) {question : Question}
    (hfew : (question.after table).names.length < twoPow 32) :
    (question.after table).Records (events ++ [question.answer table]) := by
  cases question with
  | number name => exact h.numbered hfew
  | name quark => exact h.named quark _

/-- The table behind all questions records what was recorded before and all answers. -/
theorem run (h : table.Records events) {questions : List Question}
    (hfew : (table.run questions).names.length < twoPow 32) :
    (table.run questions).Records (events ++ table.history questions) := by
  induction questions generalizing table events with
  | nil => rwa [history, List.append_nil]
  | cons question rest ih =>
      have hfirst := h.answer (Nat.lt_of_le_of_lt (length_names_le_run _ rest) hfew)
      rw [history, List.append_cons]
      exact ih hfirst hfew

end Records

/-- However often a table is asked, for whichever strings and numbers, numbers stand for strings one
for one, as long as there are fewer strings than there are numbers of 32 bits. -/
theorem faithful_history {questions : List Question}
    (hfew : (strings questions).toFinset.card < twoPow 32) :
    Faithful questions (history {} questions) := by
  have hlength := length_names_run questions
  have hrecords : (run {} questions).Records (history {} questions) :=
    Records.empty.run (hlength ▸ hfew)
  refine ⟨map_question_history _ _, ?_, hlength ▸ hrecords.quarks_eq, ?_, ?_⟩
  · intro name other quark number hname hother
    have hname := (hrecords.numbered_mem_iff name quark).1 hname
    have hother := (hrecords.numbered_mem_iff other number).1 hother
    constructor
    · rintro rfl
      exact Option.some.inj (hname.symm.trans hother)
    · rintro rfl
      exact UInt32.toNat_inj.1
        (eq_of_name?_eq_some (nodup_names_run List.nodup_nil questions) hname hother)
  · intro before quark name? after hevents name
    obtain ⟨asked, question, rest, rfl, rfl, hanswer⟩ := exists_questions_of_history_eq hevents
    -- what comes behind the question has no part in its answer
    have hbefore : (run {} asked).names.length < twoPow 32 := by
      rw [← hlength, run_append] at hfew
      exact Nat.lt_of_le_of_lt (length_names_le_run _ _) hfew
    cases question with
    | number other => cases hanswer
    | name number =>
        cases hanswer
        exact ((Records.empty.run hbefore).numbered_mem_iff name quark).symm
  · intro name? hmem
    obtain ⟨before, after, hevents⟩ := List.append_of_mem hmem
    obtain ⟨asked, question, rest, _, _, hanswer⟩ := exists_questions_of_history_eq hevents
    cases question with
    | number other => cases hanswer
    | name number =>
        obtain ⟨rfl, rfl⟩ := Event.named.inj hanswer
        rfl

end QuarkTable

end Interop
