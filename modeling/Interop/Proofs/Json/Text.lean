import Mathlib.Data.List.TakeWhile
import Interop.Number.Power
import Interop.Json.Parser

/-! # Text read back

The compact text of a value, cut into tokens and parsed, is the value again. Cutting needs to see
where a word ends: behind it stands a separator or nothing at all.
-/

namespace Interop.Json

/-- A value that its text says all about: every number is an integer of 64 bits, and no part is
unreadable. -/
inductive Plain : Json → Prop
  | null : Plain .null
  | bool (value : Bool) : Plain (.bool value)
  | int {value : Int} (hlow : -twoPow 63 ≤ value) (hhigh : value < twoPow 64) : Plain (.int value)
  | str (value : String) : Plain (.str value)
  | arr {items : List Json} (hitems : ∀ item ∈ items, Plain item) : Plain (.arr items)
  | obj {members : List (String × Json)} (hmembers : ∀ member ∈ members, Plain member.2) :
      Plain (.obj members)

mutual

/-- The tokens of the compact text of a value. -/
def tokens : Json → List Token
  | .str value => [.text (some value)]
  | .arr [] => [.openArray, .closeArray]
  | .arr (item :: rest) => .openArray :: tokens item ++ itemTokens rest
  | .obj [] => [.openObject, .closeObject]
  | .obj ((key, value) :: rest) =>
    .openObject :: .text (some key) :: .colon :: tokens value ++ memberTokens rest
  | value => [.atom value]

def itemTokens : List Json → List Token
  | [] => [.closeArray]
  | item :: rest => .comma :: tokens item ++ itemTokens rest

def memberTokens : List (String × Json) → List Token
  | [] => [.closeObject]
  | (key, value) :: rest =>
    .comma :: .text (some key) :: .colon :: tokens value ++ memberTokens rest

end

/-! ## Integers -/

namespace Numeral

theorem digitsValue_toDigits (n : Nat) : digitsValue (Nat.toDigits 10 n) = n := by
  calc digitsValue (Nat.toDigits 10 n)
      = Nat.ofDigitChars 10 (Nat.toDigits 10 n) 0 := by
        simp only [Nat.ofDigitChars_eq_foldl, Nat.mul_comm]
        rfl
    _ = n := Nat.ofDigitChars_ten_toDigits

theorem digitChar_ne_zero : ∀ n < 10, 0 < n → n.digitChar ≠ '0' := by decide

/-- The digits of a positive number do not start with zero. -/
theorem toDigits_eq_cons {n : Nat} (hn : 0 < n) :
    ∃ c rest, Nat.toDigits 10 n = c :: rest ∧ c ≠ '0' := by
  induction n using Nat.strongRecOn with
  | ind n ih =>
    rw [Nat.toDigits_eq_if (by decide)]
    split
    · next hlt => exact ⟨n.digitChar, [], rfl, digitChar_ne_zero n hlt hn⟩
    · next hge =>
      obtain ⟨c, rest, hdigits, hc⟩ := ih (n / 10) (by omega) (by omega)
      exact ⟨c, rest ++ [(n % 10).digitChar], by rw [hdigits, List.cons_append], hc⟩

theorem wholeOk_toDigits (n : Nat) : wholeOk (Nat.toDigits 10 n) = true := by
  rcases Nat.eq_zero_or_pos n with rfl | hn
  · rfl
  · obtain ⟨c, rest, hdigits, hc⟩ := toDigits_eq_cons hn
    rw [hdigits]
    unfold wholeOk
    split <;> simp_all

/-- A number written in digits is taken apart as its whole part. -/
theorem ofChars?_digits (negative : Bool) (n : Nat) :
    ofChars? ((if negative then ['-'] else []) ++ Nat.toDigits 10 n) =
      some ⟨negative, Nat.toDigits 10 n, none, none⟩ := by
  have hdigit : ∀ c ∈ Nat.toDigits 10 n, c.isDigit = true := fun c hc =>
    Nat.isDigit_of_mem_toDigits (by decide) (by decide) hc
  have hsign : ∀ rest, Nat.toDigits 10 n ≠ '-' :: rest := by
    intro rest hdigits
    exact absurd (hdigit '-' (by simp [hdigits])) (by decide)
  have htake := List.takeWhile_eq_self_iff.2 hdigit
  have hdrop := List.dropWhile_eq_nil_iff.2 hdigit
  unfold ofChars?
  split
  next sign digits hsplit =>
    obtain ⟨rfl, rfl⟩ : sign = negative ∧ digits = Nat.toDigits 10 n := by
      cases negative <;> simp_all
    rw [htake, hdrop]
    dsimp only
    rw [wholeOk_toDigits]
    rfl

end Numeral

theorem intChars_eq (value : Int) :
    intChars value =
      (if decide (value < 0) then ['-'] else []) ++ Nat.toDigits 10 value.natAbs := by
  cases value <;> simp [intChars, Int.natAbs]

theorem ofWord?_intChars {value : Int} (hlow : -twoPow 63 ≤ value) (hhigh : value < twoPow 64) :
    ofWord? (intChars value) = some (.int value) := by
  have hnumeral : Numeral.ofChars? (intChars value) =
      some ⟨decide (value < 0), Nat.toDigits 10 value.natAbs, none, none⟩ := by
    rw [intChars_eq, Numeral.ofChars?_digits]
  have hinteger : Numeral.integer?
      ⟨decide (value < 0), Nat.toDigits 10 value.natAbs, none, none⟩ = some value := by
    have hvalue : (if value < 0 then -(value.natAbs : Int) else value.natAbs) = value := by
      split <;> omega
    simp only [Numeral.integer?, Numeral.digitsValue_toDigits, decide_eq_true_eq, hvalue]
    simp [hlow, hhigh]
    omega
  unfold ofWord?
  split
  · next hword => rw [hword] at hnumeral; cases hnumeral
  · next hword => rw [hword] at hnumeral; cases hnumeral
  · next hword => rw [hword] at hnumeral; cases hnumeral
  · rw [hnumeral]
    simp [hinteger]

/-! ## Cutting into tokens -/

namespace Token

/-- What stands behind a value: nothing, or first of all a character that ends a word. -/
def Apart (rest : List Char) : Prop := ∀ c ∈ rest.head?, isWordChar c = false

theorem scan_cons (mode : Mode) (c : Char) (rest : List Char) :
    scan mode (c :: rest) =
      (step mode c).bind fun out => (scan out.2 rest).map (out.1 ++ ·) := by
  cases mode <;> simp only [scan, Option.bind_eq_bind, Option.map_eq_bind] <;> rfl

/-- A character that ends no token only moves the automaton. -/
theorem scan_silent {mode next : Mode} {c : Char} (h : step mode c = some ([], next))
    (rest : List Char) : scan mode (c :: rest) = scan next rest := by
  rw [scan_cons, h, Option.bind_some]
  cases scan next rest <;> rfl

theorem startAt_of_isWordChar {c : Char} (hc : isWordChar c = true) :
    startAt c = some ([], .word [c]) := by
  unfold startAt
  split <;> first | exact absurd hc (by decide) | simp [hc]

/-- A word goes on to the first character that ends it. -/
theorem scan_word {word rest : List Char} (hword : ∀ c ∈ word, isWordChar c = true)
    (hrest : Apart rest) (seen : List Char) :
    scan (.word seen) (word ++ rest) =
      (ofWord? (seen.reverse ++ word)).bind fun value =>
        (scan .gap rest).map (.atom value :: ·) := by
  induction word generalizing seen with
  | nil =>
      cases rest with
      | nil => cases hvalue : ofWord? seen.reverse <;> simp [scan, hvalue]
      | cons c rest =>
          have hc : isWordChar c = false := hrest c (by simp)
          cases hvalue : ofWord? seen.reverse <;> cases hstart : startAt c <;>
            simp [scan_cons, step, hc, hvalue, hstart, Function.comp_def]
  | cons c word ih =>
      have hstep : step (.word seen) c = some ([], .word (c :: seen)) := by
        rw [step, if_pos (hword c List.mem_cons_self)]
      rw [List.cons_append, scan_silent hstep,
        ih fun other hother => hword other (List.mem_cons_of_mem c hother)]
      simp

theorem scan_atom {word rest : List Char} {value : Json} (hvalue : ofWord? word = some value)
    (hword : ∀ c ∈ word, isWordChar c = true) (hrest : Apart rest) :
    scan .gap (word ++ rest) = (scan .gap rest).map (.atom value :: ·) := by
  cases word with
  | nil => cases hvalue
  | cons c word =>
      have hstart : step .gap c = some ([], .word [c]) :=
        startAt_of_isWordChar (hword c List.mem_cons_self)
      rw [List.cons_append, scan_silent hstart,
        scan_word (fun other hother => hword other (List.mem_cons_of_mem c hother)) hrest]
      simp [hvalue]

/-! ### Strings -/

/-- A control character written by its code is read as itself. -/
theorem scan_code {c : Char} (hc : c.toNat < 32) (seen : List Piece) (rest : List Char) :
    scan (.escape seen) ('u' :: Hex.fixed 4 c.toNat ++ rest) =
      scan (.string (.scalar c :: seen)) rest := by
  have hunit : Piece.ofUnit c.toNat = .scalar c := by
    rw [Piece.ofUnit, if_neg (by omega), Char.ofNat_toNat]
  have hdigits : Hex.fixed 4 c.toNat =
      [Hex.digit 0, Hex.digit 0, Hex.digit (c.toNat / 16), Hex.digit (c.toNat % 16)] := by
    have hzero : c.toNat / 16 / 16 = 0 := by omega
    have hmod : c.toNat / 16 % 16 = c.toNat / 16 := by omega
    simp [Hex.fixed, hzero, hmod]
  have hstart : step (.escape seen) 'u' = some ([], .unicode seen 3 0) := rfl
  have hmore : ∀ digit < 16, ∀ missing, step (.unicode seen (missing + 1) 0) (Hex.digit digit) =
      some ([], .unicode seen missing digit) := by
    intro digit hdigit missing
    simp [step, Hex.value?_digit digit hdigit]
  have hlast : step (.unicode seen 0 (c.toNat / 16)) (Hex.digit (c.toNat % 16)) =
      some ([], .string (.scalar c :: seen)) := by
    have hcode : c.toNat / 16 * 16 + c.toNat % 16 = c.toNat := by omega
    simp [step, Hex.value?_digit (c.toNat % 16) (by omega), hcode, hunit]
  simp only [hdigits, List.cons_append, List.nil_append]
  rw [scan_silent hstart, scan_silent (hmore 0 (by decide) 2), scan_silent (hmore 0 (by decide) 1),
    scan_silent (hmore (c.toNat / 16) (by omega) 0), scan_silent hlast]

theorem scan_escaped (c : Char) (seen : List Piece) (rest : List Char) :
    scan (.string seen) ((escape? c).getD [c] ++ rest) =
      scan (.string (.scalar c :: seen)) rest := by
  unfold escape?
  split
  case h_8 hquote hslash _ _ _ _ _ =>
    have hplain : c ≠ '"' ∧ c ≠ '\\' := ⟨hquote, hslash⟩
    split
    · next hc => exact (scan_silent rfl _).trans (scan_code hc seen rest)
    · next hc => exact scan_silent (by simp [step, hc, hplain]) rest
  -- a back-slash and a letter are read as two characters that end no token
  all_goals exact (scan_silent rfl _).trans (scan_silent rfl rest)

theorem scan_quoteChars (content : List Char) (seen : List Piece) (rest : List Char) :
    scan (.string seen) (quoteChars content ++ rest) =
      scan (.string ((content.map .scalar).reverse ++ seen)) rest := by
  induction content generalizing seen with
  | nil => rfl
  | cons c content ih => simp [quoteChars, List.append_assoc, scan_escaped, ih]

theorem joinPieces_scalars (content : List Char) :
    joinPieces (content.map .scalar) = some content := by
  induction content with
  | nil => rfl
  | cons c content ih => simp [joinPieces, ih]

theorem scan_quote (content : String) (rest : List Char) :
    scan .gap (quote content ++ rest) =
      (scan .gap rest).map (.text (some content) :: ·) := by
  have hopen : step .gap '"' = some ([], .string []) := rfl
  rw [quote, List.cons_append, List.cons_append, scan_silent hopen]
  simp [scan_quoteChars, scan_cons, step, joinPieces_scalars]

/-! ### Values -/

theorem isWordChar_of_isDigit {c : Char} (hc : c.isDigit = true) : isWordChar c = true := by
  simp [isWordChar, Char.isAlphanum, hc]

theorem isWordChar_of_mem_intChars {value : Int} {c : Char} (hc : c ∈ intChars value) :
    isWordChar c = true := by
  rw [intChars_eq, List.mem_append] at hc
  rcases hc with hsign | hdigit
  · split at hsign
    · rw [List.mem_singleton.1 hsign]; rfl
    · cases hsign
  · exact isWordChar_of_isDigit (Nat.isDigit_of_mem_toDigits (by decide) (by decide) hdigit)

theorem apart_itemChars (items : List Json) (rest : List Char) :
    Apart (itemChars items ++ rest) := by
  cases items <;> simp [itemChars, Apart, isWordChar]

theorem apart_memberChars (members : List (String × Json)) (rest : List Char) :
    Apart (memberChars members ++ rest) := by
  cases members <;> simp [memberChars, Apart, isWordChar]

/-- What `scan` does on a text that starts with a value. -/
def Cuts (value : Json) : Prop :=
  ∀ rest, Apart rest → scan .gap (value.chars ++ rest) = (scan .gap rest).map (value.tokens ++ ·)

theorem scan_itemChars {items : List Json} (hitems : ∀ item ∈ items, Cuts item)
    (rest : List Char) :
    scan .gap (itemChars items ++ rest) = (scan .gap rest).map (itemTokens items ++ ·) := by
  have hclose : step .gap ']' = some ([.closeArray], .gap) := rfl
  have hcomma : step .gap ',' = some ([.comma], .gap) := rfl
  induction items with
  | nil => simp [itemChars, itemTokens, scan_cons, hclose]
  | cons item items ih =>
      have hfirst := hitems item List.mem_cons_self _ (apart_itemChars items rest)
      have hmore := ih fun other hother => hitems other (List.mem_cons_of_mem item hother)
      simp [itemChars, itemTokens, scan_cons, hcomma, hfirst, hmore, Function.comp_def]

theorem scan_memberChars {members : List (String × Json)}
    (hmembers : ∀ member ∈ members, Cuts member.2) (rest : List Char) :
    scan .gap (memberChars members ++ rest) = (scan .gap rest).map (memberTokens members ++ ·) := by
  have hclose : step .gap '\x7d' = some ([.closeObject], .gap) := rfl
  have hcomma : step .gap ',' = some ([.comma], .gap) := rfl
  have hcolon : step .gap ':' = some ([.colon], .gap) := rfl
  induction members with
  | nil => simp [memberChars, memberTokens, scan_cons, hclose]
  | cons member members ih =>
      obtain ⟨key, value⟩ := member
      have hfirst := hmembers (key, value) List.mem_cons_self _ (apart_memberChars members rest)
      have hmore := ih fun other hother => hmembers other (List.mem_cons_of_mem _ hother)
      simp [memberChars, memberTokens, scan_cons, hcomma, hcolon, scan_quote, hfirst, hmore,
        Function.comp_def]

theorem cuts {value : Json} (h : Plain value) : Cuts value := by
  have hopenArray : step .gap '[' = some ([.openArray], .gap) := rfl
  have hcloseArray : step .gap ']' = some ([.closeArray], .gap) := rfl
  have hopenObject : step .gap '\x7b' = some ([.openObject], .gap) := rfl
  have hcloseObject : step .gap '\x7d' = some ([.closeObject], .gap) := rfl
  have hcolon : step .gap ':' = some ([.colon], .gap) := rfl
  induction h with
  | null => exact fun rest hrest => scan_atom rfl (List.all_eq_true.1 rfl) hrest
  | bool value =>
      cases value with
      | true => exact fun rest hrest => scan_atom rfl (List.all_eq_true.1 rfl) hrest
      | false => exact fun rest hrest => scan_atom rfl (List.all_eq_true.1 rfl) hrest
  | int hlow hhigh =>
      exact fun rest hrest =>
        scan_atom (ofWord?_intChars hlow hhigh) (fun c hc => isWordChar_of_mem_intChars hc) hrest
  | str value =>
      intro rest _
      simp [chars, tokens, scan_quote]
  | @arr items _ ih =>
      intro rest hrest
      cases items with
      | nil => simp [chars, tokens, scan_cons, hopenArray, hcloseArray, Function.comp_def]
      | cons item items =>
          have hfirst := ih item List.mem_cons_self _ (apart_itemChars items rest)
          have hmore := scan_itemChars
            (fun other hother => ih other (List.mem_cons_of_mem item hother)) rest
          simp [chars, tokens, scan_cons, hopenArray, hfirst, hmore, Function.comp_def]
  | @obj members _ ih =>
      intro rest hrest
      cases members with
      | nil => simp [chars, tokens, scan_cons, hopenObject, hcloseObject, Function.comp_def]
      | cons member members =>
          obtain ⟨key, value⟩ := member
          have hfirst := ih (key, value) List.mem_cons_self _ (apart_memberChars members rest)
          have hmore := scan_memberChars
            (fun other hother => ih other (List.mem_cons_of_mem _ hother)) rest
          simp [chars, tokens, scan_cons, hopenObject, hcolon, scan_quote, hfirst, hmore,
            Function.comp_def]

end Token

/-! ## Putting tokens together -/

namespace Expecting

/-- What the parser does on tokens that start with those of a value. -/
def Takes (value : Json) : Prop :=
  ∀ (orEnd : Bool) (outer : List Frame) (rest : List Token),
    run (.beforeValue orEnd outer) (value.tokens ++ rest) = run (deliver value outer) rest

theorem run_itemTokens {items : List Json} (hitems : ∀ item ∈ items, Takes item)
    (seen : List Json) (outer : List Frame) (rest : List Token) :
    run (.afterItem seen outer) (itemTokens items ++ rest) =
      run (deliver (.arr (seen.reverse ++ items)) outer) rest := by
  induction items generalizing seen with
  | nil => simp [itemTokens, run, step]
  | cons item items ih =>
      have hfirst := hitems item List.mem_cons_self false (.items seen :: outer)
      have hmore := ih fun other hother => hitems other (List.mem_cons_of_mem item hother)
      simp [itemTokens, run, step, hfirst, deliver, hmore]

theorem run_memberTokens {members : List (String × Json)}
    (hmembers : ∀ member ∈ members, Takes member.2)
    (seen : List (String × Json)) (outer : List Frame) (rest : List Token) :
    run (.afterMember (some seen) outer) (memberTokens members ++ rest) =
      run (deliver (.obj (seen.reverse ++ members)) outer) rest := by
  induction members generalizing seen with
  | nil => simp [memberTokens, run, step, close]
  | cons member members ih =>
      obtain ⟨key, value⟩ := member
      have hfirst := hmembers (key, value) List.mem_cons_self false
        (.members (some seen) (some key) :: outer)
      have hmore := ih fun other hother => hmembers other (List.mem_cons_of_mem _ hother)
      simp [memberTokens, run, step, hfirst, deliver, hmore]

theorem takes {value : Json} (h : Plain value) : Takes value := by
  induction h with
  | null | bool | int | str => intro orEnd outer rest; simp [tokens, run, step, startValue]
  | @arr items _ ih =>
      intro orEnd outer rest
      cases items with
      | nil => simp [tokens, run, step, startValue]
      | cons item items =>
          have hfirst := ih item List.mem_cons_self true (.items [] :: outer)
          have hmore := run_itemTokens
            (fun other hother => ih other (List.mem_cons_of_mem item hother)) [item] outer rest
          simp [tokens, run, step, startValue, hfirst, deliver, hmore]
  | @obj members _ ih =>
      intro orEnd outer rest
      cases members with
      | nil => simp [tokens, run, step, startValue, close]
      | cons member members =>
          obtain ⟨key, value⟩ := member
          have hfirst := ih (key, value) List.mem_cons_self false
            (.members (some []) (some key) :: outer)
          have hmore := run_memberTokens
            (fun other hother => ih other (List.mem_cons_of_mem _ hother)) [(key, value)] outer rest
          simp [tokens, run, step, startValue, hfirst, deliver, hmore]

end Expecting

/-- The text of a plain value is a document of that value. -/
theorem parse?_text {value : Json} (h : Plain value) : parse? value.text = some value := by
  have htokens : Token.ofChars? value.chars = some value.tokens := by
    simpa [Token.ofChars?, Token.scan] using Token.cuts h [] (by simp [Token.Apart])
  have hrun : Expecting.run (.beforeValue false []) value.tokens = some (.complete value) := by
    simpa [Expecting.run, Expecting.deliver] using Expecting.takes h false [] []
  simp [parse?, text, htokens, hrun]

end Interop.Json
