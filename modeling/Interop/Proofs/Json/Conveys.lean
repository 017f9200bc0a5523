import Interop.Json.Reader
import Interop.Lists
import Interop.Proofs.Json.Text

/-! # Values that readers get back

A JSON value conveys `a` to a reader if its text says all about it and the reader finds `a` in it
wherever it has the room. One rule for each kind of value that writers produce.
-/

namespace Interop.Json

mutual

/-- How many arrays and objects stand inside of each other in a value. -/
def depth : Json → Nat
  | .arr items => itemsDepth items + 1
  | .obj members => membersDepth members + 1
  | _ => 0

def itemsDepth : List Json → Nat
  | [] => 0
  | item :: rest => max (depth item) (itemsDepth rest)

def membersDepth : List (String × Json) → Nat
  | [] => 0
  | (_, value) :: rest => max (depth value) (membersDepth rest)

end

theorem itemsDepth_le_iff {items : List Json} {room : Nat} :
    itemsDepth items ≤ room ↔ ∀ item ∈ items, item.depth ≤ room := by
  induction items with
  | nil => simp [itemsDepth]
  | cons item items ih =>
      rw [itemsDepth, List.forall_mem_cons, ← ih]
      exact Nat.max_le

theorem membersDepth_le_iff {members : List (String × Json)} {room : Nat} :
    membersDepth members ≤ room ↔ ∀ member ∈ members, member.2.depth ≤ room := by
  induction members with
  | nil => simp [membersDepth]
  | cons member members ih =>
      obtain ⟨key, value⟩ := member
      rw [membersDepth, List.forall_mem_cons, ← ih]
      exact Nat.max_le

theorem intactItems_iff {items : List Json} {room : Nat} :
    intactItems room items = true ↔ ∀ item ∈ items, intact room item = true := by
  induction items with
  | nil => simp [intactItems]
  | cons item items ih => simp [intactItems, ih]

theorem intactMembers_iff {members : List (String × Json)} {room : Nat} :
    intactMembers room members = true ↔ ∀ member ∈ members, intact room member.2 = true := by
  induction members with
  | nil => simp [intactMembers]
  | cons member members ih =>
      obtain ⟨key, value⟩ := member
      simp [intactMembers, ih]

theorem Plain.intact {value : Json} (h : Plain value) {room : Nat} (hroom : value.depth ≤ room) :
    value.intact room = true := by
  induction h generalizing room with
  | null | bool | int | str => simp [Json.intact]
  | arr _ ih =>
      cases room with
      | zero => simp [depth] at hroom
      | succ room =>
          have hinner := itemsDepth_le_iff.1 (Nat.le_of_succ_le_succ hroom)
          exact intactItems_iff.2 fun item hitem => ih item hitem (hinner item hitem)
  | obj _ ih =>
      cases room with
      | zero => simp [depth] at hroom
      | succ room =>
          have hinner := membersDepth_le_iff.1 (Nat.le_of_succ_le_succ hroom)
          exact intactMembers_iff.2 fun member hmember => ih member hmember (hinner member hmember)

/-- What a reader gets back from a value, wherever it has the room for it. -/
structure Conveys {α : Type} (read : Reader α) (value : Json) (a : α) : Prop where
  plain : Plain value
  read_eq : ∀ room, value.depth ≤ room → read room value = some a

variable {α : Type} {read : Reader α} {write : α → Json}

/-- A document that is not nested too deeply is read back from its text. -/
theorem Conveys.bind_parse?_text {value : Json} {a : α} (h : Conveys read value a)
    (hdepth : value.depth ≤ documentRoom) :
    (parse? value.text).bind (read documentRoom) = some a := by
  rw [parse?_text h.plain, Option.bind_some, h.read_eq documentRoom hdepth]

theorem conveys_string (content : String) : Conveys Reader.string (.str content) content :=
  ⟨.str content, fun _ _ => rfl⟩

theorem conveys_bool (value : Bool) : Conveys Reader.bool (.bool value) value :=
  ⟨.bool value, fun _ _ => rfl⟩

theorem conveys_word {n : Nat} (hn : n < twoPow 64) : Conveys Reader.word (.nat n) n where
  plain := .int (by omega) (by omega)
  read_eq _ _ := by
    have hrange : (0 : Int) ≤ n ∧ (n : Int) < twoPow 64 := by omega
    simp [Reader.word, nat, hrange]

theorem conveys_signed {value : Int} (hlow : -twoPow 63 ≤ value) (hhigh : value < twoPow 63) :
    Conveys Reader.signed (.int value) value where
  plain := .int hlow (by simp [twoPow] at *; omega)
  read_eq _ _ := by simp [Reader.signed, hlow, hhigh]

theorem conveys_optional {content : Option α} (hnull : ∀ a, write a ≠ .null)
    (h : ∀ a ∈ content, Conveys read (write a) a) :
    Conveys (Reader.optional read) (Json.ofOption write content) content := by
  cases content with
  | none => exact ⟨.null, fun _ _ => rfl⟩
  | some a =>
      obtain ⟨hplain, hread⟩ := h a rfl
      refine ⟨hplain, fun room hroom => ?_⟩
      simp only [ofOption] at hroom ⊢
      rw [Reader.optional, hread room hroom, Option.map_some]
      exact hnull a

theorem mapM_map_eq_some {items : List α} {room : Nat}
    (h : ∀ a ∈ items, read room (write a) = some a) :
    (items.map write).mapM (read room) = some items := by
  induction items with
  | nil => rfl
  | cons a items ih =>
      have hfirst := h a List.mem_cons_self
      have hrest := ih fun other hother => h other (List.mem_cons_of_mem a hother)
      simp [hfirst, hrest]

theorem conveys_list {items : List α} (h : ∀ a ∈ items, Conveys read (write a) a) :
    Conveys (Reader.list read) (.arr (items.map write)) items where
  plain := .arr (by simpa using fun a ha => (h a ha).plain)
  read_eq room hroom := by
    cases room with
    | zero => simp [depth] at hroom
    | succ room =>
        have hinner := itemsDepth_le_iff.1 (Nat.le_of_succ_le_succ hroom)
        exact mapM_map_eq_some fun a ha =>
          (h a ha).read_eq room (hinner (write a) (List.mem_map_of_mem ha))

/-! ## Objects -/

namespace Parts

theorem ofJson?_obj {keys : List String} {members : List (String × Json)}
    (hkeys : members.map Prod.fst ⊆ keys) (hnodup : (members.map Prod.fst).Nodup) :
    ofJson? keys (.obj members) = some members := by
  have hknown : members.filter (fun member => keys.contains member.1) = members := by
    rw [List.filter_eq_self]
    exact fun member hmember => by simpa using hkeys (List.mem_map_of_mem hmember)
  simp only [ofJson?, hknown]
  exact if_pos hnodup

/-- An object with just the known keys is taken apart into its members. -/
theorem ofJson?_all (keys : List String) {members : List (String × Json)}
    (hkeys : members.map Prod.fst = keys) (hnodup : keys.Nodup) :
    ofJson? keys (.obj members) = some members := by
  subst hkeys
  exact ofJson?_obj (List.Subset.refl _) hnodup

end Parts

/-- Reading goes on behind a step that succeeds. -/
theorem bind_eq_some {β : Type} {step : Option α} {next : α → Option β} {a : α} {b : β}
    (hstep : step = some a) (hnext : next a = some b) : (step >>= next) = some b := by
  rw [hstep]
  exact hnext

/-- Whether every part has the room that it needs. -/
def Parts.FitIn (members : Parts) (room : Nat) : Prop :=
  ∀ member ∈ members, member.2.depth ≤ room

namespace Parts.FitIn

variable {β : Type} {members : Parts} {value : Json} {a : α} {b : β} {room : Nat}
  {next : α → Option β}

theorem required (hroom : members.FitIn room) (key : String) (h : Conveys read value a)
    (hlookup : members.lookup key = some value) (hnext : next a = some b) :
    (Parts.required members key (read room) >>= next) = some b := by
  refine bind_eq_some ?_ hnext
  rw [Parts.required, hlookup, Option.bind_some]
  exact h.read_eq room (hroom (key, value) (Lists.mem_of_lookup hlookup))

theorem withDefault (hroom : members.FitIn room) (key : String) {fallback : α}
    (h : Conveys read value a) (hlookup : members.lookup key = some value)
    (hnext : next a = some b) :
    (Parts.withDefault members key fallback (read room) >>= next) = some b := by
  refine bind_eq_some ?_ hnext
  simp only [Parts.withDefault, hlookup]
  exact h.read_eq room (hroom (key, value) (Lists.mem_of_lookup hlookup))

/-- A part that is left out where it is absent is read back. -/
theorem present {next : Option α → Option β} (hroom : members.FitIn room) (key : String)
    {content : Option α} (hnull : ∀ a, write a ≠ .null)
    (h : ∀ a ∈ content, Conveys read (write a) a)
    (hlookup : members.lookup key = content.map write) (hnext : next content = some b) :
    (Parts.withDefault members key none (Reader.optional read room) >>= next) = some b := by
  cases content with
  | none => exact bind_eq_some (by simp [Parts.withDefault, hlookup]) hnext
  | some a =>
      have hsome : Conveys (Reader.optional read) (Json.ofOption write (some a)) (some a) :=
        conveys_optional hnull h
      exact hroom.withDefault key hsome hlookup hnext

end Parts.FitIn

/-- An object conveys what a reader makes of its members. -/
theorem conveys_obj {members : List (String × Json)} {a : α}
    (hplain : ∀ member ∈ members, Plain member.2)
    (hread : ∀ room, Parts.FitIn members room → read (room + 1) (.obj members) = some a) :
    Conveys read (.obj members) a where
  plain := .obj hplain
  read_eq room hroom := by
    cases room with
    | zero => simp [depth] at hroom
    | succ room => exact hread room (membersDepth_le_iff.1 (Nat.le_of_succ_le_succ hroom))

end Interop.Json
