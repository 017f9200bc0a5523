/-! # Facts about lists

Counting by a stricter condition, and membership of what a look-up finds.
-/

namespace Interop.Lists

theorem length_filter_le {α : Type} {p q : α → Bool} {l : List α}
    (hle : ∀ a ∈ l, q a = true → p a = true) : (l.filter q).length ≤ (l.filter p).length := by
  simpa only [List.countP_eq_length_filter] using List.countP_mono_left hle

/-- A stricter condition that refuses one more element keeps fewer elements. -/
theorem length_filter_lt {α : Type} {p q : α → Bool} {l : List α}
    (hle : ∀ a ∈ l, q a = true → p a = true) {a : α} (ha : a ∈ l) (hp : p a = true)
    (hq : q a = false) : (l.filter q).length < (l.filter p).length := by
  induction l with
  | nil => simp at ha
  | cons b rest ih =>
    have hrest := length_filter_le fun a ha => hle a (List.mem_cons_of_mem b ha)
    rcases List.mem_cons.1 ha with rfl | ha'
    · simp [hp, hq]; omega
    · have ih := ih (fun a ha => hle a (List.mem_cons_of_mem _ ha)) ha'
      by_cases hb : q b = true
      · simp [hb, hle b List.mem_cons_self hb, ih]
      · by_cases hb' : p b = true <;> simp [hb, hb'] <;> omega

theorem mem_of_lookup {α β : Type} [BEq α] [LawfulBEq α] {l : List (α × β)} {a : α} {b : β}
    (h : l.lookup a = some b) : (a, b) ∈ l := by
  induction l with
  | nil => simp at h
  | cons entry rest ih =>
    obtain ⟨c, d⟩ := entry
    by_cases hc : a == c
    · simp [List.lookup_cons, hc] at h
      simp [eq_of_beq hc, h]
    · simp [List.lookup_cons, hc] at h
      exact List.mem_cons_of_mem _ (ih h)

end Interop.Lists
