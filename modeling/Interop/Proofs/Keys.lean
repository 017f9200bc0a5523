import Mathlib.Data.List.Nodup
import Interop.Lists

/-! # Distinct keys

Where no two items of a list have the same key, each of them is what is found under its own.
-/

namespace Interop

variable {α κ : Type}

/-- The first of two items with different keys is not found under the key of the other. -/
theorem ne_of_mem_before {key : α → κ} {before after : List α} {item other : α}
    (hdistinct : ((before ++ item :: after).map key).Nodup) (h : other ∈ before) :
    key other ≠ key item := by
  rw [List.map_append, List.map_cons] at hdistinct
  have hapart := List.nodup_append.1 hdistinct
  exact hapart.2.2 _ (List.mem_map_of_mem h) _ List.mem_cons_self

/-- Items that have keys at all are told apart by them. -/
theorem eq_of_filterMap_nodup {key? : α → Option κ} {items : List α}
    (hdistinct : (items.filterMap key?).Nodup) {item other : α} (hitem : item ∈ items)
    (hother : other ∈ items) {key : κ} (hkey : key? item = some key)
    (hsame : key? other = some key) : item = other := by
  obtain ⟨before, after, rfl⟩ := List.append_of_mem hitem
  rw [List.filterMap_append, List.filterMap_cons_some hkey] at hdistinct
  have hapart := (List.nodup_cons.1 (List.nodup_middle.1 hdistinct)).1
  rw [← List.filterMap_append, List.mem_filterMap] at hapart
  by_contra hne
  refine hapart ⟨other, ?_, hsame⟩
  rcases List.mem_append.1 hother with hbefore | hrest
  · exact List.mem_append_left _ hbefore
  · rcases List.mem_cons.1 hrest with rfl | hafter
    · exact absurd rfl hne
    · exact List.mem_append_right _ hafter

variable [BEq κ] [LawfulBEq κ]

/-- Of items with different keys each is the first one of its key. -/
theorem find?_of_mem {key : α → κ} {items : List α} (hdistinct : (items.map key).Nodup)
    {item : α} (h : item ∈ items) :
    items.find? (fun other => key other == key item) = some item := by
  obtain ⟨before, after, rfl⟩ := List.append_of_mem h
  refine List.find?_eq_some_iff_append.2 ⟨by simp, before, after, rfl, fun other hother => ?_⟩
  have hne := ne_of_mem_before hdistinct hother
  simpa using hne

/-- What is found under a key does not depend on the order of items with different keys. -/
theorem find?_eq_of_perm {key : α → κ} {items others : List α} (hperm : items.Perm others)
    (hdistinct : (items.map key).Nodup) (k : κ) :
    items.find? (fun item => key item == k) = others.find? (fun item => key item == k) := by
  cases hfound : items.find? (fun item => key item == k) with
  | none =>
      refine (List.find?_eq_none.2 fun item hitem => ?_).symm
      exact List.find?_eq_none.1 hfound item (hperm.mem_iff.2 hitem)
  | some item =>
      obtain rfl : key item = k := by simpa using List.find?_some hfound
      have hothers : (others.map key).Nodup := (hperm.map key).nodup_iff.1 hdistinct
      exact (find?_of_mem hothers (hperm.mem_iff.1 (List.mem_of_find?_eq_some hfound))).symm

/-- Without the entries of one key nothing is found there, and under other keys the same as before. -/
theorem lookup_filter_ne (entries : List (κ × α)) (gone key : κ) [DecidableEq κ] :
    (entries.filter fun entry => entry.1 != gone).lookup key =
      if key = gone then none else entries.lookup key := by
  induction entries with
  | nil => simp
  | cons entry rest ih =>
      obtain ⟨other, value⟩ := entry
      by_cases hgone : other = gone
      · subst hgone
        rw [List.filter_cons_of_neg (by simp), ih, List.lookup_cons]
        by_cases hkey : key = other
        · simp [hkey]
        · have hother : (key == other) = false := by simpa using hkey
          rw [hother]
      · rw [List.filter_cons_of_pos (by simpa using hgone), List.lookup_cons, List.lookup_cons, ih]
        by_cases hkey : key = other
        · simp [hkey, hgone]
        · have hother : (key == other) = false := by simpa using hkey
          rw [hother]

omit [LawfulBEq κ] in
/-- What is found under a key is what is made of the value there. -/
theorem lookup_map_snd {β : Type} (f : α → β) (entries : List (κ × α)) (key : κ) :
    (entries.map fun entry => (entry.1, f entry.2)).lookup key = (entries.lookup key).map f := by
  induction entries with
  | nil => rfl
  | cons entry rest ih =>
      rw [List.map_cons, List.lookup_cons, List.lookup_cons, ih]
      cases key == entry.1 <;> rfl

variable {entries : List (κ × α)} (hdistinct : (entries.map Prod.fst).Nodup)
include hdistinct

theorem lookup_of_mem {key : κ} {value : α} (h : (key, value) ∈ entries) :
    entries.lookup key = some value := by
  obtain ⟨before, after, rfl⟩ := List.append_of_mem h
  refine List.lookup_eq_some_iff.2 ⟨before, after, rfl, fun entry hentry => ?_⟩
  have hne := ne_of_mem_before hdistinct hentry
  simpa using hne.symm

theorem lookup_eq_some_iff_mem {key : κ} {value : α} :
    entries.lookup key = some value ↔ (key, value) ∈ entries :=
  ⟨Lists.mem_of_lookup, lookup_of_mem hdistinct⟩

theorem lookup_eq_of_perm {others : List (κ × α)} (hperm : entries.Perm others) (key : κ) :
    entries.lookup key = others.lookup key := by
  have hothers : (others.map Prod.fst).Nodup := (hperm.map Prod.fst).nodup_iff.1 hdistinct
  apply Option.ext
  intro value
  rw [lookup_eq_some_iff_mem hdistinct, lookup_eq_some_iff_mem hothers, hperm.mem_iff]

end Interop
