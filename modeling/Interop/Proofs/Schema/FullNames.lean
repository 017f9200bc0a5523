import Mathlib.Data.List.TakeWhile
import Interop.Schema.TypeRef

/-! # Full names

A full name is the name of a namespace, a point, and a name that is declared there. It is split at
its first point, so it leads back to its namespace if there is no point in the name of that. A full
name is read alike in every namespace.
-/

namespace Interop.Schema

variable {space other name rest : String}

theorem toList_join (space name : String) :
    (join space name).toList = space.toList ++ '.' :: name.toList := by
  simp [join, String.toList_append]

/-- A full name starts with the name of its namespace, in which there is no point. -/
theorem exists_eq_join_of_splitQualified (h : (splitQualified name).1 = some space) :
    '.' ∉ space.toList ∧ ∃ rest, name = join space rest := by
  have hsplit : name.toList.takeWhile (· != '.') ++ name.toList.dropWhile (· != '.') =
      name.toList := List.takeWhile_append_dropWhile
  unfold splitQualified at h
  dsimp only at h
  split at h
  next point first rest hrest =>
    have hpoint := List.head?_dropWhile_not (· != '.') name.toList
    rw [hrest] at hpoint hsplit
    simp only [List.head?_cons, bne_eq_false_iff_eq] at hpoint
    subst hpoint
    split at h
    next => cases h
    next =>
      cases h
      refine ⟨fun hmem => ?_, String.ofList (first :: rest), ?_⟩
      · rw [String.toList_ofList] at hmem
        simpa using List.mem_takeWhile_imp hmem
      · apply String.toList_inj.1
        rw [toList_join, String.toList_ofList, String.toList_ofList]
        exact hsplit.symm
  next => cases h

theorem mem_of_isSome_splitQualified (h : (splitQualified name).1.isSome = true) :
    '.' ∈ name.toList := by
  obtain ⟨space, hspace⟩ := Option.isSome_iff_exists.1 h
  obtain ⟨_, rest, rfl⟩ := exists_eq_join_of_splitQualified hspace
  rw [toList_join]
  exact List.mem_append_right _ List.mem_cons_self

/-- A full name ends the name of its namespace at its first point. -/
theorem space_eq_of_join_eq (hspace : '.' ∉ space.toList) (hother : '.' ∉ other.toList)
    (h : join space name = join other rest) : space = other := by
  have htake : ∀ {front back : String}, '.' ∉ front.toList →
      (join front back).toList.takeWhile (· != '.') = front.toList := by
    intro front back hfront
    have hall : ∀ c ∈ front.toList, (c != '.') = true := by
      intro c hc
      simp only [bne_iff_ne, ne_eq]
      rintro rfl
      exact hfront hc
    rw [toList_join, List.takeWhile_append_of_pos hall]
    simp
  apply String.toList_inj.1
  rw [← htake hspace, h, htake hother]

/-! ## Spelling names out -/

theorem qualify_of_isSome (space : String) (h : (splitQualified name).1.isSome = true) :
    qualify space name = name := by
  unfold qualify
  split
  next => rfl
  next hsplit =>
    rw [hsplit] at h
    cases h

theorem qualify_of_isNone (space : String) (h : (splitQualified name).1.isSome = false) :
    qualify space name = join space name := by
  unfold qualify splitQualified at *
  grind

/-- Two characters at least are left from a first point on that more of a name follows. -/
theorem exists_dropWhile_eq (front : List Char) (first : Char) (back : List Char) :
    ∃ next rest, (front ++ '.' :: first :: back).dropWhile (· != '.') = '.' :: next :: rest := by
  induction front with
  | nil => exact ⟨first, back, rfl⟩
  | cons char front ih =>
      by_cases hpoint : char = '.'
      · subst hpoint
        cases front with
        | nil => exact ⟨_, _, rfl⟩
        | cons next rest => exact ⟨_, _, rfl⟩
      · obtain ⟨next, rest, hdrop⟩ := ih
        refine ⟨next, rest, ?_⟩
        rw [List.cons_append, List.dropWhile_cons_of_pos (by simpa using hpoint), hdrop]

section

variable (other) (hspace : space ≠ "") (hpoint : space.toList.head? ≠ some '.') (hname : name ≠ "")
include hspace hpoint hname

theorem isSome_splitQualified_join : (splitQualified (join space name)).1.isSome = true := by
  obtain ⟨char, chars, hchars⟩ := List.exists_cons_of_ne_nil (mt String.toList_eq_nil_iff.1 hspace)
  obtain ⟨first, back, hback⟩ := List.exists_cons_of_ne_nil (mt String.toList_eq_nil_iff.1 hname)
  have hchar : (char != '.') = true := by
    rw [hchars] at hpoint
    simpa using hpoint
  obtain ⟨next, rest, hdrop⟩ := exists_dropWhile_eq (char :: chars) first back
  unfold splitQualified
  dsimp only
  rw [toList_join, hchars, hback, hdrop, List.cons_append, List.takeWhile_cons, if_pos hchar]
  rfl

/-- A name that has been spelled out is read alike in every namespace. -/
theorem qualify_qualify : qualify other (qualify space name) = qualify space name := by
  refine qualify_of_isSome other ?_
  cases hsplit : (splitQualified name).1.isSome with
  | true => rwa [qualify_of_isSome space hsplit]
  | false =>
      rw [qualify_of_isNone space hsplit]
      exact isSome_splitQualified_join hspace hpoint hname

end

end Interop.Schema
