import Mathlib.Data.Set.Card
import Interop.Proofs.Schema.Index

/-! # Which declaration a name stands for

Declarations are ordered by their namespaces, in a namespace by their kinds, and within a kind by
their places. One full name can be declared many times, also by namespaces of different names, since
names may have points in them. It then stands for the last of its declarations.
-/

namespace Interop.Schema

/-- The place of a kind among all kinds. -/
def DeclarationKind.rank : DeclarationKind → Nat
  | .cls => 0
  | .interface => 1
  | .record => 2
  | .union => 3
  | .enum => 4
  | .flags => 5
  | .callback => 6

namespace DeclarationSite

/-- By namespace, then by kind, then by place. -/
def Before (site other : DeclarationSite) : Prop :=
  site.space < other.space ∨
    site.space = other.space ∧ (site.kind.rank < other.kind.rank ∨
      site.kind = other.kind ∧ site.position < other.position)

theorem Before.asymm {site other : DeclarationSite} (h : site.Before other) :
    ¬ other.Before site := by
  unfold Before at h ⊢
  rcases h with hspace | ⟨hspace, hkind | ⟨hkind, hposition⟩⟩
  · omega
  · rintro (hback | ⟨_, hback | ⟨hsame, _⟩⟩)
    · omega
    · omega
    · exact Nat.lt_irrefl _ (hsame ▸ hkind)
  · rw [hkind]
    omega

/-- At the site there is a type of this full name. -/
structure Declares (spaces : List Namespace) (site : DeclarationSite) (qualified : String)
    (type : Resolved) : Prop where
  space : spaces[site.space]? = some type.space
  decl : (type.space.ofKind site.kind)[site.position]? = some type.decl
  named : type.space.name ++ "." ++ type.decl.name = qualified

variable {spaces : List Namespace} {site : DeclarationSite} {qualified : String} {type : Resolved}

theorem declares_iff : Declares spaces site qualified type ↔
    site.resolve? spaces = some type ∧ type.qualifiedName = qualified := by
  constructor
  · rintro ⟨hspace, hdecl, hname⟩
    exact ⟨by simp [resolve?, hspace, hdecl], hname⟩
  · rintro ⟨hresolve, hname⟩
    obtain ⟨space, hspace, h⟩ := Option.bind_eq_some_iff.1 hresolve
    obtain ⟨decl, hdecl, h⟩ := Option.bind_eq_some_iff.1 h
    cases h
    exact ⟨hspace, hdecl, hname⟩

end DeclarationSite

namespace NameIndex

open DeclarationSite

variable {spaces : List Namespace} {site : DeclarationSite} {qualified : String}

theorem mem_sites :
    (qualified, site) ∈ sites spaces ↔ ∃ type, Declares spaces site qualified type := by
  simp only [sites, sitesOfKind, List.mem_flatMap, List.mem_map, Prod.exists,
    List.mem_zipIdx_iff_getElem?]
  constructor
  · rintro ⟨space, place, hspace, kind, _, decl, position, hdecl, hentry⟩
    cases hentry
    exact ⟨⟨space, decl⟩, hspace, hdecl, rfl⟩
  · rintro ⟨⟨space, decl⟩, hspace, hdecl, rfl⟩
    refine ⟨space, site.space, hspace, site.kind, ?_, decl, site.position, hdecl, rfl⟩
    cases site.kind <;> simp [DeclarationKind.all]

theorem pairwise_sites (spaces : List Namespace) :
    (sites spaces).Pairwise fun entry other => entry.2.Before other.2 := by
  have hplaces : ∀ {α : Type} (items : List α),
      items.zipIdx.Pairwise fun item other => item.2 < other.2 := by
    intro α items
    have hrange : (items.zipIdx.map Prod.snd).Pairwise (· < ·) := by
      rw [List.zipIdx_map_snd]
      exact List.pairwise_lt_range'
    exact List.pairwise_map.1 hrange
  refine List.pairwise_flatMap.2 ⟨fun entry _ => ?_, (hplaces spaces).imp fun hlt => ?_⟩
  · refine List.pairwise_flatMap.2 ⟨fun kind _ => ?_, ?_⟩
    · refine List.pairwise_map.2 ((hplaces _).imp fun hlt => ?_)
      exact .inr ⟨rfl, .inr ⟨rfl, hlt⟩⟩
    · have hkinds : DeclarationKind.all.Pairwise fun kind other => kind.rank < other.rank := by
        decide
      refine hkinds.imp fun hlt => ?_
      simp only [sitesOfKind, List.mem_map]
      rintro _ ⟨_, _, rfl⟩ _ ⟨_, _, rfl⟩
      exact .inr ⟨rfl, .inl hlt⟩
  · simp only [sitesOfKind, List.mem_flatMap, List.mem_map]
    rintro _ ⟨_, _, _, _, rfl⟩ _ ⟨_, _, _, _, rfl⟩
    exact .inl hlt

/-- In the index there is the last site of each name. -/
theorem lookup_ofSpaces_eq_some_iff : (ofSpaces spaces).lookup qualified = some site ↔
    (∃ type, Declares spaces site qualified type) ∧
      ∀ other type, Declares spaces other qualified type → other = site ∨ other.Before site := by
  have hlast : ∀ site, (ofSpaces spaces).lookup qualified = some site →
      (qualified, site) ∈ sites spaces ∧
        ∀ other, (qualified, other) ∈ sites spaces → other = site ∨ other.Before site := by
    intro site hlookup
    rw [lookup_ofSpaces, List.lookup_eq_some_iff] at hlookup
    obtain ⟨behind, before, hsplit, hbehind⟩ := hlookup
    have hsites : sites spaces = before.reverse ++ (qualified, site) :: behind.reverse := by
      rw [← List.reverse_reverse (sites spaces), hsplit]
      simp
    have hordered := List.pairwise_append.1 (hsites ▸ pairwise_sites spaces)
    refine ⟨by simp [hsites], fun other hother => ?_⟩
    rw [hsites, List.mem_append, List.mem_cons, List.mem_reverse, List.mem_reverse] at hother
    rcases hother with hold | hsame | hnew
    · exact .inr (hordered.2.2 _ (List.mem_reverse.2 hold) _ List.mem_cons_self)
    · exact .inl (Prod.mk.inj hsame).2
    · exact absurd (hbehind _ hnew) (by simp)
  constructor
  · intro hlookup
    obtain ⟨hmem, hbefore⟩ := hlast site hlookup
    exact ⟨mem_sites.1 hmem, fun other type hother => hbefore other (mem_sites.2 ⟨type, hother⟩)⟩
  · rintro ⟨⟨type, hdeclares⟩, hbefore⟩
    cases hlookup : (ofSpaces spaces).lookup qualified with
    | none =>
        rw [lookup_ofSpaces, List.lookup_eq_none_iff] at hlookup
        have hentry := hlookup _ (List.mem_reverse.2 (mem_sites.2 ⟨type, hdeclares⟩))
        exact absurd hentry (by simp)
    | some found =>
        obtain ⟨hmem, hfound⟩ := hlast found hlookup
        obtain ⟨other, hother⟩ := mem_sites.1 hmem
        -- each of the two would have to come before the other
        rcases hbefore found other hother with hsame | hless
        · rw [hsame]
        · rcases hfound site (mem_sites.2 ⟨type, hdeclares⟩) with hsame | hmore
          · rw [hsame]
          · exact absurd hmore hless.asymm

end NameIndex

namespace Repository

open DeclarationSite

variable {spaces : List Namespace} {qualified : String}

theorem resolveQualified?_ofSpaces_eq_some_iff {type : Resolved} :
    (ofSpaces spaces).resolveQualified? qualified = some type ↔
      ∃ site, Declares spaces site qualified type ∧
        ∀ other rival, Declares spaces other qualified rival → other = site ∨ other.Before site := by
  rw [resolveQualified?, Option.bind_eq_some_iff]
  refine exists_congr fun site => ?_
  rw [ofSpaces, NameIndex.lookup_ofSpaces_eq_some_iff]
  constructor
  · rintro ⟨⟨⟨found, hfound⟩, hlast⟩, hresolve⟩
    obtain ⟨hsame, hname⟩ := declares_iff.1 hfound
    obtain rfl : found = type := Option.some.inj (hsame.symm.trans hresolve)
    exact ⟨hfound, hlast⟩
  · rintro ⟨hdeclares, hlast⟩
    exact ⟨⟨⟨type, hdeclares⟩, hlast⟩, (declares_iff.1 hdeclares).1⟩

/-- What stands in the index leads to a declaration. -/
theorem isSome_resolveQualified?_iff_mem :
    ((ofSpaces spaces).resolveQualified? qualified).isSome = true ↔
      qualified ∈ (NameIndex.ofSpaces spaces).map Prod.fst := by
  constructor
  · intro h
    obtain ⟨type, htype⟩ := Option.isSome_iff_exists.1 h
    obtain ⟨site, hlookup, _⟩ := Option.bind_eq_some_iff.1 htype
    exact List.mem_map_of_mem (Lists.mem_of_lookup hlookup)
  · intro h
    obtain ⟨entry, hentry, rfl⟩ := List.mem_map.1 h
    have hlookup := lookup_of_mem (NameIndex.nodup_ofSpaces spaces) hentry
    obtain ⟨⟨type, hdeclares⟩, hlast⟩ := NameIndex.lookup_ofSpaces_eq_some_iff.1 hlookup
    exact Option.isSome_iff_exists.2
      ⟨type, resolveQualified?_ofSpaces_eq_some_iff.2 ⟨entry.2, hdeclares, hlast⟩⟩

theorem isSome_resolveQualified?_iff_exists :
    ((ofSpaces spaces).resolveQualified? qualified).isSome = true ↔
      ∃ space ∈ spaces, ∃ decl ∈ space.declarations, space.name ++ "." ++ decl.name = qualified := by
  rw [resolveQualified?_eq_lookup]
  constructor
  · intro h
    obtain ⟨type, htype⟩ := Option.isSome_iff_exists.1 h
    have hentry := List.mem_reverse.1 (Lists.mem_of_lookup htype)
    obtain ⟨space, hspace, hentry⟩ := List.mem_flatMap.1 hentry
    obtain ⟨decl, hdecl, hsame⟩ := List.mem_map.1 hentry
    exact ⟨space, hspace, decl, hdecl, (Prod.mk.inj hsame).1⟩
  · rintro ⟨space, hspace, decl, hdecl, rfl⟩
    rw [Option.isSome_iff_ne_none, ne_eq, List.lookup_eq_none_iff]
    intro hnone
    have hentry : _ ∈ declared (ofSpaces spaces).spaces := mem_declared hspace hdecl
    exact absurd (hnone _ (List.mem_reverse.2 hentry)) (by simp [Namespace.qualify, join])

theorem typeCount_eq_ncard : (ofSpaces spaces).typeCount =
    {name | ((ofSpaces spaces).resolveQualified? name).isSome = true}.ncard := by
  have hnames : {name | ((ofSpaces spaces).resolveQualified? name).isSome = true} =
      ((NameIndex.ofSpaces spaces).map Prod.fst).toFinset := by
    ext name
    rw [Set.mem_ofPred_eq, isSome_resolveQualified?_iff_mem, List.coe_toFinset, Set.mem_ofPred_eq]
  rw [hnames, Set.ncard_coe_finset, List.toFinset_card_of_nodup (NameIndex.nodup_ofSpaces spaces),
    List.length_map]
  rfl

/-- Whatever namespaces there are, a name stands for something just if a namespace and a type that it
declares spell it with a point between them. It then stands for the last such type in the order of
declarations, which has that full name, and as many types are counted as there are such names. -/
theorem resolveQualified?_last (spaces : List Namespace) (qualified : String) :
    let repo := ofSpaces spaces
    ((repo.resolveQualified? qualified).isSome = true ↔ ∃ space ∈ spaces,
        ∃ decl ∈ space.declarations, space.name ++ "." ++ decl.name = qualified) ∧
      (∀ type, repo.resolveQualified? qualified = some type ↔
        ∃ site, Declares spaces site qualified type ∧ ∀ other rival,
          Declares spaces other qualified rival → other = site ∨ other.Before site) ∧
      (∀ type, repo.resolveQualified? qualified = some type → type.qualifiedName = qualified) ∧
      repo.typeCount = {name | (repo.resolveQualified? name).isSome = true}.ncard := by
  refine ⟨isSome_resolveQualified?_iff_exists, fun _ => resolveQualified?_ofSpaces_eq_some_iff,
    fun type htype => ?_, typeCount_eq_ncard⟩
  obtain ⟨site, hdeclares, _⟩ := resolveQualified?_ofSpaces_eq_some_iff.1 htype
  exact hdeclares.named

/-- Two namespaces spell one name in different ways, and an enumeration comes behind a class. -/
example :
    let repo := ofSpaces [
      { name := "A.B", classes := [{ name := "C" }] },
      { name := "A", enums := [{ name := "B.C" }], records := [{ name := "B.C" }] }]
    (repo.resolveQualified? "A.B.C").map (·.decl) = some (.enum { name := "B.C" }) ∧
      repo.typeCount = 1 := by
  decide +kernel

end Repository

end Interop.Schema
