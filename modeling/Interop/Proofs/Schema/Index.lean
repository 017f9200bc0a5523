import Interop.Proofs.Keys
import Interop.Schema.Repository

/-! # The index of declarations

An index is entered name by name, and a name that comes again is moved to its new site. So it says
of every name where the last declaration under it stands, and there such a declaration is found.
-/

namespace Interop.Schema

namespace NameIndex

variable {index : NameIndex} {name wanted : String} {site : DeclarationSite}

theorem lookup_enter (index : NameIndex) (name : String) (site : DeclarationSite)
    (wanted : String) : (index.enter name site).lookup wanted =
      if wanted = name then some site else index.lookup wanted := by
  rw [enter, List.lookup_cons, lookup_filter_ne]
  by_cases hsame : wanted = name
  · simp [hsame]
  · have hother : (wanted == name) = false := by simpa using hsame
    rw [hother, if_neg hsame, if_neg hsame]

theorem nodup_enter (h : (index.map Prod.fst).Nodup) :
    ((index.enter name site).map Prod.fst).Nodup := by
  refine List.nodup_cons.2 ⟨?_, h.sublist (List.filter_sublist.map _)⟩
  simp

/-- Enters names one after the other. -/
def enterAll (index : NameIndex) (entries : List (String × DeclarationSite)) : NameIndex :=
  entries.foldl (fun index entry => index.enter entry.1 entry.2) index

/-- What is found under a name is what was entered last. -/
theorem lookup_enterAll (index : NameIndex) (entries : List (String × DeclarationSite))
    (wanted : String) : (index.enterAll entries).lookup wanted =
      (entries.reverse.lookup wanted).or (index.lookup wanted) := by
  induction entries generalizing index with
  | nil => rfl
  | cons entry rest ih =>
      rw [enterAll, List.foldl_cons, ← enterAll, ih, lookup_enter, List.reverse_cons,
        List.lookup_append, Option.or_assoc]
      congr 1
      rw [List.lookup_cons]
      by_cases hsame : wanted = entry.1
      · simp [hsame]
      · have hother : (wanted == entry.1) = false := by simpa using hsame
        simp [hsame, hother]

theorem nodup_enterAll (h : (index.map Prod.fst).Nodup)
    (entries : List (String × DeclarationSite)) :
    ((index.enterAll entries).map Prod.fst).Nodup := by
  induction entries generalizing index with
  | nil => exact h
  | cons entry rest ih => exact ih (nodup_enter h)

/-! ## Sites -/

/-- The names and sites of the declarations of one kind. -/
def sitesOfKind (place : Nat) (space : Namespace) (kind : DeclarationKind) :
    List (String × DeclarationSite) :=
  (space.ofKind kind).zipIdx.map fun (decl, position) =>
    (space.qualify decl.name, ⟨place, kind, position⟩)

/-- The names and sites of all declarations, in order. -/
def sites (spaces : List Namespace) : List (String × DeclarationSite) :=
  spaces.zipIdx.flatMap fun (space, place) => DeclarationKind.all.flatMap (sitesOfKind place space)

theorem ofSpaces_eq (spaces : List Namespace) : ofSpaces spaces = enterAll [] (sites spaces) := by
  have hkind : ∀ (place : Nat) (space : Namespace) (index : NameIndex) (kind : DeclarationKind),
      enterKind place space index kind = index.enterAll (sitesOfKind place space kind) := by
    intro place space index kind
    rw [enterKind, enterAll, sitesOfKind, List.foldl_map]
  rw [ofSpaces, enterAll, sites, List.foldl_flatMap]
  refine List.foldl_ext _ _ _ fun index entry _ => ?_
  rw [List.foldl_flatMap, enterSpace]
  exact List.foldl_ext _ _ _ fun index kind _ => hkind entry.2 entry.1 index kind

theorem lookup_ofSpaces (spaces : List Namespace) (name : String) :
    (ofSpaces spaces).lookup name = (sites spaces).reverse.lookup name := by
  rw [ofSpaces_eq, lookup_enterAll, List.lookup_nil, Option.or_none]

theorem nodup_ofSpaces (spaces : List Namespace) : ((ofSpaces spaces).map Prod.fst).Nodup := by
  have hnil : (([] : NameIndex).map Prod.fst).Nodup := List.nodup_nil
  exact ofSpaces_eq spaces ▸ nodup_enterAll hnil _

end NameIndex

theorem Namespace.declarations_eq (space : Namespace) :
    space.declarations = DeclarationKind.all.flatMap space.ofKind := by
  simp [declarations, DeclarationKind.all, ofKind]

theorem Repository.mem_declared {repo : Repository} {space : Namespace}
    (hspace : space ∈ repo.spaces) {decl : Declaration} (hdecl : decl ∈ space.declarations) :
    (space.qualify decl.name, ⟨space, decl⟩) ∈ declared repo.spaces :=
  List.mem_flatMap.2 ⟨space, hspace, List.mem_map_of_mem (f := fun decl =>
    (space.qualify decl.name, (⟨space, decl⟩ : Resolved))) hdecl⟩

/-- At the sites there are the declarations. -/
theorem map_sites (spaces : List Namespace) :
    (NameIndex.sites spaces).map (fun entry => (entry.1, entry.2.resolve? spaces)) =
      (declared spaces).map fun entry => (entry.1, some entry.2) := by
  have hspaces : declared spaces = spaces.zipIdx.flatMap fun (space, _) =>
      space.declarations.map fun decl => (space.qualify decl.name, ⟨space, decl⟩) := by
    conv_lhs => rw [declared, ← List.zipIdx_map_fst 0 spaces, List.flatMap_map]
  rw [hspaces, NameIndex.sites, List.map_flatMap, List.map_flatMap]
  refine List.flatMap_congr fun entry hentry => ?_
  obtain ⟨space, place⟩ := entry
  have hspace : spaces[place]? = some space := List.mem_zipIdx_iff_getElem?.1 hentry
  dsimp only
  rw [space.declarations_eq, List.map_flatMap, List.map_flatMap, List.map_flatMap]
  refine List.flatMap_congr fun kind _ => ?_
  rw [NameIndex.sitesOfKind, List.map_map, List.map_map]
  conv_rhs => rw [← List.zipIdx_map_fst 0 (space.ofKind kind), List.map_map]
  refine List.map_congr_left fun declared hdeclared => ?_
  obtain ⟨decl, position⟩ := declared
  have hdecl : (space.ofKind kind)[position]? = some decl :=
    List.mem_zipIdx_iff_getElem?.1 hdeclared
  simp [DeclarationSite.resolve?, hspace, hdecl]

/-- The last declaration under a name is what the name stands for. -/
theorem Repository.resolveQualified?_eq_lookup (repo : Repository) (qualified : String) :
    repo.resolveQualified? qualified = (declared repo.spaces).reverse.lookup qualified := by
  have hsame : ((NameIndex.sites repo.spaces).reverse.lookup qualified).map
        (·.resolve? repo.spaces) = ((declared repo.spaces).reverse.lookup qualified).map some := by
    rw [← lookup_map_snd, ← lookup_map_snd, List.map_reverse, List.map_reverse, map_sites]
  rw [resolveQualified?, repo.index_eq, NameIndex.lookup_ofSpaces]
  cases hsite : (NameIndex.sites repo.spaces).reverse.lookup qualified with
  | none =>
      rw [hsite, Option.map_none, eq_comm, Option.map_eq_none_iff] at hsame
      rw [hsame, Option.bind_none]
  | some site =>
      rw [hsite, Option.map_some, eq_comm, Option.map_eq_some_iff] at hsame
      obtain ⟨type, htype, hresolve⟩ := hsame
      rw [Option.bind_some, htype, hresolve]

end Interop.Schema
