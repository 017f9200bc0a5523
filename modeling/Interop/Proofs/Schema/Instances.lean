import Interop.Proofs.Bindings.Complete
import Interop.Proofs.Mapping.Qualified
import Interop.Proofs.Schema.Lineage

/-! # Types that can have instances

Classes, interfaces, records and unions are what handles are wrapped as. In a repository whose
namespaces have proper names the full name of such a type says which namespace declares it.
-/

namespace Interop

namespace Schema

namespace Repository

/-- Namespaces have names of their own, without points, and no full name is declared twice. -/
structure WellNamed (repo : Repository) : Prop where
  spaces : (repo.spaces.map (·.name)).Nodup
  named : ∀ space ∈ repo.spaces, space.name ≠ ""
  dotless : ∀ space ∈ repo.spaces, '.' ∉ space.name.toList
  distinct : repo.Distinct

/-- The full name is that of a class, an interface, a record or a union. -/
def HasInstances (repo : Repository) (qualified : String) : Prop :=
  ∃ resolved, repo.resolveQualified? qualified = some resolved ∧ resolved.decl.hasMembers = true

variable {repo : Repository} {space : Namespace} {decl : Declaration} {qualified : String}

/-- What is found under a full name is declared under it. -/
theorem of_resolveQualified?_eq_some (h : repo.resolveQualified? qualified = some ⟨space, decl⟩) :
    space ∈ repo.spaces ∧ decl ∈ space.declarations ∧ qualified = space.qualify decl.name := by
  rw [repo.resolveQualified?_eq_lookup] at h
  have hentry := List.mem_reverse.1 (Lists.mem_of_lookup h)
  obtain ⟨declaring, hspace, hentry⟩ := List.mem_flatMap.1 hentry
  obtain ⟨found, hfound, hsame⟩ := List.mem_map.1 hentry
  cases hsame
  exact ⟨hspace, hfound, rfl⟩

/-- A full name starts with the name of the namespace that declares it. -/
theorem WellNamed.space_eq (h : repo.WellNamed) {name : String}
    (hname : (splitQualified qualified).1 = some name)
    (hresolve : repo.resolveQualified? qualified = some ⟨space, decl⟩) : name = space.name := by
  obtain ⟨hspace, _, rfl⟩ := of_resolveQualified?_eq_some hresolve
  obtain ⟨hpoint, _, hjoin⟩ := exists_eq_join_of_splitQualified hname
  exact (space_eq_of_join_eq (h.dotless space hspace) hpoint hjoin).symm

theorem WellNamed.splitQualified_eq (h : repo.WellNamed) (hspace : space ∈ repo.spaces)
    {name : String} (hname : name ≠ "") :
    (splitQualified (space.qualify name)).1 = some space.name := by
  have hsplit : (splitQualified (space.qualify name)).1.isSome = true := by
    refine isSome_splitQualified_join (h.named space hspace) (fun hhead => ?_) hname
    exact h.dotless space hspace (List.mem_of_mem_head? hhead)
  obtain ⟨front, hfront⟩ := Option.isSome_iff_exists.1 hsplit
  obtain ⟨hpoint, _, hjoin⟩ := exists_eq_join_of_splitQualified hfront
  rw [hfront, space_eq_of_join_eq (h.dotless space hspace) hpoint hjoin]

end Repository

theorem Declaration.exists_typeName? {decl : Declaration} (h : decl.hasMembers = true)
    (qualified : String) : ∃ typeName, decl.typeName? qualified = some typeName := by
  cases decl with
  | cls | interface | record | union => exact ⟨_, rfl⟩
  | enum | flags | callback => cases h

end Schema

open Schema

/-- Only a declared type with fields has a layout. -/
theorem Platform.hasInstances_of_typeLayout?_eq_some {platform : Platform} {qualified : String}
    {layout : TypeLayout} (h : platform.typeLayout? qualified = some layout) :
    platform.repo.HasInstances qualified := by
  cases hfind : Compound.find? platform.repo qualified with
  | none =>
      rw [typeLayout?, expand?_of_find?_eq_none List.not_mem_nil hfind] at h
      cases h
  | some compound =>
      obtain ⟨resolved, hresolve, hcompound⟩ := Option.bind_eq_some_iff.1 hfind
      refine ⟨resolved, hresolve, ?_⟩
      obtain ⟨space, decl⟩ := resolved
      cases decl with
      | cls | record | union => rfl
      | interface | enum | flags | callback => cases hcompound

end Interop
