import Interop.Layout.Slot
import Interop.Proofs.Schema.Index

/-! # Distinct names

If no full name is declared twice, every declaration is found under its own name, and so are the
fields of a type whose fields have different names.
-/

namespace Interop

namespace Schema

/-- The classes, records and unions of a namespace by their full names, and their fields. -/
def Namespace.owners (space : Namespace) : List (String × List Field) :=
  (space.classes.map fun cls => (space.qualify cls.name, cls.fields)) ++
    (space.records ++ space.unions).map fun record => (space.qualify record.name, record.fields)

namespace Repository

/-- No two declarations have the same full name. -/
def Distinct (repo : Repository) : Prop := ((declared repo.spaces).map Prod.fst).Nodup

variable {repo : Repository} {space : Namespace}

theorem Distinct.resolveQualified? (h : repo.Distinct) (hspace : space ∈ repo.spaces)
    {decl : Declaration} (hdecl : decl ∈ space.declarations) :
    repo.resolveQualified? (space.qualify decl.name) = some ⟨space, decl⟩ := by
  have hentry := mem_declared hspace hdecl
  rw [repo.resolveQualified?_eq_lookup]
  -- the latest declaration counts, but there is only one of each name
  refine lookup_of_mem ?_ (List.mem_reverse.2 hentry)
  rw [List.map_reverse]
  exact List.nodup_reverse.2 h

theorem Distinct.find?_eq (h : repo.Distinct) (hspace : space ∈ repo.spaces) {decl : Declaration}
    (hdecl : decl ∈ space.declarations) :
    Compound.find? repo (space.qualify decl.name) = Compound.ofResolved? ⟨space, decl⟩ := by
  rw [Compound.find?, h.resolveQualified? hspace hdecl, Option.bind_some]

theorem Distinct.find?_record (h : repo.Distinct) (hspace : space ∈ repo.spaces) {record : Record}
    (hrecord : record ∈ space.records ++ space.unions) :
    Compound.find? repo (space.qualify record.name) =
      some ⟨space.name, record.kind, record.fields, record.isOpaque⟩ := by
  rcases List.mem_append.1 hrecord with hmem | hmem
  · have hdecl : Declaration.record record ∈ space.declarations := by
      simp [Namespace.declarations, hmem]
    exact h.find?_eq hspace hdecl
  · have hdecl : Declaration.union record ∈ space.declarations := by
      simp [Namespace.declarations, hmem]
    exact h.find?_eq hspace hdecl

theorem Distinct.find?_class (h : repo.Distinct) (hspace : space ∈ repo.spaces) {cls : ObjectClass}
    (hclass : cls ∈ space.classes) :
    Compound.find? repo (space.qualify cls.name) =
      some ⟨space.name, .struct, cls.fields, false⟩ := by
  have hdecl : Declaration.cls cls ∈ space.declarations := by
    simp [Namespace.declarations, hclass]
  exact h.find?_eq hspace hdecl

end Repository

end Schema

end Interop
