import Interop.Proofs.Call.Arguments
import Interop.Proofs.Mapping.Imports
import Interop.Proofs.Mapping.Qualified

/-! # What a plan imports

A plan imports what its parameters and its result use, and nothing else. Parameters that are hidden
from the caller count like the others, and the slot for an error needs no import.
-/

namespace Interop

open Schema

namespace CallBuilder

variable {builder : CallBuilder} {callable : Callable} {owner : Option Owner} {plan : CallPlan}
  {usage usage' : Usage}

theorem imports_eq_of_build (h : builder.build callable owner usage = .ok plan usage') :
    plan.imports = usage'.imports := by
  rw [build] at h
  split at h
  next =>
    obtain ⟨_, _, hthrow, _⟩ := Steps.of_bind_eq_ok h
    cases hthrow
  next =>
    obtain ⟨_, _, _, h⟩ := Steps.of_bind_eq_ok h
    obtain ⟨_, _, _, h⟩ := Steps.of_bind_eq_ok h
    obtain ⟨_, _, _, h⟩ := Steps.of_bind_eq_ok h
    obtain ⟨_, _, _, h⟩ := Steps.of_bind_eq_ok h
    cases h
    rfl

theorem adds_build (builder : CallBuilder) (callable : Callable) (owner : Option Owner) :
    Mapping.Adds (builder.build callable owner)
      (Import.Wanted (builder.mapper.platform.repo.SignatureUses builder.mapper.space
        callable.params callable.returns)) := by
  rw [build]
  split
  next => exact .throw _
  next =>
    refine ((Mapping.Adds.ofExcept _).bind fun _ =>
      (Mapping.Adds.mapM builder.mapper.adds_mapParam _).bind fun _ =>
        (Mapping.Adds.ofExcept _).bind fun _ =>
          (builder.mapper.adds_map _ _).bind_nothing fun _ =>
            Mapping.Adds.get.bind_nothing fun _ => .pure _).congr fun wanted => ?_
    rw [Import.wanted_signature_iff, false_or, false_or]

end CallBuilder

namespace CallPlan

/-- The imports of a plan are in order, and they are what is wanted for the declarations that the
parameters and the result of its callable use. -/
theorem mem_imports_iff_of_build {builder : CallBuilder} {callable : Callable}
    {owner : Option Owner} {plan : CallPlan} {usage : Usage}
    (h : builder.build callable owner {} = .ok plan usage) :
    plan.imports.Pairwise (fun first second => first.before second = true) ∧
      ∀ wanted, wanted ∈ plan.imports ↔
        Import.Wanted (builder.mapper.platform.repo.SignatureUses builder.mapper.space
          callable.params callable.returns) wanted := by
  obtain ⟨hascending, hmem⟩ := builder.adds_build callable owner {} plan usage h
  rw [CallBuilder.imports_eq_of_build h]
  refine ⟨hascending .nil, fun wanted => ?_⟩
  rw [hmem, or_iff_right List.not_mem_nil]

/-- Calls from one namespace whose types are declared in others. -/
def foresting : CallBuilder where
  mapper := Mapper.forests.reading "M"
  library := "libm.so"

/-- A function that shows all the given nodes to a visitor. -/
def visitAll : Callable where
  name := "visit_all"
  symbol := "m_visit_all"
  params := [
    { name := "nodes", type := (TypeRef.named "N.Node").arrayOf .terminated },
    { name := "visit", type := .named "K.Visit", closureIndex := some 2 },
    { name := "data", type := .named "gpointer" }]
  returns := .named "gboolean"

/-- The nodes that the visitor takes are those of its own namespace. -/
theorem visitAll_imports : ∃ plan usage, foresting.build visitAll none {} = .ok plan usage ∧
    plan.imports = [⟨"K", "Node"⟩, ⟨"K", "Visit"⟩, ⟨"N", "Node"⟩, .support "closure",
      .support "wrap"] ∧
    plan.imports.Pairwise (fun first second => first.before second = true) ∧
    ∀ wanted, wanted ∈ plan.imports ↔
      Import.Wanted (Mapper.forests.platform.repo.SignatureUses "M" visitAll.params
        visitAll.returns) wanted := by
  have hbuilt := Steps.eq_ok_of_isSome default
    (by decide +kernel : (Steps.value? (foresting.build visitAll none {})).isSome = true)
  obtain ⟨hascending, hmem⟩ := mem_imports_iff_of_build hbuilt
  exact ⟨_, _, hbuilt, by decide +kernel, hascending, hmem⟩

end CallPlan

end Interop
