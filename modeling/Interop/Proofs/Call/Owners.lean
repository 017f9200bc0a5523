import Interop.Proofs.Bindings.Complete
import Interop.Proofs.Mapping.Qualified

/-! # How instances are described

The instance that a method is called on and a parameter of the same type are described by different
parts of the program. Each looks the declaration up and goes through its kinds on its own, and both
come to the same descriptor.
-/

namespace Interop

open Schema Steps

namespace Mapper

variable {mapper : Mapper} {qualified : String} {space : Namespace} {decl : Declaration}

/-- What a full name of a declared type leads to when it is spelled in a type. -/
theorem mapSingle_of_resolves (mapper : Mapper) (callbackStep : CallbackStep)
    (context : UseContext) (param : Option Param) {spelling : Spelling}
    (hname : spelling.name = qualified)
    (hfull : (splitQualified qualified).1.isSome = true)
    (hcontainer : qualified ∉ unsupportedContainers)
    (hresolve : mapper.platform.repo.resolveQualified? qualified = some ⟨space, decl⟩) :
    mapper.mapSingle callbackStep context param (.plain spelling) = (do
      Mapping.useImport ⟨space.name, decl.name⟩
      mapper.mapDeclared callbackStep context param (.plain spelling) qualified space decl) := by
  subst hname
  rw [mapSingle_eq_mapNamed (isBuiltIn_of_mem (mem_of_isSome_splitQualified hfull))
    (isVariadicSpelling_of_isSome hfull), qualify_of_isSome _ hfull, mapNamed,
    if_neg (mt List.contains_iff_mem.1 hcontainer), hresolve]
  rfl

theorem mapParam_of_input {param : Param} {spelling : Spelling}
    (hinput : param.direction = .input) (htype : param.type = .plain spelling) :
    mapper.mapParam param =
      mapper.mapSingle mapper.outermost .parameter (some param) (.plain spelling) := by
  rw [mapParam, mapParamWith, htype, hinput]
  exact bind_pure _

end Mapper

namespace CallBuilder

variable {builder : CallBuilder} {qualified : String} {space : Namespace} {decl : Declaration}

/-- Both ways through the kinds of declarations end at one descriptor. -/
theorem ownerOf?_describes (builder : CallBuilder)
    (hresolve : builder.mapper.platform.repo.resolveQualified? qualified = some ⟨space, decl⟩)
    (hmembers : decl.hasMembers = true) (callbackStep : Mapper.CallbackStep) (param : Option Param)
    {type : TypeRef} (htransfer : type.transfer = .none) :
    ∃ owner, builder.ownerOf? qualified = some owner ∧ ∀ usage,
      value? (builder.mapper.mapDeclared callbackStep .parameter param type qualified space decl
        usage) = some owner.descriptor := by
  rw [ownerOf?, hresolve]
  cases decl with
  | cls cls =>
      refine ⟨_, rfl, fun usage => ?_⟩
      rw [Mapper.mapDeclared, htransfer]
      rfl
  | interface =>
      refine ⟨_, rfl, fun usage => ?_⟩
      rw [Mapper.mapDeclared, htransfer]
      rfl
  | record record | union record =>
      dsimp only [bind, Option.bind]
      cases hboxed : record.isBoxed with
      | true =>
          refine ⟨_, rfl, fun usage => ?_⟩
          rw [Mapper.mapDeclared, Mapper.mapRecord, hboxed, htransfer]
          rfl
      | false =>
          refine ⟨_, rfl, fun usage => ?_⟩
          rw [Mapper.mapDeclared, Mapper.mapRecord, hboxed, htransfer]
          rfl
  | enum | flags | callback => cases hmembers

/-- The size of an instance is what a calculator says that has answered any questions before. -/
theorem size_of_ownerOf? {owner : Owner} {innerType library : String} {size : Nat} {inPlace : Bool}
    {ownership : Ownership} (h : builder.ownerOf? qualified = some owner)
    (hstruct : owner.descriptor = .struct innerType library size inPlace ownership)
    (queries : List LayoutQuery) :
    size = ((builder.mapper.platform.calculator.answers queries).2.typeSize qualified).1 := by
  have hfresh := Calculator.calculator_sound builder.mapper.platform
  obtain ⟨_, hplatform, hsound⟩ := Calculator.answers_replies hfresh queries
  rw [(Calculator.typeSize_replies hsound qualified).1, hplatform]
  change size = builder.mapper.platform.typeSize qualified
  rw [← Calculator.typeSize_calculator]
  obtain ⟨⟨_, decl⟩, _, hdecl⟩ := Option.bind_eq_some_iff.1 h
  cases decl with
  | cls | interface =>
      cases hdecl
      cases hstruct
  | record record | union record =>
      dsimp only at hdecl
      split at hdecl
      next =>
        cases hdecl
        cases hstruct
      next =>
        cases hdecl
        cases hstruct
        rfl
  | enum | flags | callback => cases hdecl

/-- Whatever the namespace that a parameter is read in, if it takes an instance of a declared type
and takes over no reference, it is described like the instance that a method of the type is called
on. If that tells a size, it is the one that calculators tell. -/
theorem ownerOf?_eq_mapParam (builder : CallBuilder) (reader : String) {resolved : Resolved}
    (hresolve : builder.mapper.platform.repo.resolveQualified? qualified = some resolved)
    (hmembers : resolved.decl.hasMembers = true)
    (hfull : (splitQualified qualified).1.isSome = true)
    (hcontainer : qualified ∉ unsupportedContainers) {param : Param} {spelling : Spelling}
    (hinput : param.direction = .input) (htype : param.type = .plain spelling)
    (hname : spelling.name = qualified) (htransfer : spelling.transfer = .none) :
    ∃ owner, builder.ownerOf? qualified = some owner ∧
      (∀ usage, value? ((builder.mapper.reading reader).mapParam param usage) =
        some owner.descriptor) ∧
      ∀ queries innerType library size inPlace ownership,
        owner.descriptor = .struct innerType library size inPlace ownership →
          size = ((builder.mapper.platform.calculator.answers queries).2.typeSize qualified).1 := by
  obtain ⟨space, decl⟩ := resolved
  let reading : CallBuilder := { builder with mapper := builder.mapper.reading reader }
  have hplain : (TypeRef.plain spelling).transfer = .none := htransfer
  obtain ⟨owner, howner, hdescribes⟩ := reading.ownerOf?_describes hresolve hmembers
    reading.mapper.outermost (some param) hplain
  refine ⟨owner, howner, fun usage => ?_, fun queries _ _ _ _ _ hstruct =>
    size_of_ownerOf? howner hstruct queries⟩
  have hsingle := reading.mapper.mapSingle_of_resolves reading.mapper.outermost .parameter
    (some param) hname hfull hcontainer hresolve
  rw [Mapper.mapParam_of_input hinput htype, congrFun hsingle usage]
  exact hdescribes _

/-- A class that counts its references itself, and a record that holds one of its kind in place. -/
def drawings : CallBuilder where
  mapper.platform.repo := .ofSpaces [{
    name := "Geo"
    classes := [{ name := "Pen", fundamental := true, refFunc := some "pen_ref"
                  unrefFunc := some "pen_unref" }]
    records := [{
      name := "Ring"
      fields := [.shown "inner" ((TypeRef.named "Ring").withCType "GeoRing"),
        .shown "width" (.named "gint32")] }] }]
  mapper.platform.pointerSize := 8
  mapper.options := {}
  mapper.space := "Geo"
  library := ""

theorem drawings_ownerOf? :
    ((drawings.ownerOf? "Geo.Ring").map (·.descriptor) =
        some (.struct "Geo.Ring" "" 16 false .none) ∧
      value? ((drawings.mapper.reading "Gtk").mapParam
        { name := "ring", type := .named "Geo.Ring" } {}) =
          some (.struct "Geo.Ring" "" 16 false .none)) ∧
    (drawings.ownerOf? "Geo.Pen").map (·.descriptor) =
        some (.object .none (some ⟨"pen_ref", "pen_unref"⟩)) ∧
      value? ((drawings.mapper.reading "Gtk").mapParam
        { name := "pen", type := .named "Geo.Pen" } {}) =
          some (.object .none (some ⟨"pen_ref", "pen_unref"⟩)) := by
  obtain ⟨ring, hring, hrings, _⟩ := @ownerOf?_eq_mapParam "Geo.Ring" drawings "Gtk" _ rfl rfl
    (by decide) (by decide) { name := "ring", type := .named "Geo.Ring" } _ rfl rfl rfl rfl
  obtain ⟨pen, hpen, hpens, _⟩ := @ownerOf?_eq_mapParam "Geo.Pen" drawings "Gtk" _ rfl rfl
    (by decide) (by decide) { name := "pen", type := .named "Geo.Pen" } _ rfl rfl rfl rfl
  have hstruct : drawings.ownerOf? "Geo.Ring" = some ⟨"Geo.Ring", .struct, .struct "Geo.Ring" ""
      (drawings.mapper.platform.calculator.typeSize "Geo.Ring").1 false .none⟩ := rfl
  have hsize : (drawings.mapper.platform.calculator.typeSize "Geo.Ring").1 = 16 := by
    decide +kernel
  have hobject : drawings.ownerOf? "Geo.Pen" =
      some ⟨"Geo.Pen", .fundamental, .object .none (some ⟨"pen_ref", "pen_unref"⟩)⟩ := rfl
  rw [hsize] at hstruct
  obtain rfl := Option.some.inj (hring.symm.trans hstruct)
  obtain rfl := Option.some.inj (hpen.symm.trans hobject)
  exact ⟨⟨congrArg _ hring, hrings _⟩, congrArg _ hpen, hpens _⟩

end CallBuilder

end Interop
