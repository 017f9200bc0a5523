import Interop.Proofs.Mapping.Names
import Interop.Proofs.Schema.FullNames

/-! # Full names of types

A name with its namespace in front is read alike everywhere. So a type that is spelled with full
names has in any namespace the layouts and the descriptor that its local spelling has where it is
written. The names of a variable number of arguments are the exception: no namespace describes
them, but as long as they are not looked up they can be those of declared types.
-/

namespace Interop

open Schema Steps

namespace Schema

/-- No built-in name has a point. -/
theorem isBuiltIn_of_mem {name : String} (hpoint : '.' ∈ name.toList) : isBuiltIn name = false := by
  have hspelled : ∀ kind ∈ PrimitiveKind.all, ∀ spelling ∈ kind.spellings,
      '.' ∉ spelling.toList := by decide
  rw [isBuiltIn, Bool.or_eq_false_iff, Option.isSome_eq_false_iff, Option.isNone_iff_eq_none]
  constructor
  · rw [Bool.eq_false_iff]
    intro hstring
    simp only [isStringSpelling, Bool.or_eq_true, beq_iff_eq] at hstring
    rcases hstring with hname | hname
    · rw [hname] at hpoint
      exact absurd hpoint (by decide)
    · rw [hname] at hpoint
      exact absurd hpoint (by decide)
  · refine List.find?_eq_none.2 fun kind hkind hcontains => ?_
    exact hspelled kind hkind _ (List.contains_iff_mem.1 hcontains) hpoint

/-- A full name is no built-in one. -/
theorem isBuiltIn_qualify {name : String} (space : String) (h : isBuiltIn name = false) :
    isBuiltIn (qualify space name) = false := by
  cases hsplit : (splitQualified name).1.isSome with
  | true => rwa [qualify_of_isSome space hsplit]
  | false =>
      rw [qualify_of_isNone space hsplit]
      refine isBuiltIn_of_mem ?_
      rw [toList_join]
      simp

theorem isVariadicSpelling_of_isSome {name : String}
    (h : (splitQualified name).1.isSome = true) : isVariadicSpelling name = false := by
  rw [Bool.eq_false_iff]
  intro hvariadic
  simp only [isVariadicSpelling, Bool.or_eq_true, beq_iff_eq] at hvariadic
  rcases hvariadic with rfl | rfl
  · exact absurd h (by decide)
  · exact absurd h (by decide)

section

variable {space name : String} (other : String) (hspace : space ≠ "")
  (hpoint : space.toList.head? ≠ some '.')
include hspace hpoint

theorem isVariadicSpelling_qualify (h : isVariadicSpelling name = false) :
    isVariadicSpelling (qualify space name) = false := by
  cases hsplit : (splitQualified name).1.isSome with
  | true => rwa [qualify_of_isSome space hsplit]
  | false =>
      rw [qualify_of_isNone space hsplit, Bool.eq_false_iff]
      intro hvariadic
      simp only [isVariadicSpelling, Bool.or_eq_true, beq_iff_eq] at hvariadic
      rcases hvariadic with hname | hname
      · have hmem : '.' ∈ "va_list".toList := by
          rw [← hname, toList_join]
          simp
        exact absurd hmem (by decide)
      · refine hpoint ?_
        have hhead : (join space name).toList.head? = some '.' := by
          rw [hname]
          decide
        rwa [toList_join, List.head?_append_of_ne_nil _ (mt String.toList_eq_nil_iff.1 hspace)]
          at hhead

end

/-! ## Spelling types out -/

/-- The spelling with its full name, unless it has a built-in one. -/
def Spelling.qualified (space : String) (spelling : Spelling) : Spelling :=
  if isBuiltIn spelling.name then spelling
  else { spelling with name := qualify space spelling.name }

namespace Spelling

variable (space : String) (spelling : Spelling)

@[simp]
theorem transfer_qualified : (spelling.qualified space).transfer = spelling.transfer := by
  unfold qualified
  split <;> rfl

@[simp]
theorem cType_qualified : (spelling.qualified space).cType = spelling.cType := by
  unfold qualified
  split <;> rfl

theorem qualified_of_isBuiltIn {spelling : Spelling} (h : isBuiltIn spelling.name = true) :
    spelling.qualified space = spelling := if_pos h

section

variable {space : String} {spelling : Spelling} (hbuiltIn : isBuiltIn spelling.name = false)
include hbuiltIn

theorem name_qualified : (spelling.qualified space).name = qualify space spelling.name := by
  rw [qualified, hbuiltIn, if_neg Bool.false_ne_true]

theorem isBuiltIn_qualified : isBuiltIn (spelling.qualified space).name = false := by
  rw [name_qualified hbuiltIn]
  exact isBuiltIn_qualify space hbuiltIn

variable (other : String) (hspace : space ≠ "") (hpoint : space.toList.head? ≠ some '.')
include hspace hpoint

theorem qualify_qualified (hname : spelling.name ≠ "") :
    qualify other (spelling.qualified space).name = qualify space spelling.name := by
  rw [name_qualified hbuiltIn, qualify_qualify other hspace hpoint hname]

theorem isVariadicSpelling_qualified (h : isVariadicSpelling spelling.name = false) :
    isVariadicSpelling (spelling.qualified space).name = false := by
  rw [name_qualified hbuiltIn]
  exact isVariadicSpelling_qualify hspace hpoint h

end

end Spelling

namespace TypeRef

/-- The type with full names for all that are not built in, those of elements included. -/
def qualified (space : String) : TypeRef → TypeRef
  | plain spelling => plain (spelling.qualified space)
  | array spelling form element => array (spelling.qualified space) form (element.qualified space)

/-- No name in the type is empty. -/
def IsNamed : TypeRef → Prop
  | plain spelling => spelling.name ≠ ""
  | array spelling _ element => spelling.name ≠ "" ∧ element.IsNamed

/-- The type, or that of the elements, stands for a variable number of arguments. -/
def isVariadic : TypeRef → Bool
  | plain spelling => isVariadicSpelling spelling.name
  | array _ _ element => element.isVariadic

variable (space : String) (spelling : Spelling)

theorem isPointerSpelled_qualified :
    (plain (spelling.qualified space)).isPointerSpelled = (plain spelling).isPointerSpelled :=
  congrArg (Option.any _) (spelling.cType_qualified space)

theorem isInline_qualified :
    (plain (spelling.qualified space)).isInline = (plain spelling).isInline :=
  congrArg (Option.any _) (spelling.cType_qualified space)

end TypeRef

end Schema

/-! ## Layouts -/

section

variable {space : String} (other : String) (hspace : space ≠ "")
  (hpoint : space.toList.head? ≠ some '.')
include hspace hpoint

namespace Slot

variable (repo : Repository) (pointerSize : Nat) (inArray : Bool)

theorem ofSpelling_qualified {spelling : Spelling} (hname : spelling.name ≠ "") :
    ofSpelling repo pointerSize space inArray (.plain spelling) =
      ofSpelling repo pointerSize other inArray (.plain (spelling.qualified space)) := by
  cases hbuiltIn : isBuiltIn spelling.name with
  | true =>
      rw [Spelling.qualified_of_isBuiltIn space hbuiltIn]
      have hname : (TypeRef.plain spelling).name = spelling.name := rfl
      unfold ofSpelling
      rw [isBuiltIn, Bool.or_eq_true, Option.isSome_iff_exists] at hbuiltIn
      rcases hbuiltIn with hstring | ⟨kind, hkind⟩
      · rw [hname, hstring, Bool.or_true, if_pos rfl, if_pos rfl]
      · rw [hname, hkind]
  | false =>
      have hqualify := Spelling.qualify_qualified hbuiltIn other hspace hpoint hname
      have hbuiltIn' : isBuiltIn (spelling.qualified space).name = false :=
        Spelling.isBuiltIn_qualified hbuiltIn
      have hvoid := TypeRef.isVoid_of_not_isBuiltIn hbuiltIn
      have hvoid' := TypeRef.isVoid_of_not_isBuiltIn hbuiltIn'
      obtain ⟨hstring, hkind⟩ := Bool.or_eq_false_iff.1 hbuiltIn
      obtain ⟨hstring', hkind'⟩ := Bool.or_eq_false_iff.1 hbuiltIn'
      rw [Option.isSome_eq_false_iff, Option.isNone_iff_eq_none] at hkind hkind'
      have hplain : ∀ spelling, (TypeRef.plain spelling).name = spelling.name := fun _ => rfl
      simp only [ofSpelling, Repository.resolve?, hplain, hvoid, hvoid', hstring, hstring', hkind,
        hkind', hqualify, TypeRef.isPointerSpelled_qualified, TypeRef.isInline_qualified]

theorem ofType_qualified {type : TypeRef} (hnamed : type.IsNamed) :
    ofType repo pointerSize space inArray type =
      ofType repo pointerSize other inArray (type.qualified space) := by
  induction type generalizing inArray with
  | plain spelling =>
      exact ofSpelling_qualified other hspace hpoint repo pointerSize inArray hnamed
  | array spelling form element ih =>
      rw [TypeRef.qualified, ofType, ofType, TypeRef.isPointerSpelled_qualified, ih true hnamed.2]

end Slot

namespace Calculator

theorem slot_qualified (platform : Platform) (path : List String) (inArray : Bool) {type : TypeRef}
    (hnamed : type.IsNamed) :
    slot platform path space inArray type =
      slot platform path other inArray (type.qualified space) := by
  unfold slot
  rw [Slot.ofType_qualified other hspace hpoint _ _ _ hnamed]

end Calculator

/-! ## Descriptors -/

namespace Mapper

variable {mapper : Mapper} {callbackStep : CallbackStep} {context : UseContext}
  {param param' : Option Param}

variable (hstep : ∀ qualified, callbackStep qualified param = callbackStep qualified param')
include hstep

omit hspace hpoint in
theorem mapDeclared_qualified (spelling : Spelling) (qualified : String) (owner : Namespace)
    (decl : Declaration) :
    (mapper.reading space).mapDeclared callbackStep context param (.plain spelling) qualified
        owner decl =
      (mapper.reading other).mapDeclared callbackStep context param'
        (.plain (spelling.qualified space)) qualified owner decl := by
  have htransfer : (TypeRef.plain (spelling.qualified space)).transfer =
      (TypeRef.plain spelling).transfer := spelling.transfer_qualified space
  have hplace : storedInPlace context (.plain (spelling.qualified space)) =
      storedInPlace context (.plain spelling) := by
    cases context with
    | field => exact TypeRef.isInline_qualified space spelling
    | element => exact congrArg not (TypeRef.isPointerSpelled_qualified space spelling)
    | parameter | returned => rfl
  cases decl with
  | record | union =>
      simp only [mapDeclared, mapRecord, htransfer, hplace]
      rfl
  | callback =>
      cases context with
      | parameter => exact hstep qualified
      | field | element | returned => rfl
  | cls | interface =>
      simp only [mapDeclared, htransfer]
  | enum | flags => rfl

/-- A single value is described alike, and the same is used for it. -/
theorem mapSingle_qualified {spelling : Spelling} (hname : spelling.name ≠ "")
    (hvariadic : isVariadicSpelling spelling.name = false) :
    (mapper.reading space).mapSingle callbackStep context param (.plain spelling) =
      (mapper.reading other).mapSingle callbackStep context param'
        (.plain (spelling.qualified space)) := by
  cases hbuiltIn : isBuiltIn spelling.name with
  | true =>
      rw [Spelling.qualified_of_isBuiltIn space hbuiltIn]
      rw [mapSingle_of_isBuiltIn hbuiltIn, mapSingle_of_isBuiltIn hbuiltIn]
      rfl
  | false =>
      have hqualify : qualify (mapper.reading other).space (spelling.qualified space).name =
          qualify (mapper.reading space).space spelling.name :=
        Spelling.qualify_qualified hbuiltIn other hspace hpoint hname
      rw [mapSingle_eq_mapNamed hbuiltIn hvariadic,
        mapSingle_eq_mapNamed (Spelling.isBuiltIn_qualified hbuiltIn)
          (Spelling.isVariadicSpelling_qualified hbuiltIn hspace hpoint hvariadic), hqualify]
      simp only [mapNamed, mapDeclared_qualified other hstep spelling]
      rfl

theorem mapWith_qualified {type : TypeRef} (hnamed : type.IsNamed)
    (hvariadic : type.isVariadic = false) :
    Agree ((mapper.reading space).mapWith callbackStep context param type)
      ((mapper.reading other).mapWith callbackStep context param' (type.qualified space)) := by
  cases type with
  | plain spelling =>
      exact agree_of_eq (mapSingle_qualified other hspace hpoint hstep hnamed hvariadic)
  | array spelling form element =>
      cases element with
      | array => exact fun _ => .inr ⟨rfl, rfl⟩
      | plain inner =>
          have hsingle : Agree
              ((mapper.reading space).mapSingle callbackStep .element none (.plain inner))
              ((mapper.reading other).mapSingle callbackStep .element none
                (.plain (inner.qualified space))) :=
            agree_of_eq
              (mapSingle_qualified other hspace hpoint (fun _ => rfl) hnamed.2 hvariadic)
          refine hsingle.bind fun described => ?_
          rw [Spelling.transfer_qualified]
          -- elements that are nothing are refused under either of their names
          split
          next => exact fun _ => .inr ⟨rfl, rfl⟩
          next => exact agree_of_eq rfl

omit hstep in
theorem map_qualified {type : TypeRef} (hnamed : type.IsNamed)
    (hvariadic : type.isVariadic = false) :
    Agree ((mapper.reading space).map context type)
      ((mapper.reading other).map context (type.qualified space)) := by
  rw [map, map, outermost_reading, outermost_reading]
  exact mapWith_qualified other hspace hpoint (fun _ => rfl) hnamed hvariadic

omit hstep in
theorem mapParam_qualified {param : Param} (hnamed : param.type.IsNamed)
    (hvariadic : param.type.isVariadic = false) :
    Agree ((mapper.reading space).mapParam param)
      ((mapper.reading other).mapParam { param with type := param.type.qualified space }) := by
  rw [mapParam, mapParam, outermost_reading, outermost_reading]
  have hstep := mapper.outermost_withType param (param.type.qualified space)
  refine (mapWith_qualified other hspace hpoint hstep hnamed hvariadic).bind fun inner => ?_
  dsimp only
  split
  next => exact agree_of_eq rfl
  next =>
    -- the error about a slot for a managed function names the type
    split
    next => exact fun _ => .inr ⟨rfl, rfl⟩
    next => exact agree_of_eq rfl

end Mapper

end

namespace Mapper

theorem isSome_failure?_map {mapper : Mapper} {type : TypeRef} (h : type.isVariadic = true)
    (context : UseContext) (usage : Usage) :
    (failure? (mapper.map context type usage)).isSome = true := by
  cases type with
  | plain spelling =>
      have hfails : mapper.map context (.plain spelling) = throw _ :=
        mapSingle_of_isVariadicSpelling h
      rw [hfails]
      rfl
  | array spelling form element =>
      cases element with
      | array => rfl
      | plain inner =>
          have hinner : mapper.mapSingle mapper.outermost .element none (.plain inner) =
              throw _ := mapSingle_of_isVariadicSpelling h
          have hfails : mapper.map context (.array spelling form (.plain inner)) usage =
              .error _ usage := bind_eq_of_eq_error (by rw [hinner]; rfl)
          rw [hfails]
          rfl

/-- In a namespace a type has the layouts and the descriptor that it has in any other one when it is
spelled out. What stands for a variable number of arguments is laid out like any other type and
described nowhere. -/
theorem reads_alike (mapper : Mapper) {space : String} (other : String) (hspace : space ≠ "")
    (hpoint : space.toList.head? ≠ some '.') {type : TypeRef} (hnamed : type.IsNamed) :
    (∀ calculator : Calculator,
      calculator.fieldTypeLayout space type =
        calculator.fieldTypeLayout other (type.qualified space) ∧
      calculator.elementLayout space type =
        calculator.elementLayout other (type.qualified space)) ∧
    (type.isVariadic = false →
      (∀ context, Agree ((mapper.reading space).map context type)
        ((mapper.reading other).map context (type.qualified space))) ∧
      ∀ param : Param, param.type = type → Agree ((mapper.reading space).mapParam param)
        ((mapper.reading other).mapParam { param with type := type.qualified space })) ∧
    (type.isVariadic = true → ∀ context usage,
      (failure? ((mapper.reading space).map context type usage)).isSome = true) := by
  refine ⟨fun calculator => ?_, fun hvariadic => ?_, isSome_failure?_map⟩
  · have hslot : ∀ inArray, Calculator.slot calculator.platform [] space inArray type =
        Calculator.slot calculator.platform [] other inArray (type.qualified space) :=
      fun inArray => Calculator.slot_qualified other hspace hpoint _ [] inArray hnamed
    constructor
    · rw [Calculator.fieldTypeLayout, hslot]
      rfl
    · rw [Calculator.elementLayout, hslot]
      rfl
  · refine ⟨fun context => map_qualified other hspace hpoint hnamed hvariadic, ?_⟩
    rintro param rfl
    exact mapParam_qualified other hspace hpoint hnamed hvariadic

/-- Two namespaces with nodes of their own, and a third one whose visits are of nodes too. -/
def forests : Mapper where
  platform.repo := .ofSpaces [
    { name := "N", records := [{
        name := "Node"
        fields := [.shown "left" (.named "gint64"), .shown "right" (.named "gint64")] }] },
    { name := "M", records := [{ name := "Node", fields := [.shown "key" (.named "gint")] }] },
    { name := "K"
      records := [{ name := "Node", fields := [.shown "next" (.named "gpointer")] }]
      callbacks := [{ name := "Visit", params := [{ name := "node", type := .named "Node" }] }] }]
  platform.pointerSize := 8
  options := {}
  space := "K"

/-- Two nodes in a row. -/
def nodePair : TypeRef := (TypeRef.named "Node").arrayOf (.fixed 2)

/-- Nodes of the one namespace are found in the other one by their full name. -/
theorem nodePair_reads_alike :
    ("N" ≠ "" ∧ "N".toList.head? ≠ some '.' ∧ nodePair.IsNamed) ∧
    (forests.platform.calculator.fieldTypeLayout "N" nodePair =
        forests.platform.calculator.fieldTypeLayout "M" (nodePair.qualified "N") ∧
      (forests.platform.calculator.fieldTypeLayout "N" nodePair).1 = ⟨32, 8⟩ ∧
      (forests.platform.calculator.fieldTypeLayout "M" nodePair).1 = ⟨8, 4⟩) ∧
    (Agree ((forests.reading "N").map .field nodePair)
        ((forests.reading "M").map .field (nodePair.qualified "N")) ∧
      (value? ((forests.reading "N").map .field nodePair {})).isSome = true) := by
  have hnamed : nodePair.IsNamed := ⟨by decide, (by decide : "Node" ≠ "")⟩
  obtain ⟨hlayouts, hdescribed, _⟩ :=
    @reads_alike forests "N" "M" (by decide) (by decide) nodePair hnamed
  refine ⟨⟨by decide, by decide, hnamed⟩, ⟨(hlayouts _).1, ?_, ?_⟩, (hdescribed rfl).1 .field, ?_⟩
  · decide +kernel
  · decide +kernel
  · decide +kernel

/-- A namespace that declares a type under a name that stands for a variable number of arguments. -/
def argumentLists : Mapper where
  platform.repo := .ofSpaces [{
    name := "N"
    records := [{
      name := "va_list"
      fields := [.shown "next" (.named "gpointer"), .shown "left" (.named "gint")] }] }]
  platform.pointerSize := 8
  options := {}
  space := "N"

/-- The type is not described where it is declared, but elsewhere under its full name. Under the
same name it is laid out in different ways. -/
theorem argumentLists_apart :
    let type := (TypeRef.named "va_list").withCType "va_list"
    ¬ Agree ((argumentLists.reading "N").map .parameter type)
      ((argumentLists.reading "M").map .parameter (type.qualified "N")) ∧
    argumentLists.platform.calculator.fieldTypeLayout "N" type ≠
      argumentLists.platform.calculator.fieldTypeLayout "M" type := by
  have hfailure : (failure? ((argumentLists.reading "N").map .parameter
      ((TypeRef.named "va_list").withCType "va_list") {})).isSome = true := by decide +kernel
  have hdescribed : (failure? ((argumentLists.reading "M").map .parameter
      (((TypeRef.named "va_list").withCType "va_list").qualified "N") {})).isSome = false := by
    decide +kernel
  refine ⟨fun hagree => ?_, fun hsame => ?_⟩
  · rcases hagree {} with hsame | ⟨_, hfails⟩
    · rw [hsame, hdescribed] at hfailure
      cases hfailure
    · rw [hdescribed] at hfails
      cases hfails
  · exact absurd (congrArg (·.1.size) hsame) (by decide +kernel)

end Mapper

end Interop
