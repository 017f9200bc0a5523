import Interop.Proofs.Mapping.Stored

/-! # Names of types

The name of a type is a built-in one, stands for a variable number of arguments, or is that of a
declaration, which is looked up under its full name. The signature of a declared callback type is
read in the namespace of the declaration, whatever the namespace in which it was met.
-/

namespace Interop

open Schema

namespace Schema

/-- The name is that of a text or of a primitive, and is never looked up. -/
def isBuiltIn (name : String) : Bool :=
  isStringSpelling name || (PrimitiveKind.ofSpelling? name).isSome

/-- The name stands for a variable number of arguments. -/
def isVariadicSpelling (name : String) : Bool := name == "va_list" || name == "..."

theorem TypeRef.isVoid_of_not_isBuiltIn {spelling : Spelling}
    (h : isBuiltIn spelling.name = false) : (plain spelling).isVoid = false := by
  rw [Bool.eq_false_iff]
  intro hvoid
  simp only [isVoid, Bool.or_eq_true, beq_iff_eq] at hvoid
  rcases hvoid with hname | hname
  · rw [hname] at h
    cases h
  · rw [hname] at h
    cases h

end Schema

namespace Mapper

variable {mapper : Mapper} {callbackStep : CallbackStep} {context : UseContext}
  {param : Option Param}

/-- The descriptor of a value whose type is declared under a full name. -/
def mapNamed (mapper : Mapper) (callbackStep : CallbackStep) (context : UseContext)
    (param : Option Param) (type : TypeRef) (qualified : String) : Mapping Descriptor :=
  if unsupportedContainers.contains qualified then
    throw (.refused (.unsupportedContainer qualified))
  else match mapper.platform.repo.resolveQualified? qualified with
    | none => throw (.refused (.unresolvedType qualified))
    | some resolved => do
      Mapping.useImport ⟨resolved.space.name, resolved.localName⟩
      mapper.mapDeclared callbackStep context param type qualified resolved.space resolved.decl

theorem mapSingle_eq_mapNamed {spelling : Spelling} (hbuiltIn : isBuiltIn spelling.name = false)
    (hvariadic : isVariadicSpelling spelling.name = false) :
    mapper.mapSingle callbackStep context param (.plain spelling) =
      mapper.mapNamed callbackStep context param (.plain spelling)
        (qualify mapper.space spelling.name) := by
  have hvoid := TypeRef.isVoid_of_not_isBuiltIn hbuiltIn
  obtain ⟨hstring, hkind⟩ := Bool.or_eq_false_iff.1 hbuiltIn
  rw [Option.isSome_eq_false_iff, Option.isNone_iff_eq_none] at hkind
  have hname : (TypeRef.plain spelling).name = spelling.name := rfl
  unfold isVariadicSpelling at hvariadic
  simp only [mapSingle, mapNamed, hname, hvoid, hstring, hkind, hvariadic, Bool.false_eq_true,
    if_false]
  split
  next => rfl
  next =>
    cases mapper.platform.repo.resolveQualified? (qualify mapper.space spelling.name) with
    | none => rfl
    | some resolved =>
        cases hdecl : resolved.decl with
        | _ =>
          dsimp only
          rw [hdecl]
          rfl

/-- The descriptor of a value whose type has a built-in name. -/
def builtIn (pointerSize : Nat) (type : TypeRef) : Descriptor :=
  if type.isVoid then .null
  else if isStringSpelling type.name then .string type.transfer
  else ((PrimitiveKind.ofSpelling? type.name).map (.ofPrimitive · pointerSize)).getD .null

/-- What has a built-in name is described without looking anything up. -/
theorem mapSingle_of_isBuiltIn {spelling : Spelling} (h : isBuiltIn spelling.name = true) :
    mapper.mapSingle callbackStep context param (.plain spelling) =
      pure (builtIn mapper.options.pointerSize (.plain spelling)) := by
  have hname : (TypeRef.plain spelling).name = spelling.name := rfl
  rw [mapSingle, builtIn, hname]
  cases (TypeRef.plain spelling).isVoid with
  | true => rfl
  | false =>
      cases hstring : isStringSpelling spelling.name with
      | true => rfl
      | false =>
          rw [isBuiltIn, hstring, Bool.false_or] at h
          obtain ⟨kind, hkind⟩ := Option.isSome_iff_exists.1 h
          rw [hkind]
          rfl

/-- What stands for a variable number of arguments has no descriptor. -/
theorem mapSingle_of_isVariadicSpelling {spelling : Spelling}
    (h : isVariadicSpelling spelling.name = true) :
    mapper.mapSingle callbackStep context param (.plain spelling) =
      throw (.refused (.unsupportedInContext spelling.name context)) := by
  obtain ⟨name, cType, nullable, transfer⟩ := spelling
  simp only [isVariadicSpelling, Bool.or_eq_true, beq_iff_eq] at h
  rcases h with rfl | rfl <;> rfl

theorem mapCallback_eq (mapper : Mapper) (path : List String) (qualified : String)
    (param : Option Param) :
    mapper.mapCallback path qualified param =
      if path.contains qualified then throw (.overflow qualified)
      else match mapper.platform.repo.resolveQualified? qualified with
        | some ⟨space, .callback callback⟩ =>
          (mapper.reading space.name).mapSignature (mapper.mapCallback (qualified :: path))
            qualified callback param
        | _ => throw (.refused (.unresolvedType qualified)) := by
  rw [mapCallback]
  split
  next => rfl
  next =>
    split
    next hresolve => rw [hresolve]
    next hother =>
      split
      next space callback hresolve => exact absurd hresolve (hother space callback)
      next => rfl

/-- By induction on the callback types that are not being read. -/
theorem mapCallback_reading (mapper : Mapper) (space : String) (path : List String) :
    (mapper.reading space).mapCallback path = mapper.mapCallback path := by
  funext qualified param
  have hrepo : (mapper.reading space).platform.repo = mapper.platform.repo := rfl
  rw [mapCallback_eq, mapCallback_eq, hrepo]
  by_cases hpath : path.contains qualified = true
  · rw [if_pos hpath, if_pos hpath]
  · rw [if_neg hpath, if_neg hpath]
    cases hresolve : mapper.platform.repo.resolveQualified? qualified with
    | none => rfl
    | some resolved =>
        rw [mapCallback_reading mapper space (qualified :: path)]
        rfl
termination_by mapper.platform.repo.remaining path
decreasing_by exact Repository.remaining_cons_lt hresolve (by simpa using hpath)

theorem outermost_reading (mapper : Mapper) (space : String) :
    (mapper.reading space).outermost = mapper.outermost := mapper.mapCallback_reading space []

/-- Of a parameter only the slots and the scope are read, and not how it spells the type. -/
theorem outermost_withType (mapper : Mapper) (param : Param) (type : TypeRef) (qualified : String) :
    mapper.outermost qualified (some param) =
      mapper.outermost qualified (some { param with type }) := by
  rw [outermost, mapCallback_eq, mapCallback_eq]
  rfl

end Mapper

end Interop
