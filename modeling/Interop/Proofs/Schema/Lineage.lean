import Interop.Bridge.Registration
import Interop.Proofs.Bindings.Compiled
import Interop.Proofs.Schema.Distinct

/-! # Classes and their parents

A class names its parent by a full name, or by a name that is read in the namespace of the class. If
no name of a namespace has a point in it, full names say where a class is declared, so the classes
that a class descends from can be followed from namespace to namespace. Declared types are told
apart at run time by their type names.
-/

namespace Interop

open Schema

namespace Schema

/-! ## Type names -/

/-- The name under which a declared type is known at run time, if natives can be of it. -/
def Declaration.typeName? (qualified : String) : Declaration → Option String
  | .cls decl => some (runtimeTypeName decl.typeName decl.cType qualified)
  | .interface decl => some (runtimeTypeName decl.typeName decl.cType qualified)
  | .record decl | .union decl => some (runtimeTypeName decl.typeName decl.cType qualified)
  | .enum _ | .flags _ | .callback _ => none

namespace Repository

variable {repo : Repository} {space : Namespace} {decl : Declaration}

/-- The names under which declared types are known at run time. -/
def typeNames (repo : Repository) : List String :=
  (declared repo.spaces).filterMap fun entry => entry.2.decl.typeName? entry.1

theorem mem_typeNames (hspace : space ∈ repo.spaces) (hdecl : decl ∈ space.declarations)
    {typeName : String} (h : decl.typeName? (space.qualify decl.name) = some typeName) :
    typeName ∈ repo.typeNames :=
  List.mem_filterMap.2 ⟨_, mem_declared hspace hdecl, h⟩

/-- A declared type has the type name that the schema has for its full name. -/
theorem Distinct.schemaTypeName_eq (h : repo.Distinct) (hspace : space ∈ repo.spaces)
    (hdecl : decl ∈ space.declarations) {typeName : String}
    (htype : decl.typeName? (space.qualify decl.name) = some typeName) :
    schemaTypeName repo (space.qualify decl.name) = typeName := by
  rw [schemaTypeName, h.resolveQualified? hspace hdecl]
  cases decl <;> simp_all [Declaration.typeName?]

/-- A class as it is declared, with the namespace that declares it. -/
@[ext]
structure Class (repo : Repository) where
  space : Namespace
  decl : ObjectClass
  space_mem : space ∈ repo.spaces
  decl_mem : decl ∈ space.classes

namespace Class

variable (cls : repo.Class) {parent : repo.Class}

def qualified : String := cls.space.qualify cls.decl.name

def typeName : String := runtimeTypeName cls.decl.typeName cls.decl.cType cls.qualified

/-- The full name of the parent. Nothing needs to be declared under it. -/
def parent? : Option String := cls.decl.parent.map (Schema.qualify cls.space.name)

/-- The other class is the one that is named as the parent. -/
def Extends (cls parent : repo.Class) : Prop := cls.parent? = some parent.qualified

instance (cls parent : repo.Class) : Decidable (cls.Extends parent) :=
  inferInstanceAs (Decidable (cls.parent? = some parent.qualified))

theorem mem_declarations : .cls cls.decl ∈ cls.space.declarations := by
  simp [Namespace.declarations, cls.decl_mem]

theorem schemaTypeName_qualified (h : repo.Distinct) :
    schemaTypeName repo cls.qualified = cls.typeName :=
  h.schemaTypeName_eq cls.space_mem cls.mem_declarations rfl

/-- Classes are told apart by their type names. -/
theorem eq_of_typeName_eq (h : repo.typeNames.Nodup) {cls other : repo.Class}
    (hname : cls.typeName = other.typeName) : cls = other := by
  have hentry : ∀ cls : repo.Class,
      (cls.qualified, (⟨cls.space, .cls cls.decl⟩ : Resolved)) ∈ declared repo.spaces :=
    fun cls => mem_declared cls.space_mem cls.mem_declarations
  have hsame := eq_of_filterMap_nodup h (hentry cls) (hentry other) rfl (congrArg some hname.symm)
  simp only [Prod.mk.injEq, Resolved.mk.injEq, Declaration.cls.injEq] at hsame
  exact Class.ext hsame.2.1 hsame.2.2

/-- The parent is declared in the namespace of the class, or in the one that its full name starts
with. -/
theorem Extends.space_eq (h : cls.Extends parent)
    (hdotless : ∀ space ∈ repo.spaces, '.' ∉ space.name.toList) :
    parent.space.name = cls.space.name ∨
      (splitQualified parent.qualified).1 = some parent.space.name := by
  obtain ⟨name, hname, hqualified⟩ := Option.map_eq_some_iff.1 h
  have hparent := hdotless _ parent.space_mem
  unfold Schema.qualify at hqualified
  split at hqualified
  next space _ hsplit =>
    subst hqualified
    obtain ⟨hspace, rest, hrest⟩ := exists_eq_join_of_splitQualified (congrArg Prod.fst hsplit)
    obtain rfl := space_eq_of_join_eq hspace hparent (hrest.symm.trans rfl)
    exact .inr (congrArg Prod.fst hsplit)
  next =>
    exact .inl (space_eq_of_join_eq hparent (hdotless _ cls.space_mem) hqualified.symm)

end Class

end Repository

end Schema

/-! ## Compiled classes -/

namespace Compile

variable {α β : Type}

/-- Every step of a list of them gives something. -/
theorem exists_mem_mapM {step : α → Compile β} {items : List α} {item : α} (h : item ∈ items)
    (report : CompileReport) :
    ∃ before, (step item before).1 ∈ (items.mapM step report).1 := by
  induction items generalizing report with
  | nil => cases h
  | cons first rest ih =>
      rw [List.mapM_cons]
      rcases List.mem_cons.1 h with rfl | h
      · exact ⟨report, List.mem_cons_self⟩
      · obtain ⟨before, hbefore⟩ := ih h (step first report).2
        exact ⟨before, List.mem_cons_of_mem _ hbefore⟩

end Compile

namespace Compiler

variable {compiler : Compiler} {space : Namespace} {binding : ClassBinding}

/-- A compiled class has the type name and the parent of a declared one; what else there is among
the classes are interfaces, which have no parents. -/
theorem of_mem_classes (h : binding ∈ (compiler.run space).bindings.classes) :
    ∃ decl ∈ space.declarations,
      decl.typeName? (space.qualify decl.name) = some binding.typeName ∧
      ((∃ cls ∈ space.classes, decl = .cls cls ∧
          binding.parent = cls.parent.map (Schema.qualify space.name)) ∨
        binding.parent = none) := by
  rcases mem_classes h with ⟨cls, hcls, hof⟩ | ⟨interface, hinterface, before, rfl⟩
  · refine ⟨.cls cls, by simp [Namespace.declarations, hcls], ?_, .inl ⟨cls, hcls, rfl, hof.parent⟩⟩
    rw [hof.typeName, hof.name]
    rfl
  · exact ⟨.interface interface, by simp [Namespace.declarations, hinterface], rfl, .inr rfl⟩

theorem exists_mem_classes {cls : ObjectClass} (h : cls ∈ space.classes) :
    ∃ binding ∈ (compiler.run space).bindings.classes,
      binding.typeName = runtimeTypeName cls.typeName cls.cType (space.qualify cls.name) ∧
      binding.parent = cls.parent.map (Schema.qualify space.name) := by
  have hmade : ∃ before, (compiler.compileClass space cls before).1 ∈
      (space.classes.mapM (compiler.compileClass space)
        (compiler.callables space none space.functions {}).2).1 :=
    Compile.exists_mem_mapM h _
  obtain ⟨before, hmem⟩ := hmade
  have hof : compiler.ClassOf space cls _ := classOf_compileClass cls before
  exact ⟨_, List.mem_append_left _ hmem, hof.name ▸ hof.typeName, hof.parent⟩

theorem typeName_of_mem_records {record : RecordBinding}
    (h : record ∈ (compiler.run space).bindings.records) :
    ∃ decl ∈ space.declarations,
      decl.typeName? (space.qualify decl.name) = some record.typeName := by
  obtain ⟨source, hsource, hof⟩ := exists_recordOf h
  rw [hof.typeName, hof.name]
  rcases List.mem_append.1 hsource with hmem | hmem
  · exact ⟨.record source, by simp [Namespace.declarations, hmem], rfl⟩
  · exact ⟨.union source, by simp [Namespace.declarations, hmem], rfl⟩

end Compiler

end Interop
