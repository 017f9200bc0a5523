import Interop.Bindings.Compile
import Interop.Proofs.Layout.Memo
import Interop.Proofs.Schema.FullNames

/-! # What is in a compiled namespace

Every record and every class of a compiled namespace comes from a declaration of that namespace,
and every field from a field of it. What a step has reported before makes no difference to what it
compiles, so these facts hold after any report.
-/

namespace Interop

open Schema

namespace Compile

variable {α β : Type}

/-- What a list of steps gives is given by one of the steps. -/
theorem mem_mapM {step : α → Compile β} {items : List α} {report : CompileReport} {result : β}
    (h : result ∈ (items.mapM step report).1) :
    ∃ item ∈ items, ∃ before, (step item before).1 = result := by
  -- every step is taken after another report
  induction items generalizing report with
  | nil => exact absurd h List.not_mem_nil
  | cons item rest ih =>
      rw [List.mapM_cons] at h
      rcases List.mem_cons.1 h with rfl | h
      · exact ⟨item, List.mem_cons_self, report, rfl⟩
      · obtain ⟨found, hfound, before, hresult⟩ := ih h
        exact ⟨found, List.mem_cons_of_mem item hfound, before, hresult⟩

/-- An item that is not left out has been mapped. -/
theorem orSkip_eq_some {owner : Option String} {name : String} {step : Mapping α}
    {report : CompileReport} {value : α} (h : (orSkip owner name step report).1 = some value) :
    ∃ usage, step {} = .ok value usage := by
  rw [orSkip, Mapping.finish, EStateM.run] at h
  cases hstep : step {} with
  | ok found usage =>
      rw [hstep] at h
      obtain rfl : found = value := Option.some.inj h
      exact ⟨usage, rfl⟩
  | error failure usage =>
      rw [hstep] at h
      cases failure with
      | refused error =>
          have hnone : none = some value := h
          cases hnone
      | overflow callback =>
          have hnone : none = some value := h
          cases hnone

end Compile

namespace Compiler

variable {compiler : Compiler} {space : Namespace}

/-- What is compiled to the end is what a run leaves. -/
theorem of_compile_eq_ok {compilation : Compilation}
    (h : compiler.compile space = .ok compilation) :
    (compiler.run space).overflow = none ∧ compilation = compiler.run space := by
  rw [compile] at h
  split at h
  next => cases h
  next hnone => exact ⟨hnone, (Except.ok.inj h).symm⟩

theorem of_namespace?_eq_ok {name : String} {bindings : NamespaceBinding}
    (h : compiler.namespace? name = .ok bindings) :
    ∃ space, compiler.platform.repo.space? name = some space ∧
      space ∈ compiler.platform.repo.spaces ∧ bindings = (compiler.run space).bindings := by
  rw [namespace?] at h
  cases hspace : compiler.platform.repo.space? name with
  | none =>
      rw [hspace] at h
      cases h
  | some space =>
      rw [hspace] at h
      dsimp only at h
      cases hcompile : compiler.compile space with
      | error failure =>
          rw [hcompile] at h
          cases h
      | ok compilation =>
          rw [hcompile] at h
          cases h
          obtain ⟨_, rfl⟩ := of_compile_eq_ok hcompile
          exact ⟨space, rfl, List.mem_of_find?_eq_some hspace, rfl⟩

theorem name_of_namespace?_eq_ok {name : String} {bindings : NamespaceBinding}
    (h : compiler.namespace? name = .ok bindings) : bindings.name = name := by
  obtain ⟨space, hspace, _, rfl⟩ := of_namespace?_eq_ok h
  have hname := List.find?_some hspace
  exact eq_of_beq hname

/-- A compiled field lies where the shape says, and is described as its type is mapped. -/
theorem mem_fields {owner : String} {declared : List Field} {shape : RecordShape}
    {report : CompileReport} {binding : FieldBinding}
    (h : binding ∈ (compiler.fields space owner declared shape report).1) :
    ∃ field usage, binding.layout ∈ shape.fieldLayouts ∧
      declared.find? (·.name == binding.layout.field) = some field ∧
      (compiler.builder space).mapper.map .field field.type {} = .ok binding.descriptor usage ∧
      binding.inPlace = isStoredInField field.type binding.descriptor ∧
      binding.readable = field.readable ∧ binding.writable = field.writable := by
  obtain ⟨result, hresult, hbinding⟩ := List.mem_filterMap.1 h
  obtain ⟨layout, hlayout, before, hstep⟩ := Compile.mem_mapM hresult
  obtain rfl : result = some binding := hbinding
  cases hfind : declared.find? (·.name == layout.field) with
  | none =>
      rw [hfind] at hstep
      have hnone : none = some binding := hstep
      cases hnone
  | some field =>
      rw [hfind] at hstep
      obtain ⟨descriptor, hdescriptor, rfl⟩ := Option.map_eq_some_iff.1 hstep
      obtain ⟨usage, hmap⟩ := Compile.orSkip_eq_some hdescriptor
      exact ⟨field, usage, hlayout, hfind, hmap, rfl, rfl, rfl⟩

/-- What is compiled of the callables that a type declares, after some report. -/
def CallablesOf (compiler : Compiler) (space : Namespace) (declared : List Callable)
    (plans : List CallPlan) : Prop :=
  ∃ owner report, plans = (compiler.callables space owner declared report).1

/-- The binding is the one of a declared record or union. -/
structure RecordOf (compiler : Compiler) (space : Namespace) (source : Record)
    (binding : RecordBinding) : Prop where
  name : binding.name = space.qualify source.name
  typeName : binding.typeName = runtimeTypeName source.typeName source.cType binding.name
  shape : compiler.platform.recordShape? binding.name = some binding.shape
  fields : ∃ report,
    binding.fields = (compiler.fields space binding.name source.fields binding.shape report).1
  constructors : compiler.CallablesOf space source.constructors binding.constructors
  methods : compiler.CallablesOf space source.methods binding.methods
  functions : compiler.CallablesOf space source.functions binding.functions

/-- The binding is the one of a declared class. It has fields only if the class has a shape. -/
structure ClassOf (compiler : Compiler) (space : Namespace) (source : ObjectClass)
    (binding : ClassBinding) : Prop where
  name : binding.name = space.qualify source.name
  typeName : binding.typeName = runtimeTypeName source.typeName source.cType binding.name
  parent : binding.parent = source.parent.map (Schema.qualify space.name)
  fields : binding.fields ≠ [] → ∃ shape report,
    compiler.platform.recordShape? binding.name = some shape ∧
      binding.fields = (compiler.fields space binding.name source.fields shape report).1
  constructors : compiler.CallablesOf space source.constructors binding.constructors
  methods : compiler.CallablesOf space source.methods binding.methods
  functions : compiler.CallablesOf space source.functions binding.functions
  asyncMethods : binding.asyncMethods = asyncMethods source.methods binding.methods

theorem recordOf_of_compileRecord {source : Record} {report : CompileReport}
    {binding : RecordBinding} (h : (compiler.compileRecord space source report).1 = some binding) :
    compiler.RecordOf space source binding := by
  rw [compileRecord, Calculator.recordShape?_calculator] at h
  cases hshape : compiler.platform.recordShape? (space.qualify source.name) with
  | none =>
      rw [hshape] at h
      cases h
  | some shape =>
      rw [hshape] at h
      cases h
      exact ⟨rfl, rfl, hshape, ⟨_, rfl⟩, ⟨_, _, rfl⟩, ⟨_, _, rfl⟩, ⟨_, _, rfl⟩⟩

/-- A record that has a shape has a binding. -/
theorem exists_compileRecord_eq_some {source : Record} {shape : RecordShape}
    (hshape : compiler.platform.recordShape? (space.qualify source.name) = some shape)
    (report : CompileReport) :
    ∃ binding, (compiler.compileRecord space source report).1 = some binding := by
  rw [compileRecord, Calculator.recordShape?_calculator, hshape]
  exact ⟨_, rfl⟩

theorem classOf_compileClass (source : ObjectClass) (report : CompileReport) :
    compiler.ClassOf space source (compiler.compileClass space source report).1 := by
  rw [compileClass, Calculator.recordShape?_calculator]
  cases source.fields.isEmpty with
  | true =>
      exact ⟨rfl, rfl, rfl, absurd rfl, ⟨_, _, rfl⟩, ⟨_, _, rfl⟩, ⟨_, _, rfl⟩, rfl⟩
  | false =>
      cases hshape : compiler.platform.recordShape? (space.qualify source.name) with
      | none => exact ⟨rfl, rfl, rfl, absurd rfl, ⟨_, _, rfl⟩, ⟨_, _, rfl⟩, ⟨_, _, rfl⟩, rfl⟩
      | some shape =>
          exact ⟨rfl, rfl, rfl, fun _ => ⟨shape, _, hshape, rfl⟩, ⟨_, _, rfl⟩, ⟨_, _, rfl⟩,
            ⟨_, _, rfl⟩, rfl⟩

theorem exists_recordOf {record : RecordBinding}
    (h : record ∈ (compiler.run space).bindings.records) :
    ∃ source ∈ space.records ++ space.unions, compiler.RecordOf space source record := by
  obtain ⟨result, hresult, hrecord⟩ := List.mem_filterMap.1 h
  obtain ⟨source, hsource, before, hstep⟩ := Compile.mem_mapM hresult
  obtain rfl : result = some record := hrecord
  exact ⟨source, hsource, recordOf_of_compileRecord hstep⟩

/-- What is compiled as a class is the binding of a declared class, or that of an interface. -/
theorem mem_classes {cls : ClassBinding} (h : cls ∈ (compiler.run space).bindings.classes) :
    (∃ source ∈ space.classes, compiler.ClassOf space source cls) ∨
      ∃ source ∈ space.interfaces, ∃ report,
        (compiler.compileInterface space source report).1 = cls := by
  rcases List.mem_append.1 h with h | h
  · obtain ⟨source, hsource, before, rfl⟩ := Compile.mem_mapM h
    exact .inl ⟨source, hsource, classOf_compileClass source before⟩
  · exact .inr (Compile.mem_mapM h)

/-- The record that is found under a full name is compiled from a declaration of that name. -/
theorem of_record?_eq_some {name owner : String} {bindings : NamespaceBinding}
    {record : RecordBinding} (hcompiled : compiler.namespace? name = .ok bindings)
    (howner : (splitQualified owner).1 = some name) (h : bindings.record? owner = some record) :
    ∃ space ∈ compiler.platform.repo.spaces, ∃ source ∈ space.records ++ space.unions, ∃ report,
      owner = space.qualify source.name ∧
      compiler.platform.recordShape? owner = some record.shape ∧
      record.fields = (compiler.fields space owner source.fields record.shape report).1 := by
  obtain ⟨space, _, hspace, rfl⟩ := of_namespace?_eq_ok hcompiled
  obtain ⟨source, hsource, hrecord⟩ := exists_recordOf (List.mem_of_find?_eq_some h)
  obtain ⟨report, hfields⟩ := hrecord.fields
  have hfound : record.name = (compiler.run space).bindings.qualify owner :=
    eq_of_beq (by simpa using List.find?_some h)
  -- a name with a point in it is not qualified once more
  have hpoint : '.' ∈ owner.toList :=
    mem_of_isSome_splitQualified (Option.isSome_of_eq_some howner)
  rw [NamespaceBinding.qualify, if_pos (List.contains_iff_mem.2 hpoint)] at hfound
  subst hfound
  exact ⟨space, hspace, source, hsource, report, hrecord.name, hrecord.shape, hfields⟩

/-- A compiled class with fields has the name and the fields of a declared class. -/
theorem exists_classOf_of_fields {cls : ClassBinding}
    (h : cls ∈ (compiler.run space).bindings.classes) (hfields : cls.fields ≠ []) :
    ∃ source ∈ space.classes, compiler.ClassOf space source cls := by
  rcases mem_classes h with hclass | ⟨_, _, _, rfl⟩
  · exact hclass
  · exact absurd rfl hfields

end Compiler

end Interop
