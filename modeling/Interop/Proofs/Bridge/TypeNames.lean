import Interop.Proofs.Bridge.Ancestry

/-! # Type names of compiled namespaces

What a compiled namespace registers has the type names that the namespace declares, each at most
once. So if no type name is declared twice, no two namespaces register classes of one type name.
-/

namespace Interop

open Schema

namespace Schema

/-- The names under which the types of a namespace are known at run time. -/
def Namespace.typeNames (space : Namespace) : List String :=
  space.declarations.filterMap fun decl => decl.typeName? (space.qualify decl.name)

theorem Repository.typeNames_eq (repo : Repository) :
    repo.typeNames = repo.spaces.flatMap (·.typeNames) := by
  simp only [typeNames, declared, List.filterMap_flatMap, List.filterMap_map]
  rfl

end Schema

namespace Compile

variable {α β γ : Type} {items : List α}

theorem mapM_cons (step : α → Compile β) (item : α) (rest : List α) (report : CompileReport) :
    ((item :: rest).mapM step report).1 =
      (step item report).1 :: (rest.mapM step (step item report).2).1 := by
  rw [List.mapM_cons]
  rfl

/-- What does not depend on the reports is the same for all that a list of steps gives. -/
theorem map_mapM {step : α → Compile β} {f : β → γ} {g : α → γ}
    (h : ∀ item report, f (step item report).1 = g item) (report : CompileReport) :
    (items.mapM step report).1.map f = items.map g := by
  induction items generalizing report with
  | nil => rfl
  | cons item rest ih => rw [mapM_cons, List.map_cons, List.map_cons, h, ih]

theorem sublist_mapM {step : α → Compile (Option β)} {f : β → γ} {g : α → γ}
    (h : ∀ item report b, (step item report).1 = some b → f b = g item) (report : CompileReport) :
    List.Sublist (((items.mapM step report).1.filterMap id).map f) (items.map g) := by
  induction items generalizing report with
  | nil => exact .slnil
  | cons item rest ih =>
      rw [mapM_cons, List.map_cons]
      have hrest := ih (step item report).2
      cases hfirst : (step item report).1 with
      | none => exact hrest.cons _
      | some b =>
          simp only [List.filterMap_cons, id_eq, List.map_cons, h item report b hfirst]
          exact hrest.cons_cons _

end Compile

namespace Compiler

variable (compiler : Compiler) (space : Namespace)

theorem typeNames_classes :
    (compiler.run space).bindings.classes.map (·.typeName) =
      (space.classes.map fun cls =>
        runtimeTypeName cls.typeName cls.cType (space.qualify cls.name)) ++
      space.interfaces.map fun interface =>
        runtimeTypeName interface.typeName interface.cType (space.qualify interface.name) := by
  refine List.map_append.trans (congrArg₂ _ (Compile.map_mapM ?_ _) (Compile.map_mapM ?_ _))
  · exact fun cls report =>
      have hof := compiler.classOf_compileClass cls report
      hof.name ▸ hof.typeName
  · exact fun _ _ => rfl

theorem sublist_typeNames_records :
    List.Sublist ((compiler.run space).bindings.records.map (·.typeName))
      ((space.records ++ space.unions).map fun record =>
        runtimeTypeName record.typeName record.cType (space.qualify record.name)) := by
  refine Compile.sublist_mapM (fun record report binding hbinding => ?_) _
  have hof := recordOf_of_compileRecord hbinding
  exact hof.name ▸ hof.typeName

/-- What a compiled namespace registers is among what is declared, in the same order. -/
theorem sublist_typeNames_nativeClasses :
    List.Sublist ((compiler.run space).bindings.nativeClasses.map (·.typeName)) space.typeNames := by
  have hclasses := typeNames_classes compiler space
  have hrecords := sublist_typeNames_records compiler space
  have hdeclared : space.typeNames =
      ((space.classes.map fun cls =>
          runtimeTypeName cls.typeName cls.cType (space.qualify cls.name)) ++
        space.interfaces.map fun interface =>
          runtimeTypeName interface.typeName interface.cType (space.qualify interface.name)) ++
      (space.records ++ space.unions).map fun record =>
        runtimeTypeName record.typeName record.cType (space.qualify record.name) := by
    simp [Namespace.typeNames, Namespace.declarations, List.filterMap_map,
      Declaration.typeName?, Declaration.name]
  rw [hdeclared, ← hclasses, NamespaceBinding.nativeClasses, List.map_append, List.map_map,
    List.map_map]
  exact List.Sublist.append (.refl _) hrecords

end Compiler

namespace Bridge

variable {H : Host} {env : Env H} {name other : String} {space space' : NamespaceBinding}

/-- A compiled namespace does not declare a type name twice. -/
theorem nodup_typeNames (hnames : (repo env).typeNames.Nodup)
    (hcompiled : env.compiler.namespace? name = .ok space) :
    (space.nativeClasses.map (·.typeName)).Nodup := by
  obtain ⟨source, _, hsource, rfl⟩ := Compiler.of_namespace?_eq_ok hcompiled
  rw [Repository.typeNames_eq, List.nodup_flatMap] at hnames
  exact (hnames.1 source hsource).sublist
    (env.compiler.sublist_typeNames_nativeClasses source)

/-- No two namespaces declare the same type name. -/
theorem disjoint_typeNames (hnames : (repo env).typeNames.Nodup)
    (hcompiled : env.compiler.namespace? name = .ok space)
    (hother : env.compiler.namespace? other = .ok space') (hne : name ≠ other) :
    (space.nativeClasses.map (·.typeName)).Disjoint
      (space'.nativeClasses.map (·.typeName)) := by
  have hname := Compiler.name_of_namespace?_eq_ok hcompiled
  have hname' := Compiler.name_of_namespace?_eq_ok hother
  obtain ⟨source, _, hsource, rfl⟩ := Compiler.of_namespace?_eq_ok hcompiled
  obtain ⟨source', _, hsource', rfl⟩ := Compiler.of_namespace?_eq_ok hother
  have hapart : source ≠ source' := by
    rintro rfl
    exact hne (hname.symm.trans hname')
  rw [Repository.typeNames_eq, List.nodup_flatMap] at hnames
  have : Std.Symm (Function.onFun List.Disjoint Namespace.typeNames) :=
    ⟨fun _ _ h _ hmem hmem' => h hmem' hmem⟩
  have hdisjoint := hnames.2.forall hsource hsource' hapart
  intro typeName hmem hmem'
  exact hdisjoint ((env.compiler.sublist_typeNames_nativeClasses source).subset hmem)
    ((env.compiler.sublist_typeNames_nativeClasses source').subset hmem')

/-- Different namespaces never register classes of one type name. -/
theorem nodup_typeNames_flatMap (hnames : (repo env).typeNames.Nodup)
    {entries : List (String × NamespaceBinding)}
    (hcompiled : ∀ entry ∈ entries, env.compiler.namespace? entry.1 = .ok entry.2)
    (hdistinct : (entries.map Prod.fst).Nodup) :
    ((entries.flatMap (·.2.nativeClasses)).map (·.typeName)).Nodup := by
  rw [List.map_flatMap, List.nodup_flatMap]
  refine ⟨fun entry hentry => nodup_typeNames hnames (hcompiled entry hentry), ?_⟩
  refine (List.pairwise_map.1 hdistinct).imp_of_mem fun hentry hother hne => ?_
  exact disjoint_typeNames hnames (hcompiled _ hentry) (hcompiled _ hother) hne

/-- Classes of different type names have different hashes. -/
theorem nodup_hashes_flatMap (hnames : (repo env).typeNames.Nodup)
    (hhash : Set.InjOn TypeHash.ofName {n | n ∈ (repo env).typeNames})
    {entries : List (String × NamespaceBinding)}
    (hcompiled : ∀ entry ∈ entries, env.compiler.namespace? entry.1 = .ok entry.2)
    (hdistinct : (entries.map Prod.fst).Nodup) :
    ((entries.flatMap (·.2.nativeClasses)).map (·.hash)).Nodup := by
  have hdeclared : ∀ native ∈ entries.flatMap (·.2.nativeClasses),
      native.hash = .ofName native.typeName ∧ native.typeName ∈ (repo env).typeNames := by
    intro native hnative
    obtain ⟨entry, hentry, hnative⟩ := List.mem_flatMap.1 hnative
    exact of_mem_nativeClasses (hcompiled entry hentry) hnative
  have hnodup := nodup_typeNames_flatMap hnames hcompiled hdistinct
  refine List.Nodup.map_on (fun native hnative other hother hsame => ?_) (hnodup.of_map _)
  obtain ⟨hhashed, hname⟩ := hdeclared native hnative
  obtain ⟨hhashed', hname'⟩ := hdeclared other hother
  refine List.inj_on_of_nodup_map hnodup hnative hother (hhash hname hname' ?_)
  rw [← hhashed, ← hhashed', hsame]

end Bridge

end Interop
