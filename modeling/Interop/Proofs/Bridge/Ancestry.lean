import Mathlib.Data.Set.Function
import Interop.Proofs.Bridge.Links
import Interop.Proofs.Bridge.Registered
import Interop.Proofs.Schema.Lineage

/-! # Parents of registered classes

A namespace is registered before the namespaces that the parents of its classes are declared in, so
namespaces may depend on each other. In the end every class that a class of the namespace descends
from can be wrapped, and the hierarchy leads from each of them to the next.
-/

namespace Interop

open Schema Relation Steps

variable {H : Host}

namespace Bridge

/-- A class gets the parent that the schema has for it, and no other class gets another one. -/
theorem parents_linkClass (schema : Repository) (cls : ClassBinding) (hierarchy : Hierarchy) :
    (linkClass schema cls hierarchy).parents =
      match cls.parent with
      | some parent => (cls.typeName, schemaTypeName schema parent) ::
          hierarchy.parents.filter fun entry => entry.1 != cls.typeName
      | none => hierarchy.parents := by
  rw [linkClass_eq, linkedParents]
  cases cls.parent <;> rfl

/-- What is in the tables comes from declarations. -/
structure Declares (schema : Repository) (bridge : Bridge H) : Prop where
  named : ∀ native ∈ bridge.registry.classes.classes,
    native.hash = .ofName native.typeName ∧ native.typeName ∈ schema.typeNames
  linked : ∀ entry ∈ bridge.hierarchy.parents, ∃ (cls : schema.Class) (parent : String),
    cls.parent? = some parent ∧ entry = (cls.typeName, schemaTypeName schema parent)

/-- Natives can be wrapped as the class, and it has a parent if it is to have one. -/
structure Enters (bridge : Bridge H) (cls : ClassBinding) : Prop where
  native : ∃ native ∈ bridge.registry.classes.classes, native.typeName = cls.typeName
  child : cls.parent.isSome = true → cls.typeName ∈ bridge.hierarchy.parents.map Prod.fst

def HasNamespace (bridge : Bridge H) (name : String) : Prop :=
  name ∈ bridge.namespaces.map Prod.fst

/-- A namespace is complete once its classes are in the tables and the namespaces that it depends
on are registered. Those need not be complete yet. -/
structure Completes (bridge : Bridge H) (space : NamespaceBinding) : Prop where
  enters : ∀ cls ∈ space.classes, bridge.Enters cls
  registered : ∀ name ∈ dependencies space, bridge.HasNamespace name

/-- Nothing is taken out of tables, and what comes in comes from declarations. -/
structure Grows (schema : Repository) (bridge bridge' : Bridge H) : Prop where
  declares : bridge.Declares schema → bridge'.Declares schema
  natives : ∀ native ∈ bridge.registry.classes.classes,
    native ∈ bridge'.registry.classes.classes
  children : ∀ name ∈ bridge.hierarchy.parents.map Prod.fst,
    name ∈ bridge'.hierarchy.parents.map Prod.fst
  namespaces : ∀ entry ∈ bridge.namespaces, entry ∈ bridge'.namespaces

variable {env : Env H} {schema : Repository} {bridge bridge' bridge'' : Bridge H} {name : String}
  {space : NamespaceBinding} {cls : ClassBinding}

/-! ## Growing tables -/

theorem grows_refl (schema : Repository) (bridge : Bridge H) : Grows schema bridge bridge :=
  ⟨id, fun _ h => h, fun _ h => h, fun _ h => h⟩

theorem Grows.trans (h : Grows schema bridge bridge') (h' : Grows schema bridge' bridge'') :
    Grows schema bridge bridge'' where
  declares hdeclares := h'.declares (h.declares hdeclares)
  natives native hnative := h'.natives native (h.natives native hnative)
  children name hname := h'.children name (h.children name hname)
  namespaces entry hentry := h'.namespaces entry (h.namespaces entry hentry)

theorem Grows.of_run (h : ReflTransGen (Grows schema) bridge bridge') :
    Grows schema bridge bridge' := by
  induction h with
  | refl => exact grows_refl schema bridge
  | tail _ hstep ih => exact ih.trans hstep

theorem Grows.enters (h : Grows schema bridge bridge') (henters : bridge.Enters cls) :
    bridge'.Enters cls := by
  obtain ⟨native, hnative, hname⟩ := henters.native
  exact ⟨⟨native, h.natives native hnative, hname⟩,
    fun hparent => h.children _ (henters.child hparent)⟩

theorem Grows.registered (h : Grows schema bridge bridge')
    (hregistered : bridge.HasNamespace name) : bridge'.HasNamespace name := by
  obtain ⟨entry, hentry, rfl⟩ := List.mem_map.1 hregistered
  exact List.mem_map_of_mem (h.namespaces entry hentry)

theorem Grows.completes (h : Grows schema bridge bridge') (hcompletes : bridge.Completes space) :
    bridge'.Completes space :=
  ⟨fun cls hcls => h.enters (hcompletes.enters cls hcls),
    fun name hname => h.registered (hcompletes.registered name hname)⟩

/-- A compiled namespace has classes of declared types. -/
theorem of_mem_nativeClasses (hcompiled : env.compiler.namespace? name = .ok space)
    {native : NativeClass} (h : native ∈ space.nativeClasses) :
    native.hash = .ofName native.typeName ∧ native.typeName ∈ (repo env).typeNames := by
  obtain ⟨source, _, hsource, rfl⟩ := Compiler.of_namespace?_eq_ok hcompiled
  rcases List.mem_append.1 h with h | h
  · obtain ⟨cls, hcls, rfl⟩ := List.mem_map.1 h
    obtain ⟨decl, hdecl, htype, _⟩ := Compiler.of_mem_classes hcls
    exact ⟨rfl, Repository.mem_typeNames hsource hdecl htype⟩
  · obtain ⟨record, hrecord, rfl⟩ := List.mem_map.1 h
    obtain ⟨decl, hdecl, htype⟩ := Compiler.typeName_of_mem_records hrecord
    exact ⟨rfl, Repository.mem_typeNames hsource hdecl htype⟩

/-- The parent that a compiled class is linked to is the one of a declared class. -/
theorem exists_class_of_parent (hcompiled : env.compiler.namespace? name = .ok space)
    (hcls : cls ∈ space.classes) {parent : String} (hparent : cls.parent = some parent) :
    ∃ decl : (repo env).Class, decl.parent? = some parent ∧ decl.typeName = cls.typeName := by
  obtain ⟨source, _, hsource, rfl⟩ := Compiler.of_namespace?_eq_ok hcompiled
  obtain ⟨_, _, htype, ⟨decl, hdecl, rfl, hlineage⟩ | hnone⟩ := Compiler.of_mem_classes hcls
  · exact ⟨⟨source, decl, hsource, hdecl⟩, hlineage.symm.trans hparent, Option.some.inj htype⟩
  · rw [hparent] at hnone
    cases hnone

theorem grows_link (hcompiled : env.compiler.namespace? name = .ok space)
    (hcls : cls ∈ space.classes) (bridge : Bridge H) :
    Grows (repo env) bridge
      { bridge with hierarchy := linkClass (repo env) cls bridge.hierarchy } := by
  have hparents := parents_linkClass (repo env) cls bridge.hierarchy
  cases hparent : cls.parent with
  | none =>
      rw [hparent] at hparents
      dsimp only at hparents
      refine ⟨fun h => ⟨h.named, ?_⟩, fun _ h => h, ?_, fun _ h => h⟩
      · rw [hparents]
        exact h.linked
      · rw [hparents]
        exact fun _ h => h
  | some parent =>
      rw [hparent] at hparents
      dsimp only at hparents
      refine ⟨fun h => ⟨h.named, ?_⟩, fun _ h => h, ?_, fun _ h => h⟩
      · rw [hparents]
        intro entry hentry
        rcases List.mem_cons.1 hentry with rfl | hold
        · obtain ⟨decl, hdecl, htype⟩ := exists_class_of_parent hcompiled hcls hparent
          exact ⟨decl, parent, hdecl, by rw [htype]⟩
        · exact h.linked entry (List.mem_of_mem_filter hold)
      · rw [hparents]
        intro child hchild
        -- an entry that goes is one of the class, which has a new one
        by_cases hsame : child = cls.typeName
        · exact List.mem_map.2 ⟨_, List.mem_cons_self, hsame.symm⟩
        · obtain ⟨entry, hentry, rfl⟩ := List.mem_map.1 hchild
          exact List.mem_map_of_mem (List.mem_cons_of_mem _
            (List.mem_filter.2 ⟨hentry, by simpa using hsame⟩))

/-- Registering is a run of growing tables. -/
theorem registers_grows (env : Env H) : Registers env (Grows (repo env)) where
  registerClass {bridge _ _ _ _} hcompiled hcls h := by
    obtain ⟨classes, hclasses, rfl⟩ := Registry.of_registerClass_eq_ok h
    obtain ⟨_, hadded⟩ := ClassTable.of_register_eq_ok hclasses
    refine ⟨fun h => ⟨?_, h.linked⟩, ?_, fun _ h => h, fun _ h => h⟩
    · intro native hnative
      rw [hadded] at hnative
      rcases List.mem_append.1 hnative with hold | hnew
      · exact h.named native hold
      · obtain rfl := List.mem_singleton.1 hnew
        exact of_mem_nativeClasses hcompiled hcls
    · rw [hadded]
      exact fun native hnative => List.mem_append_left _ hnative
  link {bridge _ _ _} hcompiled hcls := grows_link hcompiled hcls bridge
  register _ :=
    ⟨fun h => ⟨h.named, h.linked⟩, fun _ h => h, fun _ h => h, fun _ h => List.mem_append_left _ h⟩
  other h := by
    refine ⟨fun hdeclares => ⟨?_, ?_⟩, ?_, ?_, ?_⟩
    · rw [h.registry]
      exact hdeclares.named
    · rw [h.hierarchy]
      exact hdeclares.linked
    · rw [h.registry]
      exact fun _ h => h
    · rw [h.hierarchy]
      exact fun _ h => h
    · rw [h.namespaces]
      exact fun _ h => h

/-! ## What registering a namespace enters -/

section Enters

variable (hhash : Set.InjOn TypeHash.ofName {n | n ∈ (repo env).typeNames})
include hhash

/-- Whether the class is new or not, the table has its type name. -/
theorem exists_native_of_registerNative (hcompiled : env.compiler.namespace? name = .ok space)
    {native : NativeClass} (hnative : native ∈ space.nativeClasses)
    (hdeclares : bridge.Declares (repo env)) {u : Unit}
    (h : registerNative native bridge = .ok u bridge') :
    ∃ found ∈ bridge'.registry.classes.classes, found.typeName = native.typeName := by
  have hcase := registerNative_cases native bridge
  rw [h] at hcase
  cases hcase with
  | new => exact ⟨native, List.mem_append_right _ List.mem_cons_self, rfl⟩
  | known _ hknown =>
      obtain ⟨found, hfound⟩ := Option.isSome_iff_exists.1 hknown
      obtain ⟨hfoundHash, hfoundName⟩ := hdeclares.named found (List.mem_of_find?_eq_some hfound)
      obtain ⟨hnativeHash, hnativeName⟩ := of_mem_nativeClasses hcompiled hnative
      have hsame := List.find?_some hfound
      rw [beq_iff_eq, hfoundHash, hnativeHash] at hsame
      exact ⟨found, List.mem_of_find?_eq_some hfound, hhash hfoundName hnativeName hsame⟩

/-- Once the types of a namespace are registered, all its classes are in the tables, and the
namespace is the only new one. -/
theorem of_registerTypes_eq_ok (hcompiled : env.compiler.namespace? name = .ok space)
    (hdeclares : bridge.Declares (repo env)) {u : Unit}
    (h : registerTypes env space bridge = .ok u bridge') :
    (∀ cls ∈ space.classes, bridge'.Enters cls) ∧
      bridge'.namespaces = bridge.namespaces ++ [(name, space)] := by
  obtain rfl := Compiler.name_of_namespace?_eq_ok hcompiled
  have hgrows : Enlists env (Grows (repo env)) := (registers_grows env).toEnlists
  have hkeeps : Enlists env fun bridge bridge' : Bridge H =>
      bridge'.namespaces = bridge.namespaces := ⟨fun _ _ _ => rfl, fun _ _ => rfl⟩
  obtain ⟨_, middle, hclasses, h⟩ := of_bind_eq_ok h
  obtain ⟨_, last, hrecords, h⟩ := of_bind_eq_ok h
  have hrest := Grows.of_run ((hgrows.within_registerRecords hcompiled).of_eq_ok hrecords)
  have hmiddle := same_of_run _ ((hkeeps.within_enterClasses hcompiled).of_eq_ok hclasses)
  have hlast := same_of_run _ ((hkeeps.within_registerRecords hcompiled).of_eq_ok hrecords)
  have hpublished : Grows (repo env) last
      { last with namespaces := last.namespaces ++ [(space.name, space)] } :=
    (registers_grows env).register hcompiled
  cases h
  refine ⟨fun cls hcls => hpublished.enters ?_, ?_⟩
  swap
  · rw [← hmiddle, ← hlast]
  -- the class is entered at its turn, and what comes behind it only adds to the tables
  have hturns : ∀ cls ∈ space.classes, Within (Grows (repo env))
      (enterClass env space.library cls) := fun cls hcls => hgrows.within_enterClass hcompiled hcls
  obtain ⟨before, behind, hbefore, hturn, hbehind⟩ := exists_of_forM_eq_ok hturns hclasses hcls
  obtain ⟨_, listed, hnative, hlink⟩ := of_bind_eq_ok hturn
  have hdeclared := (Grows.of_run hbefore).declares hdeclares
  obtain ⟨found, hfound, hname⟩ := exists_native_of_registerNative hhash hcompiled
    (mem_nativeClasses hcls) hdeclared hnative
  cases hlink
  have henters : Enters { listed with hierarchy := linkClass (repo env) cls listed.hierarchy }
      cls := by
    refine ⟨⟨found, hfound, hname⟩, fun hparent => ?_⟩
    obtain ⟨parent, hparent⟩ := Option.isSome_iff_exists.1 hparent
    rw [parents_linkClass, hparent]
    exact List.mem_cons_self
  exact hrest.enters ((Grows.of_run hbehind).enters henters)

/-! ## Following dependencies -/

/-- The namespaces that have come in are complete. -/
def Fills (env : Env H) (bridge bridge' : Bridge H) : Prop :=
  ∀ entry ∈ bridge'.namespaces, entry ∈ bridge.namespaces ∨
    env.compiler.namespace? entry.1 = .ok entry.2 ∧ bridge'.Completes entry.2

omit hhash in
theorem Fills.trans (h : Fills env bridge bridge') (h' : Fills env bridge' bridge'')
    (hgrows : Grows (repo env) bridge' bridge'') : Fills env bridge bridge'' := by
  intro entry hentry
  rcases h' entry hentry with hmiddle | hnew
  · rcases h entry hmiddle with hold | ⟨hcompiled, hcompletes⟩
    · exact .inl hold
    · exact .inr ⟨hcompiled, hgrows.completes hcompletes⟩
  · exact .inr hnew

omit hhash in
/-- What holds of registering each of some namespaces holds of registering them in turn. -/
theorem fills_of_forM {depth : Nat} {names : List String} (hdeclares : bridge.Declares (repo env))
    (heach : ∀ (name : String) (space : NamespaceBinding) (before behind : Bridge H),
      before.Declares (repo env) → registerWithin env depth name before = .ok space behind →
        behind.HasNamespace name ∧ Fills env before behind) {u : Unit}
    (h : (names.forM fun name => discard (registerWithin env depth name)) bridge =
      .ok u bridge') :
    (∀ name ∈ names, bridge'.HasNamespace name) ∧ Fills env bridge bridge' := by
  have hgrows := registers_grows env
  induction names generalizing bridge with
  | nil =>
      cases h
      exact ⟨fun _ h => absurd h List.not_mem_nil, fun _ h => .inl h⟩
  | cons name rest ih =>
      obtain ⟨_, middle, hfirst, hrest⟩ := of_bind_eq_ok h
      obtain ⟨space, _, hwithin, hdone⟩ := of_bind_eq_ok hfirst
      cases hdone
      have hmiddle := Grows.of_run ((hgrows.enrols.within_registerWithin depth name).of_eq_ok hwithin)
      have hlast := Grows.of_run ((hgrows.enrols.within_dependencies depth rest).of_eq_ok hrest)
      obtain ⟨hname, hfills⟩ := heach name space bridge middle hdeclares hwithin
      obtain ⟨hothers, hfilled⟩ := ih (hmiddle.declares hdeclares) hrest
      exact ⟨List.forall_mem_cons.2 ⟨hlast.registered hname, hothers⟩,
        hfills.trans hfilled hlast⟩

/-- By induction on how deep dependencies are followed. A namespace that is found registered need
not be complete yet, but it is not one that has come in since. -/
theorem fills_of_registerWithin {depth : Nat} (hdeclares : bridge.Declares (repo env))
    (h : registerWithin env depth name bridge = .ok space bridge') :
    bridge'.HasNamespace name ∧ Fills env bridge bridge' := by
  induction depth generalizing name space bridge bridge' with
  | zero => cases h
  | succ depth ih =>
      rcases of_registerWithin_succ_eq_ok h with
        ⟨hfound, rfl⟩ | ⟨_, hcompiled, middle, htypes, hothers⟩
      · exact ⟨List.mem_map_of_mem (Lists.mem_of_lookup hfound), fun _ h => .inl h⟩
      have hgrows := registers_grows env
      have hmiddle := Grows.of_run
        ((hgrows.enrols.within_registerTypes hcompiled).of_eq_ok htypes)
      have hlast := Grows.of_run
        ((hgrows.enrols.within_dependencies depth (dependencies space)).of_eq_ok hothers)
      obtain ⟨henters, hnames⟩ := of_registerTypes_eq_ok hhash hcompiled hdeclares htypes
      obtain ⟨hregistered, hfills⟩ := fills_of_forM (hmiddle.declares hdeclares)
        (fun name space before behind => ih) hothers
      have hcompletes : bridge'.Completes space :=
        ⟨fun cls hcls => hlast.enters (henters cls hcls), hregistered⟩
      refine ⟨hlast.registered ?_, fun entry hentry => ?_⟩
      · rw [HasNamespace, hnames, List.map_append]
        exact List.mem_append_right _ List.mem_cons_self
      · rcases hfills entry hentry with hold | hnew
        · rw [hnames] at hold
          rcases List.mem_append.1 hold with hold | hself
          · exact .inl hold
          · obtain rfl := List.mem_singleton.1 hself
            exact .inr ⟨hcompiled, hcompletes⟩
        · exact .inr hnew

end Enters

/-! ## Classes and their ancestors -/

/-- Nothing has been registered. -/
structure Fresh (bridge : Bridge H) : Prop where
  natives : bridge.registry.classes.classes = []
  parents : bridge.hierarchy.parents = []
  namespaces : bridge.namespaces = []

theorem fresh_start (host : H.State) : (start host : Bridge H).Fresh := ⟨rfl, rfl, rfl⟩

theorem Fresh.declares (h : bridge.Fresh) (schema : Repository) : bridge.Declares schema := by
  refine ⟨?_, ?_⟩
  · rw [h.natives]
    exact fun _ h => absurd h List.not_mem_nil
  · rw [h.parents]
    exact fun _ h => absurd h List.not_mem_nil

/-- The hierarchy has the parent of a class that has been entered, and none if it has none. -/
theorem Declares.parent?_eq (hdeclares : bridge.Declares schema) (hnames : schema.typeNames.Nodup)
    (decl : schema.Class) (hchild : decl.parent?.isSome = true →
      decl.typeName ∈ bridge.hierarchy.parents.map Prod.fst) :
    bridge.hierarchy.parent? decl.typeName = decl.parent?.map (schemaTypeName schema) := by
  have hlinked : ∀ parent, bridge.hierarchy.parents.lookup decl.typeName = some parent →
      decl.parent?.map (schemaTypeName schema) = some parent := by
    intro parent hparent
    obtain ⟨other, qualified, hqualified, hentry⟩ :=
      hdeclares.linked _ (Lists.mem_of_lookup hparent)
    rw [Prod.mk.injEq] at hentry
    obtain ⟨htype, rfl⟩ := hentry
    obtain rfl := Repository.Class.eq_of_typeName_eq hnames htype
    rw [hqualified, Option.map_some]
  rw [Hierarchy.parent?]
  cases hlookup : bridge.hierarchy.parents.lookup decl.typeName with
  | some parent => exact (hlinked parent hlookup).symm
  | none =>
      cases hparent : decl.parent? with
      | none => rfl
      | some qualified =>
          obtain ⟨entry, hentry, htype⟩ :=
            List.mem_map.1 (hchild (Option.isSome_iff_exists.2 ⟨qualified, hparent⟩))
          have hmissed := List.lookup_eq_none_iff.1 hlookup entry hentry
          rw [htype] at hmissed
          simp at hmissed

/-- The table finds a class under its type name if it has one of that name. -/
theorem Declares.exists_get? (hdeclares : bridge.Declares schema)
    (hhash : Set.InjOn TypeHash.ofName {n | n ∈ schema.typeNames}) {typeName : String}
    (h : ∃ native ∈ bridge.registry.classes.classes, native.typeName = typeName) :
    ∃ native, bridge.registry.classes.get? typeName = some native ∧
      native.typeName = typeName := by
  obtain ⟨native, hnative, rfl⟩ := h
  obtain ⟨hnativeHash, hnativeName⟩ := hdeclares.named native hnative
  have hfound : (bridge.registry.classes.get? native.typeName).isSome = true := by
    rw [ClassTable.get?, ClassTable.findHash?, List.find?_isSome]
    exact ⟨native, hnative, by rw [hnativeHash, beq_self_eq_true]⟩
  obtain ⟨found, hfound⟩ := Option.isSome_iff_exists.1 hfound
  obtain ⟨hfoundHash, hfoundName⟩ := hdeclares.named found (List.mem_of_find?_eq_some hfound)
  have hsame := List.find?_some hfound
  rw [beq_iff_eq, hfoundHash] at hsame
  exact ⟨found, hfound, hhash hfoundName hnativeName hsame⟩

/-- The compiled namespace of a declared class has the class. -/
theorem exists_binding_of_class (hspaces : ((repo env).spaces.map (·.name)).Nodup)
    (decl : (repo env).Class) (hcompiled : env.compiler.namespace? decl.space.name = .ok space) :
    ∃ cls ∈ space.classes, cls.typeName = decl.typeName ∧ cls.parent = decl.parent? := by
  obtain ⟨source, hsource, _, rfl⟩ := Compiler.of_namespace?_eq_ok hcompiled
  have hfind : (repo env).space? decl.space.name = some decl.space :=
    find?_of_mem hspaces decl.space_mem
  obtain rfl := Option.some.inj (hsource.symm.trans hfind)
  exact Compiler.exists_mem_classes decl.decl_mem

/-- Whatever class a class of a registered namespace descends from, through whichever namespaces,
natives can be wrapped as it, and the hierarchy leads from it to its parent. -/
theorem lineage_of_registerNamespace (hspaces : ((repo env).spaces.map (·.name)).Nodup)
    (hdotless : ∀ space ∈ (repo env).spaces, '.' ∉ space.name.toList)
    (hdistinct : (repo env).Distinct) (hnames : (repo env).typeNames.Nodup)
    (hhash : Set.InjOn TypeHash.ofName {n | n ∈ (repo env).typeNames}) (hfresh : bridge.Fresh)
    (h : registerNamespace env name bridge = .ok space bridge') {first last : (repo env).Class}
    (hfirst : first.space.name = name)
    (hlineage : ReflTransGen Repository.Class.Extends first last) :
    (∃ native, bridge'.registry.classes.get? last.typeName = some native ∧
        native.typeName = last.typeName) ∧
      bridge'.hierarchy.parent? last.typeName =
        last.parent?.map (schemaTypeName (repo env)) ∧
      ∀ parent, last.Extends parent →
        bridge'.hierarchy.parent? last.typeName = some parent.typeName := by
  have hdeclares := hfresh.declares (repo env)
  have hgrows := Grows.of_run (((registers_grows env).enrols.within_registerWithin _ name).of_eq_ok h)
  obtain ⟨hregistered, hfills⟩ := fills_of_registerWithin hhash hdeclares h
  have hcomplete : ∀ {name : String}, bridge'.HasNamespace name → ∃ space,
      env.compiler.namespace? name = .ok space ∧ bridge'.Completes space := by
    intro name hname
    obtain ⟨entry, hentry, rfl⟩ := List.mem_map.1 hname
    rcases hfills entry hentry with hold | hnew
    · rw [hfresh.namespaces] at hold
      cases hold
    · exact ⟨entry.2, hnew⟩
  -- the namespace of every ancestor is registered: it is that of the one before, or one of its
  -- dependencies
  have hreached : bridge'.HasNamespace last.space.name := by
    induction hlineage with
    | refl => exact hfirst ▸ hregistered
    | @tail cls parent _ hextends ih =>
        obtain ⟨space, hcompiled, hcompletes⟩ := hcomplete ih
        obtain ⟨binding, hbinding, _, hparent⟩ := exists_binding_of_class hspaces cls hcompiled
        rcases hextends.space_eq cls hdotless with hsame | hsplit
        · exact hsame ▸ ih
        · by_cases hown : parent.space.name = space.name
          · rw [hown, Compiler.name_of_namespace?_eq_ok hcompiled]
            exact ih
          · refine hcompletes.registered _ ?_
            refine List.mem_filterMap.2 ⟨parent.qualified, ?_, ?_⟩
            · exact List.mem_filterMap.2 ⟨binding, hbinding, hparent.trans hextends⟩
            · rw [hsplit]
              simpa using hown
  obtain ⟨space, hcompiled, hcompletes⟩ := hcomplete hreached
  obtain ⟨binding, hbinding, htype, hparent⟩ := exists_binding_of_class hspaces last hcompiled
  have henters := hcompletes.enters binding hbinding
  have hdeclared := hgrows.declares hdeclares
  have hlinked := hdeclared.parent?_eq hnames last (by
    rw [← htype, ← hparent]
    exact henters.child)
  refine ⟨hdeclared.exists_get? hhash (htype ▸ henters.native), hlinked, fun parent hextends => ?_⟩
  rw [hlinked, hextends, Option.map_some, parent.schemaTypeName_qualified hdistinct]

theorem injOn_of_nodup_map (h : (schema.typeNames.map TypeHash.ofName).Nodup) :
    Set.InjOn TypeHash.ofName {n | n ∈ schema.typeNames} :=
  fun _ ha _ hb => List.inj_on_of_nodup_map h ha hb

/-- Two namespaces that need each other: a widget of the one descends from a class of the other,
whose parent is a class of the first again. -/
def looped : Repository := .ofSpaces [
  { name := "N"
    classes := [
      { name := "Root", typeName := some "NRoot" },
      { name := "Widget", typeName := some "NWidget", parent := some "M.Base" }] },
  { name := "M"
    classes := [{ name := "Base", cType := some "MBase", parent := some "N.Root" }] }]

theorem looped_lineage :
    let bridge := ending (registerNamespace (silentEnv looped) "N" (start ()))
    (∃ native, bridge.registry.classes.get? "MBase" = some native ∧ native.typeName = "MBase") ∧
      bridge.hierarchy.parent? "MBase" = some "NRoot" := by
  intro bridge
  let widget : looped.Class := ⟨_, _, List.mem_cons_self, List.mem_cons_of_mem _ List.mem_cons_self⟩
  let base : looped.Class :=
    ⟨_, _, List.mem_cons_of_mem _ List.mem_cons_self, List.mem_cons_self⟩
  let root : looped.Class := ⟨_, _, List.mem_cons_self, List.mem_cons_self⟩
  have hspaces : (looped.spaces.map (·.name)).Nodup := by decide +kernel
  have hdotless : ∀ space ∈ looped.spaces, '.' ∉ space.name.toList := by decide +kernel
  have hdistinct : looped.Distinct := by
    unfold Repository.Distinct
    decide +kernel
  have hnames : looped.typeNames.Nodup := by decide +kernel
  have hhash : (looped.typeNames.map TypeHash.ofName).Nodup := by decide +kernel
  have hregistered : (value? (registerNamespace (silentEnv looped) "N" (start ()))).isSome =
      true := by decide +kernel
  have hlineage : ReflTransGen Repository.Class.Extends widget base :=
    .single (by decide +kernel)
  have hok := eq_ok_of_isSome default hregistered
  obtain ⟨hnative, _, hparent⟩ :=
    @lineage_of_registerNamespace _ (silentEnv looped) (start ()) bridge "N" _ hspaces hdotless
      hdistinct hnames (injOn_of_nodup_map hhash) (@fresh_start silent ()) hok widget base rfl
      hlineage
  have hroot : base.Extends root := by decide +kernel
  exact ⟨hnative, hparent root hroot⟩

end Bridge

end Interop
