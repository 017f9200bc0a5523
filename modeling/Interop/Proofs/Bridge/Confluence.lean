import Mathlib.Data.List.Flatten
import Interop.Proofs.Bridge.Retry
import Interop.Proofs.Bridge.TypeNames
import Interop.Proofs.Registry.Edits

/-! # Registering in any order

A registration only adds: one namespace after the other comes in, each behind the ones that are
there. Which ones come in depends on what is asked for and on what that needs, and what each of them
adds is its own. So the order in which namespaces are registered shows in the order of the tables
and in nothing that is looked up there.
-/

namespace Interop

open Schema Relation Steps

variable {H : Host}

/-- The order of names makes no difference once they are sorted. -/
theorem Hierarchy.sorted_eq_of_perm {names others : List String} (h : names.Perm others) :
    sorted names = sorted others := by
  refine List.Perm.eq_of_pairwise (fun _ _ _ _ => String.le_antisymm) (pairwise_sorted names)
    (pairwise_sorted others) ?_
  exact (List.mergeSort_perm names _).trans (h.trans (List.mergeSort_perm others _).symm)

namespace Bridge

/-! ## Linking in any order -/

section Linking

variable {schema : Repository} {classes others : List ClassBinding}

theorem sublist_linkedParents (schema : Repository) (classes : List ClassBinding) :
    List.Sublist ((classes.flatMap (linkedParents schema)).map Prod.fst)
      (classes.map (·.typeName)) := by
  induction classes with
  | nil => exact .slnil
  | cons cls rest ih =>
      rw [List.flatMap_cons, List.map_append, List.map_cons, linkedParents]
      cases cls.parent with
      | none => exact ih.cons _
      | some parent => exact ih.cons_cons _

/-- Classes of different type names are each linked to their own parents. -/
theorem parents_linkAll (hdistinct : (classes.map (·.typeName)).Nodup) :
    (linkAll schema classes {}).parents = (classes.flatMap (linkedParents schema)).reverse := by
  rw [linkAll_eq]
  exact ParentTable.replacing_of_nodup (hdistinct.sublist (sublist_linkedParents schema classes))

theorem parents_linkAll_perm (hperm : classes.Perm others)
    (hdistinct : (classes.map (·.typeName)).Nodup) :
    (linkAll schema classes {}).parents.Perm (linkAll schema others {}).parents := by
  rw [parents_linkAll hdistinct,
    parents_linkAll ((hperm.map _).nodup_iff.1 hdistinct)]
  exact (List.reverse_perm _).trans
    ((hperm.flatMap_right _).trans (List.reverse_perm _).symm)

theorem names_linkAll_perm (hperm : classes.Perm others) :
    (linkAll schema classes {}).names.Perm (linkAll schema others {}).names := by
  simp only [linkAll_eq]
  exact Lists.including_perm (hperm.flatMap_right _) List.nodup_nil

theorem interfaces_linkAll_perm (hperm : classes.Perm others) :
    (linkAll schema classes {}).interfaces.Perm (linkAll schema others {}).interfaces := by
  simp only [linkAll_eq]
  exact Lists.including_perm (hperm.flatMap_right _) List.nodup_nil

end Linking

variable {env : Env H} {Wanted : String → Prop} {bridge bridge' : Bridge H} {name : String}
  {space : NamespaceBinding}

/-! ## The types of a namespace whose classes are all new -/

/-- A class with a new hash comes in behind the others. -/
theorem classes_of_registerNative {native : NativeClass} {u : Unit}
    (h : registerNative native bridge = .ok u bridge')
    (hnew : native.hash ∉ bridge.registry.classes.classes.map (·.hash)) :
    bridge'.registry.classes.classes = bridge.registry.classes.classes ++ [native] := by
  have hcase := registerNative_cases native bridge
  rw [h] at hcase
  cases hcase with
  | new => rfl
  | known _ hknown =>
      obtain ⟨found, hfound, hsame⟩ := List.find?_isSome.1 hknown
      exact absurd (List.mem_map.2 ⟨found, hfound, eq_of_beq hsame⟩) hnew

theorem classes_of_enterClass {cls : ClassBinding} {library : String} {u : Unit}
    (h : enterClass env library cls bridge = .ok u bridge')
    (hnew : (cls.nativeClass library).hash ∉ bridge.registry.classes.classes.map (·.hash)) :
    bridge'.registry.classes.classes =
      bridge.registry.classes.classes ++ [cls.nativeClass library] := by
  obtain ⟨_, listed, hnative, hlink⟩ := of_bind_eq_ok h
  have hlisted := classes_of_registerNative hnative hnew
  cases hlink
  exact hlisted

/-- Steps that each register a class of their own register all of them, in order. -/
theorem classes_of_forM {α : Type} {step : α → Run H Unit} {native : α → NativeClass}
    (hstep : ∀ item before behind, step item before = .ok ⟨⟩ behind →
      (native item).hash ∉ before.registry.classes.classes.map (·.hash) →
        behind.registry.classes.classes = before.registry.classes.classes ++ [native item])
    {items : List α} {u : Unit} (h : items.forM step bridge = .ok u bridge')
    (hapart : ((bridge.registry.classes.classes ++ items.map native).map (·.hash)).Nodup) :
    bridge'.registry.classes.classes = bridge.registry.classes.classes ++ items.map native := by
  induction items generalizing bridge with
  | nil =>
      cases h
      exact (List.append_nil _).symm
  | cons item rest ih =>
      obtain ⟨_, middle, hfirst, hrest⟩ := of_bind_eq_ok h
      have hnew : (native item).hash ∉ bridge.registry.classes.classes.map (·.hash) := by
        intro hold
        rw [List.map_append, List.map_cons] at hapart
        exact (List.nodup_append.1 hapart).2.2 _ hold _ List.mem_cons_self rfl
      have hmiddle := hstep item bridge middle hfirst hnew
      have hsplit : bridge.registry.classes.classes ++ (item :: rest).map native =
          middle.registry.classes.classes ++ rest.map native := by
        rw [hmiddle, List.map_cons, List.append_assoc, List.singleton_append]
      rw [hsplit] at hapart ⊢
      exact ih hrest hapart

theorem classes_of_enterClasses {classes : List ClassBinding} {library : String} {u : Unit}
    (h : classes.forM (enterClass env library) bridge = .ok u bridge')
    (hapart : ((bridge.registry.classes.classes ++
      classes.map (·.nativeClass library)).map (·.hash)).Nodup) :
    bridge'.registry.classes.classes =
      bridge.registry.classes.classes ++ classes.map (·.nativeClass library) := by
  refine classes_of_forM (fun cls before behind hturn hnew => ?_) h hapart
  exact classes_of_enterClass hturn hnew

theorem classes_of_registerRecords {records : List RecordBinding} {library : String} {u : Unit}
    (h : (records.forM fun record => registerNative (record.nativeClass library)) bridge =
      .ok u bridge')
    (hapart : ((bridge.registry.classes.classes ++
      records.map (·.nativeClass library)).map (·.hash)).Nodup) :
    bridge'.registry.classes.classes =
      bridge.registry.classes.classes ++ records.map (·.nativeClass library) := by
  refine classes_of_forM (fun record before behind hturn hnew => ?_) h hapart
  exact classes_of_registerNative hturn hnew

/-- A namespace whose classes are all new adds them, links its own classes, and is there then. -/
theorem of_registerTypes_apart {u : Unit} (h : registerTypes env space bridge = .ok u bridge')
    (hapart : ((bridge.registry.classes.classes ++ space.nativeClasses).map (·.hash)).Nodup) :
    bridge'.registry.classes.classes = bridge.registry.classes.classes ++ space.nativeClasses ∧
      bridge'.hierarchy = linkAll (repo env) space.classes bridge.hierarchy ∧
      bridge'.namespaces = bridge.namespaces ++ [(space.name, space)] := by
  obtain ⟨_, middle, hclasses, h⟩ := of_bind_eq_ok h
  obtain ⟨_, last, hrecords, h⟩ := of_bind_eq_ok h
  rw [NamespaceBinding.nativeClasses, ← List.append_assoc] at hapart ⊢
  obtain ⟨_, hlinked, hkept, _⟩ := of_enterClasses_eq_ok hclasses
  obtain ⟨_, hsame, hkept', _⟩ := of_registerRecords_eq_ok hrecords
  have hentered := classes_of_enterClasses hclasses
    (hapart.sublist ((List.sublist_append_left _ _).map _))
  rw [← hentered] at hapart ⊢
  have hlisted := classes_of_registerRecords hrecords hapart
  cases h
  refine ⟨hlisted, hsame.trans hlinked, ?_⟩
  rw [← hkept, ← hkept']

/-! ## One namespace after the other -/

/-- A namespace needs the ones that the parents of its classes are declared in. -/
def Needs (env : Env H) (name other : String) : Prop :=
  ∃ space, env.compiler.namespace? name = .ok space ∧ other ∈ dependencies space

/-- A namespace that is wanted and was missing comes in with its types. -/
inductive Adds (env : Env H) (Wanted : String → Prop) (bridge bridge' : Bridge H) : Prop
  | add {name : String} {space : NamespaceBinding} (hwanted : Wanted name)
      (hcompiled : env.compiler.namespace? name = .ok space)
      (hmissing : bridge.namespace? name = none)
      (htypes : registerTypes env space bridge = .ok ⟨⟩ bridge')

/-- The tables hold what the registered namespaces declare, in the order of their registration, and
nothing else. -/
structure Reflects (env : Env H) (Wanted : String → Prop) (bridge : Bridge H) : Prop where
  wanted : ∀ entry ∈ bridge.namespaces, Wanted entry.1
  compiled : ∀ entry ∈ bridge.namespaces, env.compiler.namespace? entry.1 = .ok entry.2
  distinct : (bridge.namespaces.map Prod.fst).Nodup
  natives : bridge.registry.classes.classes = bridge.namespaces.flatMap (·.2.nativeClasses)
  hierarchy : bridge.hierarchy = linkAll (repo env) (bridge.namespaces.flatMap (·.2.classes)) {}

/-- Once all that is wanted is registered, the registered namespaces are the wanted ones as they are
compiled. -/
theorem Reflects.mem_namespaces_iff (h : bridge.Reflects env Wanted)
    (hall : ∀ name, Wanted name → bridge.HasNamespace name)
    {entry : String × NamespaceBinding} :
    entry ∈ bridge.namespaces ↔
      Wanted entry.1 ∧ env.compiler.namespace? entry.1 = .ok entry.2 := by
  constructor
  · exact fun hentry => ⟨h.wanted entry hentry, h.compiled entry hentry⟩
  · rintro ⟨hwanted, hcompiled⟩
    obtain ⟨other, hother, hkey⟩ := List.mem_map.1 (hall _ hwanted)
    have hsame := h.compiled other hother
    rw [hkey, hcompiled, Except.ok.injEq] at hsame
    obtain rfl : entry = other := Prod.ext hkey.symm hsame
    exact hother

theorem Reflects.namespace?_eq_some_iff (h : bridge.Reflects env Wanted)
    (hall : ∀ name, Wanted name → bridge.HasNamespace name) (name : String)
    (space : NamespaceBinding) :
    bridge.namespace? name = some space ↔
      Wanted name ∧ env.compiler.namespace? name = .ok space :=
  (lookup_eq_some_iff_mem h.distinct).trans (h.mem_namespaces_iff hall)

theorem reflects_start (env : Env H) (Wanted : String → Prop) (host : H.State) :
    (start host).Reflects env Wanted where
  wanted _ h := absurd h List.not_mem_nil
  compiled _ h := absurd h List.not_mem_nil
  distinct := List.nodup_nil
  natives := rfl
  hierarchy := rfl

theorem nodup_of_missing (hdistinct : (bridge.namespaces.map Prod.fst).Nodup)
    (hmissing : bridge.namespace? name = none) (space : NamespaceBinding) :
    ((bridge.namespaces ++ [(name, space)]).map Prod.fst).Nodup := by
  rw [List.map_append, List.nodup_append]
  refine ⟨hdistinct, by simp, fun key hkey other hother => ?_⟩
  obtain rfl := List.mem_singleton.1 hother
  obtain ⟨entry, hentry, rfl⟩ := List.mem_map.1 hkey
  have hmissed := List.lookup_eq_none_iff.1 hmissing entry hentry
  exact fun hsame => by simp [hsame] at hmissed

section Distinct

variable (hnames : (repo env).typeNames.Nodup)
  (hhash : Set.InjOn TypeHash.ofName {n | n ∈ (repo env).typeNames})
include hnames hhash

/-- A namespace that comes in finds the tables without any of its classes, and leaves them with all
of its classes behind the others. -/
theorem Reflects.of_adds (hreflects : bridge.Reflects env Wanted)
    (h : Adds env Wanted bridge bridge') : bridge'.Reflects env Wanted := by
  obtain @⟨name, space, hwanted, hcompiled, hmissing, htypes⟩ := h
  obtain rfl := Compiler.name_of_namespace?_eq_ok hcompiled
  have hwanteds : ∀ entry ∈ bridge.namespaces ++ [(space.name, space)], Wanted entry.1 :=
    List.forall_mem_append.2 ⟨hreflects.wanted, by simpa using hwanted⟩
  have hcompileds : ∀ entry ∈ bridge.namespaces ++ [(space.name, space)],
      env.compiler.namespace? entry.1 = .ok entry.2 :=
    List.forall_mem_append.2 ⟨hreflects.compiled, by simpa using hcompiled⟩
  have hdistinct := nodup_of_missing hreflects.distinct hmissing space
  have hsplit : (bridge.namespaces ++ [(space.name, space)]).flatMap (·.2.nativeClasses) =
      bridge.registry.classes.classes ++ space.nativeClasses := by
    rw [List.flatMap_append, ← hreflects.natives, List.flatMap_singleton]
  have hapart := nodup_hashes_flatMap hnames hhash hcompileds hdistinct
  rw [hsplit] at hapart
  obtain ⟨hnatives, hlinked, hnamespaces⟩ := of_registerTypes_apart htypes hapart
  rw [← hnamespaces] at hwanteds hcompileds hdistinct hsplit
  refine ⟨hwanteds, hcompileds, hdistinct, hnatives.trans hsplit.symm, ?_⟩
  rw [hlinked, hreflects.hierarchy, hnamespaces, List.flatMap_append, List.flatMap_singleton]
  exact List.foldl_append.symm

theorem Reflects.of_run (hreflects : bridge.Reflects env Wanted)
    (h : ReflTransGen (Adds env Wanted) bridge bridge') : bridge'.Reflects env Wanted := by
  induction h with
  | refl => exact hreflects
  | tail _ hadds ih => exact ih.of_adds hnames hhash hadds

end Distinct

/-- By induction on how deep dependencies are followed. -/
theorem run_of_registerWithin (hclosed : ∀ name other, Wanted name → Needs env name other →
    Wanted other) {depth : Nat} (hwanted : Wanted name)
    (h : registerWithin env depth name bridge = .ok space bridge') :
    ReflTransGen (Adds env Wanted) bridge bridge' := by
  induction depth generalizing name space bridge bridge' with
  | zero => cases h
  | succ depth ih =>
      rcases of_registerWithin_succ_eq_ok h with
        ⟨_, rfl⟩ | ⟨hnew, hcompiled, middle, htypes, hothers⟩
      · exact .refl
      refine .head (.add hwanted hcompiled hnew htypes) ?_
      refine run_of_forM_eq_ok (fun other hother before behind hturn => ?_) hothers
      obtain ⟨_, _, hwithin, hdone⟩ := of_bind_eq_ok hturn
      cases hdone
      exact ih (hclosed name other hwanted ⟨_, hcompiled, hother⟩) hwithin

/-- Registers namespaces one after the other. -/
def registerAll (env : Env H) (names : List String) : Run H Unit :=
  names.forM fun name => discard (registerNamespace env name)

/-- The namespaces that come in if some are asked for. -/
def Demanded (env : Env H) (names : List String) (name : String) : Prop :=
  ∃ first ∈ names, ReflTransGen (Needs env) first name

theorem run_of_registerAll {names : List String} {u : Unit}
    (h : registerAll env names bridge = .ok u bridge') :
    ReflTransGen (Adds env (Demanded env names)) bridge bridge' := by
  refine run_of_forM_eq_ok (fun name hname before behind hturn => ?_) h
  obtain ⟨_, _, hwithin, hdone⟩ := of_bind_eq_ok hturn
  cases hdone
  refine run_of_registerWithin ?_ ⟨name, hname, .refl⟩ hwithin
  rintro name other ⟨first, hfirst, hreached⟩ hneeds
  exact ⟨first, hfirst, hreached.tail hneeds⟩

/-- What is asked for is registered in the end, and so is what anything registered needs. -/
theorem hasNamespace_of_demanded
    (hhash : Set.InjOn TypeHash.ofName {n | n ∈ (repo env).typeNames}) {host : H.State}
    {names : List String} {u : Unit} (h : registerAll env names (start host) = .ok u bridge)
    (hdemanded : Demanded env names name) : bridge.HasNamespace name := by
  obtain ⟨hregistered, hfills⟩ := fills_of_forM ((fresh_start host).declares (repo env))
    (fun _ _ _ _ hdeclares hwithin => fills_of_registerWithin hhash hdeclares hwithin) h
  obtain ⟨first, hfirst, hneeds⟩ := hdemanded
  induction hneeds with
  | refl => exact hregistered first hfirst
  | @tail name other _ hneeds ih =>
      obtain ⟨space, hcompiled, hother⟩ := hneeds
      obtain ⟨entry, hentry, rfl⟩ := List.mem_map.1 ih
      rcases hfills entry hentry with hold | ⟨hsame, hcompletes⟩
      · cases hold
      · rw [hcompiled] at hsame
        cases hsame
        exact hcompletes.registered other hother

/-! ## Two orders -/

/-- The tables differ in the order of their entries at most. -/
structure Alike (bridge bridge' : Bridge H) : Prop where
  namespaces : bridge.namespaces.Perm bridge'.namespaces
  natives : bridge.registry.classes.classes.Perm bridge'.registry.classes.classes
  names : bridge.hierarchy.names.Perm bridge'.hierarchy.names
  parents : bridge.hierarchy.parents.Perm bridge'.hierarchy.parents
  interfaces : bridge.hierarchy.interfaces.Perm bridge'.hierarchy.interfaces

/-- Whatever is looked up, both have the same. -/
structure Agree (bridge bridge' : Bridge H) : Prop where
  space? (name : String) : bridge.namespace? name = bridge'.namespace? name
  native? (typeName : String) :
    bridge.registry.classes.get? typeName = bridge'.registry.classes.get? typeName
  contains (typeName : String) :
    bridge.hierarchy.contains typeName = bridge'.hierarchy.contains typeName
  parent? (typeName : String) :
    bridge.hierarchy.parent? typeName = bridge'.hierarchy.parent? typeName
  interfaces (typeName : String) :
    bridge.hierarchy.interfacesOf typeName = bridge'.hierarchy.interfacesOf typeName

section Distinct

variable (hnames : (repo env).typeNames.Nodup)
  (hhash : Set.InjOn TypeHash.ofName {n | n ∈ (repo env).typeNames})
include hnames

theorem Reflects.nodup_typeNames_classes (h : bridge.Reflects env Wanted) :
    ((bridge.namespaces.flatMap (·.2.classes)).map (·.typeName)).Nodup := by
  have hnodup := nodup_typeNames_flatMap hnames h.compiled h.distinct
  refine hnodup.sublist ?_
  rw [List.map_flatMap, List.map_flatMap]
  refine List.Sublist.flatMap_right _ fun entry _ => ?_
  rw [NamespaceBinding.nativeClasses, List.map_append, List.map_map]
  exact List.sublist_append_left _ _

/-- The tables are determined by which namespaces are registered. -/
theorem Reflects.alike {Wanted' : String → Prop} (h : bridge.Reflects env Wanted)
    (h' : bridge'.Reflects env Wanted') (hall : ∀ name, Wanted name → bridge.HasNamespace name)
    (hall' : ∀ name, Wanted' name → bridge'.HasNamespace name)
    (hsame : ∀ name, Wanted name ↔ Wanted' name) : bridge.Alike bridge' := by
  have hspaces : bridge.namespaces.Perm bridge'.namespaces := by
    rw [List.perm_ext_iff_of_nodup (h.distinct.of_map _) (h'.distinct.of_map _)]
    intro entry
    rw [h.mem_namespaces_iff hall, h'.mem_namespaces_iff hall', hsame]
  have hclasses := hspaces.flatMap_right fun entry => entry.2.classes
  refine ⟨hspaces, ?_, ?_, ?_, ?_⟩
  · rw [h.natives, h'.natives]
    exact hspaces.flatMap_right _
  · rw [h.hierarchy, h'.hierarchy]
    exact names_linkAll_perm hclasses
  · rw [h.hierarchy, h'.hierarchy]
    exact parents_linkAll_perm hclasses (h.nodup_typeNames_classes hnames)
  · rw [h.hierarchy, h'.hierarchy]
    exact interfaces_linkAll_perm hclasses

include hhash

/-- Where no key stands twice, the order of entries is not seen when they are looked up. -/
theorem Reflects.agree (h : bridge.Reflects env Wanted) (halike : bridge.Alike bridge') :
    bridge.Agree bridge' where
  space? name := lookup_eq_of_perm h.distinct halike.namespaces name
  native? typeName := by
    refine find?_eq_of_perm halike.natives ?_ (TypeHash.ofName typeName)
    rw [h.natives]
    exact nodup_hashes_flatMap hnames hhash h.compiled h.distinct
  contains typeName := by
    rw [Hierarchy.contains, Hierarchy.contains, Bool.eq_iff_iff, List.contains_iff_mem,
      List.contains_iff_mem, halike.names.mem_iff]
  parent? typeName := by
    refine lookup_eq_of_perm ?_ halike.parents typeName
    have hdistinct := h.nodup_typeNames_classes hnames
    rw [h.hierarchy, parents_linkAll hdistinct, List.map_reverse, List.nodup_reverse]
    exact hdistinct.sublist (sublist_linkedParents _ _)
  interfaces typeName :=
    Hierarchy.sorted_eq_of_perm ((halike.interfaces.filter _).map _)

end Distinct

/-- Namespaces can be registered in any order, and some of them again. In the end there are those
that were asked for and what they need, as they are compiled, and the tables hold the same entries
and give the same answers. The layouts that compiling asks for are the same too, whatever the
calculator was asked before. -/
theorem registerAll_unordered (hnames : (repo env).typeNames.Nodup)
    (hhash : Set.InjOn TypeHash.ofName {n | n ∈ (repo env).typeNames}) {host host' : H.State}
    {names others : List String} (hsame : ∀ name, name ∈ names ↔ name ∈ others) {u u' : Unit}
    (h : registerAll env names (start host) = .ok u bridge)
    (h' : registerAll env others (start host') = .ok u' bridge') :
    (∀ name space, bridge.namespace? name = some space ↔
        Demanded env names name ∧ env.compiler.namespace? name = .ok space) ∧
      bridge.Alike bridge' ∧ bridge.Agree bridge' ∧
      ∀ (asked : List LayoutQuery) (query : LayoutQuery),
        ((env.compiler.platform.calculator.answers asked).2.answer query).1 =
          (env.compiler.platform.calculator.answer query).1 := by
  have hreflects := (reflects_start env _ host).of_run hnames hhash (run_of_registerAll h)
  have hreflects' := (reflects_start env _ host').of_run hnames hhash (run_of_registerAll h')
  have hall : ∀ name, Demanded env names name → bridge.HasNamespace name :=
    fun _ => hasNamespace_of_demanded hhash h
  have hall' : ∀ name, Demanded env others name → bridge'.HasNamespace name :=
    fun _ => hasNamespace_of_demanded hhash h'
  have halike := hreflects.alike hnames hreflects' hall hall' fun name => by
    simp only [Demanded, hsame]
  refine ⟨hreflects.namespace?_eq_some_iff hall, halike, hreflects.agree hnames hhash halike,
    fun asked query => ?_⟩
  have hfresh := Calculator.calculator_sound env.compiler.platform
  obtain ⟨_, hplatform, hsound⟩ := Calculator.answers_replies hfresh asked
  rw [(Calculator.answer_replies hsound query).1, (Calculator.answer_replies hfresh query).1,
    hplatform]

/-- Two namespaces that need each other come in in either order. -/
theorem looped_unordered :
    let bridge := ending (registerAll (silentEnv looped) ["N", "M"] (start ()))
    let bridge' := ending (registerAll (silentEnv looped) ["M", "N", "M"] (start ()))
    bridge.namespaces.map Prod.fst = ["N", "M"] ∧ bridge'.namespaces.map Prod.fst = ["M", "N"] ∧
      bridge.Alike bridge' ∧ bridge.Agree bridge' := by
  intro bridge bridge'
  have hnames : looped.typeNames.Nodup := by decide +kernel
  have hhash : (looped.typeNames.map TypeHash.ofName).Nodup := by decide +kernel
  have hfirst : (value? (registerAll (silentEnv looped) ["N", "M"] (start ()))).isSome = true := by
    decide +kernel
  have hsecond : (value? (registerAll (silentEnv looped) ["M", "N", "M"] (start ()))).isSome =
      true := by decide +kernel
  have hok := eq_ok_of_isSome ⟨⟩ hfirst
  have hok' := eq_ok_of_isSome ⟨⟩ hsecond
  have hsame : ∀ name, name ∈ ["N", "M"] ↔ name ∈ ["M", "N", "M"] := by simp [or_comm]
  obtain ⟨_, halike, hagree, _⟩ := @registerAll_unordered silent (silentEnv looped) bridge bridge'
    hnames (injOn_of_nodup_map hhash) () () _ _ hsame _ _ hok hok'
  refine ⟨?_, ?_, halike, hagree⟩
  · decide +kernel
  · decide +kernel

end Bridge

end Interop
