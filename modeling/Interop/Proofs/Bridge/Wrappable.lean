import Interop.Proofs.Bridge.FindingCalls

/-! # What can be wrapped as a declared type

In a repository whose names are proper, a handle can be wrapped as any class, interface, record or
union once its namespace can be registered, whatever users of the bridge have done before. Neither
fields, elements nor calls fail since a class is missing.
-/

namespace Interop

open Schema Relation Steps

variable {H : Host} {α : Type}

namespace Bridge

variable {env : Env H} {bridge after : Bridge H} {handle : Handle} {id : WrapperId}
  {qualified : String}

/-! ## Users -/

section Users

variable (horderly : env.Orderly)
include horderly

theorem Arises.act (h : Arises env bridge) (action : Action) :
    Arises env (action.perform env bridge) := by
  -- about the states no names need be proper
  cases action with
  | make qualified =>
      have hends : Finds env False (allocRecord env qualified) :=
        finds_allocRecord horderly qualified
      exact (hends bridge h).ending
  | element base qualified index =>
      have hends := finds_element horderly False.elim base qualified index
      exact (hends bridge h).ending
  | read inst owner name =>
      have hends := finds_readField horderly False.elim inst owner name
      exact (hends bridge h).ending
  | write inst owner name value =>
      have hends : Finds env False (writeField env inst owner name value) := by
        rw [writeField_eq]
        exact (finds_fieldOf env owner name).bind fun field =>
          finds_of_within (horderly.governs.works.within_writeTo inst owner name value field)
      exact (hends bridge h).ending
  | drop values => exact h.drop horderly values

/-- What users of a bridge do leads from a state of the program to another one. -/
theorem Arises.perform (h : Arises env bridge) (command : Command H) :
    Arises env (command.perform env bridge) := by
  cases command with
  | register space => exact h.trans (.single (.register bridge space))
  | wrap handle target ownership =>
      exact h.trans (horderly.governs.serves.within_wrap handle target ownership bridge)
  | callback fn captured =>
      exact h.trans (horderly.governs.command (.callback fn captured) bridge)
  | keep value => exact h.retain horderly value
  | fields action => exact h.act horderly action
  | function space name values =>
      exact (finds_callFunction horderly False.elim space name values bridge h).ending
  | method owner name receiver values =>
      exact (finds_callMethod horderly False.elim owner name receiver values bridge h).ending
  | construct owner name values =>
      exact (finds_construct horderly False.elim owner name values bridge h).ending
  | start owner name receiver values =>
      exact (finds_startMethod horderly False.elim owner name receiver values bridge h).ending
  | outcome operation receiver =>
      exact (finds_outcome? horderly False.elim False.elim receiver bridge h).ending
  | close operation => exact h.closeCompletion horderly operation.completion
  | invoke id args =>
      have hrun := horderly.governs.leads_invokeCallback id args bridge
      rw [invokeCallback_bare] at hrun
      exact h.trans hrun

/-- Every state that users of a bridge get to is one of the program. -/
theorem arises_foldl_perform (host : H.State) (commands : List (Command H)) :
    Arises env (commands.foldl (Command.perform env) (start host)) := by
  have hruns (bridge : Bridge H) (h : Arises env bridge) :
      Arises env (commands.foldl (Command.perform env) bridge) := by
    induction commands generalizing bridge with
    | nil => exact h
    | cons command rest ih => exact ih _ (h.perform horderly command)
  exact hruns _ (arises_start env host)

end Users

/-! ## Wrappers of declared types -/

/-- What a handle is wrapped as is a wrapper of it, also once what was not needed is given back. -/
theorem Arises.wraps_of_wrap_eq_ok (horderly : env.Orderly) (h : Arises env bridge)
    {target : Option String} {ownership : Ownership}
    (hok : wrap env handle target ownership bridge = .ok (.object id handle) after) :
    after.registry.Wraps id handle := by
  unfold wrap wrapRaw at hok
  rcases hwrap : bridge.registry.wrap bridge.introspection handle target ownership with
    ⟨result, registry⟩
  rw [hwrap] at hok
  cases result with
  | error error => cases hok
  | ok wrapped =>
      cases hid : wrapped.id with
      | none =>
          dsimp only at hok
          rw [hid] at hok
          cases hok
      | some found =>
          have hwraps := h.attained.filed.wraps_of_wrap hwrap hid
          dsimp only at hok
          rw [hid] at hok
          cases hok
          have hsettled := horderly.governs.serves.settle wrapped.release { bridge with registry }
          exact wraps_of_run (changes_of_run hsettled) hwraps

/-- A handle is wrapped as a declared type if the namespace of the type can be registered. -/
theorem Arises.exists_wrapAs_eq_ok (horderly : env.Orderly) (hnames : (repo env).WellNamed)
    (harises : Arises env bridge) {space : Namespace} (hspace : space ∈ (repo env).spaces)
    {decl : Declaration} (hdecl : decl ∈ space.declarations) (hmembers : decl.hasMembers = true)
    (hnamed : decl.name ≠ "") {binding : NamespaceBinding} {registered : Bridge H}
    (hregistered : registerNamespace env space.name bridge = .ok binding registered)
    (hnull : handle.isNull = false) (ownership : Ownership) :
    ∃ id after,
      wrapAs env handle (space.qualify decl.name) ownership bridge = .ok (.object id handle) after ∧
        after.registry.Wraps id handle := by
  have hsplit := hnames.splitQualified_eq hspace hnamed
  have hof : namespaceOf env (space.qualify decl.name) bridge = .ok binding registered := by
    unfold namespaceOf
    rw [hsplit]
    exact hregistered
  have hbehind : Arises env registered := by
    have hrun : ReflTransGen (Advance env) bridge
        (ending (registerNamespace env space.name bridge)) := .single (.register bridge space.name)
    rw [hregistered] at hrun
    exact harises.trans hrun
  rcases wrapAs_cases hnull env (space.qualify decl.name) ownership bridge with
    ⟨id, after, hok⟩ | ⟨hunwrappable, _⟩
  · refine ⟨id, after, hok, ?_⟩
    obtain ⟨_, middle, hspace, hwrap⟩ := of_bind_eq_ok hok
    obtain ⟨_, _, hsame, hdone⟩ := of_bind_eq_ok hspace
    cases hdone
    rw [hof] at hsame
    cases hsame
    exact hbehind.wraps_of_wrap_eq_ok horderly hwrap
  -- classes of registered namespaces are in the table, so nothing can be missing
  · cases hunwrappable with
    | unregistered h =>
        rw [hof] at h
        cases h
    | classless h hclass =>
        rw [hof] at h
        cases h
        obtain ⟨_, hname, hcompiled, hfound⟩ :=
          of_namespaceOf_eq_ok harises.attained.reachable.valid hof
        have hinstances : (repo env).HasInstances (space.qualify decl.name) :=
          ⟨_, hnames.distinct.resolveQualified? hspace hdecl, hmembers⟩
        obtain ⟨cls, hcls⟩ :=
          hbehind.stocked.exists_get? hnames hinstances hname hcompiled hfound
        rw [hcls] at hclass
        cases hclass

/-! ## Missing classes -/

/-- The step fails since a handle is to be wrapped as a class that is not registered. -/
def Misses (step : Run H α) (bridge : Bridge H) : Prop :=
  ∃ name after, step bridge = .error (.identity (.unknownClass name)) after

theorem not_misses_of_finds {step : Run H α} (h : Finds env True step)
    (harises : Arises env bridge) : ¬ Misses step bridge := by
  rintro ⟨name, after, hmisses⟩
  have hends := h bridge harises
  rw [hmisses] at hends
  exact absurd (hends.2 trivial) Bool.true_eq_false.mp

/-- No class is missing where records are made, fields and elements are read and functions are
called. -/
structure MissesNone (env : Env H) (bridge : Bridge H) : Prop where
  record (qualified : String) : ¬ Misses (allocRecord env qualified) bridge
  field (owner : Value) (type name : String) : ¬ Misses (readField env owner type name) bridge
  element (base : Value) (qualified : String) (index : Nat) :
    ¬ Misses (element env base qualified index) bridge
  function (space name : String) (values : List Value) :
    ¬ Misses (callFunction env space name values) bridge
  method (owner name : String) (receiver : Option Value) (values : List Value) :
    ¬ Misses (callMethod env owner name receiver values) bridge
  construct (owner name : String) (values : List Value) :
    ¬ Misses (construct env owner name values) bridge
  start (owner name : String) (receiver : Option Value) (values : List Value) :
    ¬ Misses (startMethod env owner name receiver values) bridge
  outcome {name : String} {space : NamespaceBinding} {cls : ClassBinding} {operation : Operation}
    (hcompiled : env.compiler.namespace? name = .ok space) (hcls : cls ∈ space.classes)
    (hoperation : operation.plan ∈ cls.asyncMethods) (receiver : Option Value) :
    ¬ Misses (outcome? env operation receiver) bridge
  /-- The same goes for plans that are built apart from namespaces. -/
  plan {builder : CallBuilder} {callable : Callable} {owner : Option Owner} {plan : CallPlan}
    {usage usage' : Usage} (hrepo : builder.mapper.platform.repo = repo env)
    (hbuilt : builder.build callable owner usage = .ok plan usage') (receiver : Option Value)
    (values : List Value) : ¬ Misses (invoke env plan receiver values) bridge

theorem Arises.missesNone (horderly : env.Orderly) (hnames : (repo env).WellNamed)
    (h : Arises env bridge) : bridge.MissesNone env := by
  have hproper : True → (repo env).WellNamed := fun _ => hnames
  constructor
  case record => exact fun _ => not_misses_of_finds (finds_allocRecord horderly _) h
  case field => exact fun _ _ _ => not_misses_of_finds (finds_readField horderly hproper _ _ _) h
  case element => exact fun _ _ _ => not_misses_of_finds (finds_element horderly hproper _ _ _) h
  case function =>
    exact fun _ _ _ => not_misses_of_finds (finds_callFunction horderly hproper _ _ _) h
  case method =>
    exact fun _ _ _ _ => not_misses_of_finds (finds_callMethod horderly hproper _ _ _ _) h
  case construct =>
    exact fun _ _ _ => not_misses_of_finds (finds_construct horderly hproper _ _ _) h
  case start =>
    exact fun _ _ _ _ => not_misses_of_finds (finds_startMethod horderly hproper _ _ _ _) h
  case outcome =>
    intro name space cls operation hcompiled hcls hoperation receiver
    obtain ⟨source, _, _, rfl⟩ := Compiler.of_namespace?_eq_ok hcompiled
    have hdeclared := (Compiler.declared_of_mem_asyncMethods hcls hoperation).2
    exact not_misses_of_finds (finds_outcome? horderly hproper (fun _ => hdeclared) receiver) h
  case plan =>
    intro builder callable owner plan usage usage' hrepo hbuilt receiver values
    have hdeclared := hrepo ▸ CallPlan.declared_of_build hbuilt
    exact not_misses_of_finds (finds_invoke horderly hproper (fun _ => hdeclared) receiver values) h

/-- Wherever users of a bridge have got to, everything that a repository with proper names declares
as a type with instances can be wrapped as, unless its namespace cannot be registered or it has no
name of its own. -/
theorem wrappable_of_arises (horderly : env.Orderly) (hnames : (repo env).WellNamed)
    (harises : Arises env bridge) :
    (∀ space ∈ (repo env).spaces, ∀ decl ∈ space.declarations,
      decl.hasMembers = true → decl.name ≠ "" →
      ∀ (binding : NamespaceBinding) (registered : Bridge H),
        registerNamespace env space.name bridge = .ok binding registered →
      ∀ handle : Handle, handle.isNull = false → ∀ ownership, ∃ id after,
        wrapAs env handle (space.qualify decl.name) ownership bridge =
            .ok (.object id handle) after ∧
          after.registry.Wraps id handle) ∧
    bridge.MissesNone env :=
  ⟨fun _ hspace _ hdecl hmembers hnamed _ _ hregistered _ hnull ownership =>
    harises.exists_wrapAs_eq_ok horderly hnames hspace hdecl hmembers hnamed hregistered hnull
      ownership,
    harises.missesNone horderly hnames⟩

theorem orderly_silentEnv (repo : Repository) : (silentEnv repo).Orderly :=
  ⟨nofun, nofun, nofun⟩

/-- Types of every kind that can have instances. The second namespace depends on the first. -/
def parts : Repository := .ofSpaces [
  { name := "M"
    libraries := ["libm.so"]
    classes := [{ name := "Base" }] },
  { name := "N"
    libraries := ["libn.so"]
    classes := [{ name := "Widget", parent := some "M.Base" }]
    interfaces := [{ name := "Shape" }]
    records := [{ name := "Point", fields := [.shown "x" (.named "gint")] }]
    unions := [{ name := "Any", kind := .union }] }]

/-- Only the second namespace has been asked for. -/
def partsReached : Bridge silent :=
  [Command.register "N"].foldl (Command.perform (silentEnv parts)) (start ())

theorem wellNamed_parts : parts.WellNamed where
  spaces := by decide +kernel
  named := by decide +kernel
  dotless := by decide +kernel
  distinct := by
    unfold Repository.Distinct
    decide +kernel

theorem parts_wrapped : (silentEnv parts).Orderly ∧ (repo (silentEnv parts)).WellNamed ∧
    Arises (silentEnv parts) partsReached ∧
    ∀ space ∈ parts.spaces, ∀ decl ∈ space.declarations, ∃ id after,
      wrapAs (silentEnv parts) (.ofNat 0x1000) (space.qualify decl.name) .full partsReached =
        .ok (.object id (.ofNat 0x1000)) after ∧ after.registry.Wraps id (.ofNat 0x1000) := by
  have horderly := orderly_silentEnv parts
  have hnames : (repo (silentEnv parts)).WellNamed := wellNamed_parts
  have harises : Arises (silentEnv parts) partsReached :=
    arises_foldl_perform horderly () [.register "N"]
  have hdeclared : ∀ space ∈ parts.spaces, ∀ decl ∈ space.declarations,
      decl.hasMembers = true ∧ decl.name ≠ "" := by decide +kernel
  have hregisters : ∀ space ∈ parts.spaces,
      (value? (registerNamespace (silentEnv parts) space.name partsReached)).isSome = true := by
    decide +kernel
  refine ⟨horderly, hnames, harises, fun space hspace decl hdecl => ?_⟩
  obtain ⟨hmembers, hnamed⟩ := hdeclared space hspace decl hdecl
  exact (wrappable_of_arises horderly hnames harises).1 space hspace decl hdecl hmembers hnamed _ _
    (eq_ok_of_isSome default (hregisters space hspace)) _ (by decide) .full

/-- A class without a name of its own. -/
def nameless : Repository := .ofSpaces [{
  name := "N"
  libraries := ["libn.so"]
  classes := [{ name := "", typeName := some "NThing" }] }]

/-- Its namespace is registered, and the class with it, but its full name names no namespace. -/
theorem nameless_refused : nameless.WellNamed ∧ Arises (silentEnv nameless) (start ()) ∧
    (∃ space ∈ nameless.spaces, ∃ decl ∈ space.declarations, decl.hasMembers = true ∧
      space.name = "N" ∧ space.qualify decl.name = "N.") ∧
    (∃ binding registered,
      registerNamespace (silentEnv nameless) "N" (start ()) = .ok binding registered ∧
        (registered.registry.classes.get? "NThing").isSome = true) ∧
    (Handle.ofNat 0x1000).isNull = false ∧
    ∀ ownership, wrapAs (silentEnv nameless) (.ofNat 0x1000) "N." ownership (start ()) =
      .error (.marshal (.unknownType "N.")) (start ()) := by
  have hnames : nameless.WellNamed := {
    spaces := by decide +kernel
    named := by decide +kernel
    dotless := by decide +kernel
    distinct := by
      unfold Repository.Distinct
      decide +kernel }
  have hregisters :
      (value? (registerNamespace (silentEnv nameless) "N" (start ()))).isSome = true := by
    decide +kernel
  have hsplit : (splitQualified "N.").1 = none := by decide +kernel
  refine ⟨hnames, arises_start (silentEnv nameless) (), ?_, ?_, by decide, fun ownership => ?_⟩
  · exact ⟨_, List.mem_singleton.2 rfl, _, List.mem_singleton.2 rfl, by decide +kernel⟩
  · exact ⟨_, _, eq_ok_of_isSome default hregisters, by decide +kernel⟩
  · unfold wrapAs namespaceOf
    rw [hsplit]
    rfl

end Bridge

end Interop
