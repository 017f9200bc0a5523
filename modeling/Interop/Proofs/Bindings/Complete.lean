import Interop.Proofs.Bindings.Compiled
import Interop.Proofs.Bindings.Reports
import Interop.Proofs.Call.Arguments
import Interop.Proofs.Layout.Shape
import Interop.Proofs.Mapping.Endless
import Interop.Proofs.Schema.Distinct

/-! # Nothing is lost

In a repository with distinct names every namespace is compiled, unless it is lost as a whole. Each
of its types has its binding, and each function, method, constructor, signal and visible field has
its entry there, in order, or is reported as left out. Nothing else is reported. A namespace is lost
just if one of its wanted callables or signals takes a callback type that takes itself and is read
until the stack overflows.
-/

namespace Interop

open Schema

namespace Schema

/-- A type by its full name, with the members that everyone may see. -/
structure Members where
  name : String
  fields : List Field := []
  methods : List Callable := []
  constructors : List Callable := []
  functions : List Callable := []
  signals : List Signal := []
  deriving DecidableEq, Repr

def ObjectClass.members (space : Namespace) (cls : ObjectClass) : Members where
  name := space.qualify cls.name
  fields := cls.fields.filter (!·.hidden)
  methods := cls.methods
  constructors := cls.constructors
  functions := cls.functions
  signals := cls.signals

def Interface.members (space : Namespace) (interface : Interface) : Members where
  name := space.qualify interface.name
  methods := interface.methods
  functions := interface.functions
  signals := interface.signals

def Record.members (space : Namespace) (record : Record) : Members where
  name := space.qualify record.name
  fields := if record.isOpaque then [] else record.fields.filter (!·.hidden)
  methods := record.methods
  constructors := record.constructors
  functions := record.functions

/-- The types whose instances are objects. -/
def Namespace.objects (space : Namespace) : List Members :=
  space.classes.map (·.members space) ++ space.interfaces.map (·.members space)

/-- The types whose values are made of fields. -/
def Namespace.compounds (space : Namespace) : List Members :=
  (space.records ++ space.unions).map (·.members space)

def Declaration.hasMembers : Declaration → Bool
  | cls _ | interface _ | record _ | union _ => true
  | enum _ | flags _ | callback _ => false

end Schema

/-- The compiled members of a type. -/
structure MemberBindings where
  name : String
  fields : List FieldBinding
  methods : List CallPlan
  constructors : List CallPlan
  functions : List CallPlan
  signals : List SignalPlan

def ClassBinding.members (cls : ClassBinding) : MemberBindings where
  name := cls.name
  fields := cls.fields
  methods := cls.methods
  constructors := cls.constructors
  functions := cls.functions
  signals := cls.signals

def RecordBinding.members (record : RecordBinding) : MemberBindings where
  name := record.name
  fields := record.fields
  methods := record.methods
  constructors := record.constructors
  functions := record.functions
  signals := []

namespace CallBuilder

variable {builder : CallBuilder}

theorem name_of_build {callable : Callable} {owner : Option Owner} {plan : CallPlan}
    (h : (builder.build callable owner).Makes plan) : plan.name = callable.name := by
  obtain ⟨usage, h⟩ := h
  obtain ⟨_, _, _, hbuilt⟩ := exists_built_of_build h
  exact hbuilt.name_eq

theorem name_of_buildSignal {signal : Signal} {owner : Owner} {plan : SignalPlan}
    (h : (builder.buildSignal signal owner).Makes plan) : plan.name = signal.name := by
  obtain ⟨usage, h⟩ := h
  obtain ⟨_, _, _, h⟩ := Steps.of_bind_eq_ok h
  obtain ⟨_, _, _, h⟩ := Steps.of_bind_eq_ok h
  obtain ⟨_, _, _, h⟩ := Steps.of_bind_eq_ok h
  obtain ⟨_, _, _, h⟩ := Steps.of_bind_eq_ok h
  cases h
  rfl

/-- Types with members own them under their full names. -/
theorem exists_ownerOf? {qualified : String} {resolved : Resolved}
    (h : builder.mapper.platform.repo.resolveQualified? qualified = some resolved)
    (hmembers : resolved.decl.hasMembers = true) :
    ∃ owner, builder.ownerOf? qualified = some owner ∧ owner.qualified = qualified := by
  obtain ⟨space, decl⟩ := resolved
  rw [ownerOf?, h]
  cases decl with
  | cls | interface => exact ⟨_, rfl, rfl⟩
  | record record | union record =>
      dsimp only [bind, Option.bind]
      split <;> exact ⟨_, rfl, rfl⟩
  | enum | flags | callback => cases hmembers

end CallBuilder

namespace Compiler

section Outcomes

variable (compiler : Compiler) (space : Namespace)

/-- What becomes of a field of a type. Its mapping always ends. -/
def FieldGives (owner : String) (field : Field) : List FieldBinding → List Remark → Prop :=
  let step := (compiler.builder space).mapper.map .field field.type
  Outcome (some owner) field.name
    (fun binding => binding.layout.field = field.name ∧ step.Makes binding.descriptor) step.Fails
    fun _ => False

/-- The callable is wanted, and building it does not end. -/
def LosesCallable (owner : Option Owner) (callable : Callable) (callback : String) : Prop :=
  refusal? compiler.options callable = none ∧
    ((compiler.builder space).build callable owner).Overflows callback

/-- What becomes of a function, or of a method or a constructor of a type. -/
def CallableGives (owner : Option Owner) (callable : Callable) :
    List CallPlan → List Remark → Prop :=
  let step := (compiler.builder space).build callable owner
  Outcome (owner.map (·.qualified)) callable.name
    (fun plan => plan.name = callable.name ∧ refusal? compiler.options callable = none ∧
      step.Makes plan)
    (fun reason => refusal? compiler.options callable = some reason ∨
      refusal? compiler.options callable = none ∧ step.Fails reason)
    (compiler.LosesCallable space owner callable)

/-- What becomes of a signal of a type. -/
def SignalGives (owner : Owner) (signal : Signal) : List SignalPlan → List Remark → Prop :=
  let step := (compiler.builder space).buildSignal signal owner
  Outcome (some owner.qualified) signal.name
    (fun plan => plan.name = signal.name ∧ step.Makes plan) step.Fails step.Overflows

/-- A type gives one binding of its name, in which all its members are accounted for. -/
inductive TypeGives (declared : Members) : List MemberBindings → List Remark → Prop
  | intro {owner : Owner} {compiled : MemberBindings}
      {fields methods constructors functions signals : List Remark}
      (howner : (compiler.builder space).ownerOf? declared.name = some owner)
      (hqualified : owner.qualified = declared.name)
      (hname : compiled.name = declared.name)
      (hfields : Accounted (compiler.FieldGives space declared.name) declared.fields
        compiled.fields fields)
      (hmethods : Accounted (compiler.CallableGives space owner) declared.methods
        compiled.methods methods)
      (hconstructors : Accounted (compiler.CallableGives space owner) declared.constructors
        compiled.constructors constructors)
      (hfunctions : Accounted (compiler.CallableGives space owner) declared.functions
        compiled.functions functions)
      (hsignals : Accounted (compiler.SignalGives space owner) declared.signals
        compiled.signals signals) :
      TypeGives declared [compiled]
        (fields ++ (methods ++ (constructors ++ (functions ++ signals))))

/-- Everything that a namespace declares is accounted for, and no more is said of it. -/
def Gives (bindings : NamespaceBinding) (remarks : List Remark) : Prop :=
  ∃ functions objects compounds,
    Accounted (compiler.CallableGives space none) space.functions bindings.functions functions ∧
    Accounted (compiler.TypeGives space) space.objects (bindings.classes.map (·.members))
      objects ∧
    Accounted (compiler.TypeGives space) space.compounds (bindings.records.map (·.members))
      compounds ∧
    remarks = functions ++ objects ++ compounds

/-- Everything that a namespace declares is accounted for, and nothing else is reported. -/
def Accounts (bindings : NamespaceBinding) : Prop :=
  compiler.Gives space bindings (bindings.skipped.map .skipped)

/-- Building a wanted function of the namespace, or a wanted callable or a signal of one of its
types, does not end, and this is the callback type that is read without an end. -/
inductive Loses (callback : String) : Prop
  | function {callable : Callable} (hcallable : callable ∈ space.functions)
      (h : compiler.LosesCallable space none callable callback)
  | member {declared : Members} {owner : Owner} {callable : Callable}
      (hdeclared : declared ∈ space.objects ++ space.compounds)
      (howner : (compiler.builder space).ownerOf? declared.name = some owner)
      (hcallable : callable ∈ declared.methods ++ declared.constructors ++ declared.functions)
      (h : compiler.LosesCallable space owner callable callback)
  | signal {declared : Members} {owner : Owner} {signal : Signal}
      (hdeclared : declared ∈ space.objects ++ space.compounds)
      (howner : (compiler.builder space).ownerOf? declared.name = some owner)
      (hsignal : signal ∈ declared.signals)
      (h : ((compiler.builder space).buildSignal signal owner).Overflows callback)

end Outcomes

open Compile

variable {compiler : Compiler} {space : Namespace}

theorem reports_ownerOf? (compiler : Compiler) (space : Namespace) (qualified : String) :
    Reports (compiler.ownerOf? space qualified) fun owner remarks =>
      owner = (compiler.builder space).ownerOf? qualified ∧ remarks = [] := by
  unfold Compiler.ownerOf?
  dsimp only
  split
  next => exact (reports_useSize qualified).map (fun _ => _) fun _ _ hremarks => ⟨rfl, hremarks⟩
  next => exact reports_pure ⟨rfl, rfl⟩

theorem reports_callables (compiler : Compiler) (space : Namespace) (owner : Option Owner)
    (callables : List Callable) : Reports (compiler.callables space owner callables)
      (Accounted (compiler.CallableGives space owner) callables) := by
  refine reports_filterMap ?_ (List.forall₂_same.2 fun _ _ => rfl)
  rintro callable _ rfl
  cases hrefusal : refusal? compiler.options callable with
  | some reason =>
      refine (reports_skip ..).map (fun _ => none) fun _ remarks hremarks => ?_
      rw [hremarks]
      exact .skipped (.inl hrefusal)
  | none =>
      refine (reports_orSkip ..).imp fun result remarks h => ?_
      exact h.imp (fun plan hplan => ⟨CallBuilder.name_of_build hplan, hrefusal, hplan⟩)
        (fun reason hfails => .inr ⟨hrefusal, hfails⟩) (fun callback h => ⟨hrefusal, h⟩)

theorem reports_signals (compiler : Compiler) (space : Namespace) (owner : Owner)
    (signals : List Signal) :
    Reports (compiler.signals space (some owner) owner.qualified signals)
      (Accounted (compiler.SignalGives space owner) signals) := by
  refine reports_filterMap ?_ (List.forall₂_same.2 fun _ _ => rfl)
  rintro signal _ rfl
  refine (reports_orSkip ..).imp fun result remarks h => ?_
  exact h.imp (fun plan hplan => ⟨CallBuilder.name_of_buildSignal hplan, hplan⟩)
    (fun _ hfails => hfails) (fun _ h => h)

/-- The fields that have their layouts in a shape are accounted for. -/
theorem reports_fields {owner : String} {declared shown : List Field} {shape : RecordShape}
    (hnames : (declared.map (·.name)).Nodup)
    (hplaced : List.Forall₂ (fun field layout => field ∈ declared ∧ layout.field = field.name)
      shown shape.fieldLayouts) :
    Reports (compiler.fields space owner declared shape)
      (Accounted (compiler.FieldGives space owner) shown) := by
  refine reports_filterMap ?_ hplaced
  rintro field layout ⟨hmem, hname⟩
  rw [hname, find?_of_mem hnames hmem]
  refine (reports_orSkip ..).map _ fun result remarks h => ?_
  rw [Option.toList_map]
  have hends := h.imp (fun _ hmade => hmade) (fun _ hfails => hfails)
    fun callback ⟨usage, h⟩ =>
      (compiler.builder space).mapper.overflowsOnly_map (by decide) _ _ _ _ h
  exact hends.map _ fun descriptor hmade => ⟨hname, hmade⟩

/-- Compiling the members of a class behind its fields. -/
theorem reports_classMembers {cls : ObjectClass} {owner : Owner} {fields : List FieldBinding}
    {left : List Remark}
    {result : List CallPlan → List CallPlan → List CallPlan → List SignalPlan → ClassBinding}
    (howner : (compiler.builder space).ownerOf? (space.qualify cls.name) = some owner)
    (hqualified : owner.qualified = space.qualify cls.name)
    (hfields : Accounted (compiler.FieldGives space (space.qualify cls.name))
      (cls.members space).fields fields left)
    (hresult : ∀ methods constructors functions signals,
      (result methods constructors functions signals).members =
        ⟨space.qualify cls.name, fields, methods, constructors, functions, signals⟩) :
    Reports (do
        let methods ← compiler.callables space (some owner) cls.methods
        let constructors ← compiler.callables space (some owner) cls.constructors
        let functions ← compiler.callables space (some owner) cls.functions
        let signals ← compiler.signals space (some owner) (space.qualify cls.name) cls.signals
        return result methods constructors functions signals)
      fun binding remarks =>
        compiler.TypeGives space (cls.members space) [binding.members] (left ++ remarks) := by
  refine (reports_callables ..).bind fun methods _ hmethods => ?_
  refine (reports_callables ..).bind fun constructors _ hconstructors => ?_
  refine (reports_callables ..).bind fun functions _ hfunctions => ?_
  rw [← hqualified]
  refine (reports_signals ..).map _ fun signals _ hsignals => ?_
  rw [hresult]
  exact .intro howner hqualified rfl hfields hmethods hconstructors hfunctions hsignals

/-- A binding for each type accounts for all of them. -/
theorem reports_types {α β : Type} {step : α → Compile β} {members : α → Members}
    {view : β → List MemberBindings} {types : List α}
    (h : ∀ type ∈ types, Reports (step type) fun result =>
      compiler.TypeGives space (members type) (view result)) :
    Reports (types.mapM step) fun results =>
      Accounted (compiler.TypeGives space) (types.map members) (results.flatMap view) := by
  refine reports_mapM (R := fun declared type => declared = members type ∧ type ∈ types) view ?_ ?_
  · rintro _ type ⟨rfl, htype⟩
    exact h type htype
  · rw [List.forall₂_map_left_iff]
    exact List.forall₂_same.2 fun type htype => ⟨rfl, htype⟩

section Types

variable (hdistinct : compiler.platform.repo.Distinct)
  (hspace : space ∈ compiler.platform.repo.spaces)
include hdistinct hspace

theorem exists_owner (decl : Declaration) (hdecl : decl ∈ space.declarations)
    (hmembers : decl.hasMembers = true) :
    ∃ owner, (compiler.builder space).ownerOf? (space.qualify decl.name) = some owner ∧
      owner.qualified = space.qualify decl.name :=
  CallBuilder.exists_ownerOf? (hdistinct.resolveQualified? hspace hdecl) hmembers

theorem reports_compileClass {cls : ObjectClass} (hclass : cls ∈ space.classes)
    (hnames : (cls.fields.map (·.name)).Nodup) :
    Reports (compiler.compileClass space cls) fun binding =>
      compiler.TypeGives space (cls.members space) [binding.members] := by
  have hdecl : Declaration.cls cls ∈ space.declarations := by
    simp [Namespace.declarations, hclass]
  obtain ⟨owner, howner, hqualified⟩ := exists_owner hdistinct hspace _ hdecl rfl
  rw [Declaration.name] at howner hqualified
  unfold compileClass
  refine (reports_ownerOf? ..).bind ?_
  rintro _ _ ⟨rfl, rfl⟩
  simp only [pure_bind, howner, Calculator.recordShape?_calculator]
  split
  next hempty =>
    refine reports_classMembers howner hqualified ?_ fun _ _ _ _ => rfl
    rw [ObjectClass.members, List.isEmpty_iff.1 hempty]
    exact .nil
  next =>
    refine (reports_useSize _).bind ?_
    rintro _ _ rfl
    have hfind := hdistinct.find?_class hspace hclass
    obtain ⟨shape, hshape⟩ := Platform.exists_recordShape? hfind
    rw [hshape]
    refine (reports_fields hnames (Platform.forall₂_fieldLayouts hfind hshape)).bind
      fun fields left hfields => ?_
    exact reports_classMembers howner hqualified hfields fun _ _ _ _ => rfl

theorem reports_compileInterface {interface : Interface}
    (hinterface : interface ∈ space.interfaces) :
    Reports (compiler.compileInterface space interface) fun binding =>
      compiler.TypeGives space (interface.members space) [binding.members] := by
  have hdecl : Declaration.interface interface ∈ space.declarations := by
    simp [Namespace.declarations, hinterface]
  obtain ⟨owner, howner, hqualified⟩ := exists_owner hdistinct hspace _ hdecl rfl
  rw [Declaration.name] at howner hqualified
  unfold compileInterface
  refine (reports_ownerOf? ..).bind ?_
  rintro _ _ ⟨rfl, rfl⟩
  simp only [howner]
  refine (reports_callables ..).bind fun methods _ hmethods => ?_
  refine (reports_callables ..).bind fun functions left hfunctions => ?_
  rw [← hqualified]
  refine (reports_signals ..).map _ fun signals behind hsignals => ?_
  -- there are no constructors between the methods and the functions
  rw [← List.nil_append (left ++ behind)]
  exact .intro howner hqualified hqualified .nil hmethods .nil hfunctions hsignals

theorem reports_compileRecord {record : Record} (hrecord : record ∈ space.records ++ space.unions)
    (hnames : (record.fields.map (·.name)).Nodup) :
    Reports (compiler.compileRecord space record) fun result =>
      compiler.TypeGives space (record.members space) (result.map (·.members)).toList := by
  obtain ⟨owner, howner, hqualified⟩ :
      ∃ owner, (compiler.builder space).ownerOf? (space.qualify record.name) = some owner ∧
        owner.qualified = space.qualify record.name := by
    rcases List.mem_append.1 hrecord with hmem | hmem
    · exact exists_owner hdistinct hspace (.record record)
        (by simp [Namespace.declarations, hmem]) rfl
    · exact exists_owner hdistinct hspace (.union record)
        (by simp [Namespace.declarations, hmem]) rfl
  have hfind := hdistinct.find?_record hspace hrecord
  obtain ⟨shape, hshape⟩ := Platform.exists_recordShape? hfind
  unfold compileRecord
  refine (reports_useSize _).bind ?_
  rintro _ _ rfl
  rw [Calculator.recordShape?_calculator, hshape]
  refine (reports_ownerOf? ..).bind ?_
  rintro _ _ ⟨rfl, rfl⟩
  simp only [howner]
  refine (reports_fields hnames (Platform.forall₂_fieldLayouts hfind hshape)).bind
    fun fields _ hfields => ?_
  refine (reports_callables ..).bind fun methods _ hmethods => ?_
  refine (reports_callables ..).bind fun constructors _ hconstructors => ?_
  refine (reports_callables ..).map _ fun functions left hfunctions => ?_
  rw [List.nil_append, List.nil_append, ← List.append_nil left]
  exact .intro howner hqualified rfl hfields hmethods hconstructors hfunctions .nil

theorem reports_compileSpace (hnames : ∀ owner ∈ space.owners, (owner.2.map (·.name)).Nodup) :
    Reports (compiler.compileSpace space) (compiler.Gives space) := by
  have hclasses : ∀ cls ∈ space.classes, Reports (compiler.compileClass space cls) fun binding =>
      compiler.TypeGives space (cls.members space) [binding.members] := fun cls hclass =>
    reports_compileClass hdistinct hspace hclass <| hnames (space.qualify cls.name, cls.fields) <|
      List.mem_append_left _ (List.mem_map.2 ⟨cls, hclass, rfl⟩)
  have hrecords : ∀ record ∈ space.records ++ space.unions,
      Reports (compiler.compileRecord space record) fun result =>
        compiler.TypeGives space (record.members space) (result.map (·.members)).toList :=
    fun record hrecord =>
      reports_compileRecord hdistinct hspace hrecord <|
        hnames (space.qualify record.name, record.fields) <|
          List.mem_append_right _ (List.mem_map.2 ⟨record, hrecord, rfl⟩)
  refine (reports_callables ..).bind fun functions _ hfunctions => ?_
  refine (reports_types hclasses).bind fun classes _ hclasses => ?_
  refine (reports_types fun _ hmem => reports_compileInterface hdistinct hspace hmem).bind
    fun interfaces _ hinterfaces => ?_
  refine (reports_types hrecords).map _ fun records _ hrecords => ?_
  have hobjects := hclasses.append hinterfaces
  rw [← List.map_eq_flatMap, ← List.map_eq_flatMap, ← List.map_append] at hobjects
  have hcompounds : (records.filterMap id).map (·.members) =
      records.flatMap fun result => (result.map (·.members)).toList := by
    rw [List.map_filterMap, List.filterMap_eq_flatMap_toList]
    rfl
  rw [← hcompounds] at hrecords
  exact ⟨_, _, _, hfunctions, hobjects, hrecords, by simp only [List.append_assoc]⟩

end Types

/-- What is said of a run: which items are left out, and where the stack overflows. -/
theorem gives_run (hdistinct : compiler.platform.repo.Distinct)
    (hspace : space ∈ compiler.platform.repo.spaces)
    (hnames : ∀ owner ∈ space.owners, (owner.2.map (·.name)).Nodup) :
    ∃ remarks, compiler.Gives space (compiler.run space).bindings remarks ∧
      (compiler.run space).bindings.skipped = remarks.filterMap Remark.skipped? ∧
      (compiler.run space).overflow = remarks.findSome? Remark.overflow? := by
  obtain ⟨remarks, hremarks, hgives⟩ :=
    (reports_compileSpace hdistinct hspace hnames).after {}
  obtain rfl := hremarks
  exact ⟨_, hgives, rfl, rfl⟩

/-! ## When a namespace is lost -/

section Lost

variable {bindings : NamespaceBinding} {remarks : List Remark} {callback : String}

theorem loses_of_callables {declared : Members} {owner : Owner} {callables : List Callable}
    {plans : List CallPlan} (hdeclared : declared ∈ space.objects ++ space.compounds)
    (howner : (compiler.builder space).ownerOf? declared.name = some owner)
    (hsubset : callables ⊆ declared.methods ++ declared.constructors ++ declared.functions)
    (hall : Accounted (compiler.CallableGives space owner) callables plans remarks)
    (hremark : .overflow callback ∈ remarks) : compiler.Loses space callback := by
  obtain ⟨callable, hcallable, _, _, hgives, hremark⟩ := hall.exists_of_remark hremark
  exact .member hdeclared howner (hsubset hcallable) (hgives.endless hremark)

theorem loses_of_typeGives {declared : Members} {compiled : List MemberBindings}
    (hdeclared : declared ∈ space.objects ++ space.compounds)
    (h : compiler.TypeGives space declared compiled remarks)
    (hremark : .overflow callback ∈ remarks) : compiler.Loses space callback := by
  obtain ⟨howner, -, -, hfields, hmethods, hconstructors, hfunctions, hsignals⟩ := h
  rcases List.mem_append.1 hremark with hremark | hremark
  · obtain ⟨_, _, _, _, hgives, hremark⟩ := hfields.exists_of_remark hremark
    exact (hgives.endless hremark).elim
  rcases List.mem_append.1 hremark with hremark | hremark
  · exact loses_of_callables hdeclared howner (fun _ h => by simp [h]) hmethods hremark
  rcases List.mem_append.1 hremark with hremark | hremark
  · exact loses_of_callables hdeclared howner (fun _ h => by simp [h]) hconstructors hremark
  rcases List.mem_append.1 hremark with hremark | hremark
  · exact loses_of_callables hdeclared howner (fun _ h => by simp [h]) hfunctions hremark
  · obtain ⟨signal, hsignal, _, _, hgives, hremark⟩ := hsignals.exists_of_remark hremark
    exact .signal hdeclared howner hsignal (hgives.endless hremark)

theorem loses_of_gives (h : compiler.Gives space bindings remarks)
    (hremark : .overflow callback ∈ remarks) : compiler.Loses space callback := by
  obtain ⟨functions, objects, compounds, hfunctions, hobjects, hcompounds, rfl⟩ := h
  rcases List.mem_append.1 hremark with hremark | hremark
  · rcases List.mem_append.1 hremark with hremark | hremark
    · obtain ⟨callable, hcallable, _, _, hgives, hremark⟩ := hfunctions.exists_of_remark hremark
      exact .function hcallable (hgives.endless hremark)
    · obtain ⟨_, hdeclared, _, _, hgives, hremark⟩ := hobjects.exists_of_remark hremark
      exact loses_of_typeGives (List.mem_append_left _ hdeclared) hgives hremark
  · obtain ⟨_, hdeclared, _, _, hgives, hremark⟩ := hcompounds.exists_of_remark hremark
    exact loses_of_typeGives (List.mem_append_right _ hdeclared) hgives hremark

/-- A callable that is lost is remarked upon. -/
theorem LosesCallable.exists_overflow {owner : Option Owner} {callable : Callable}
    {plans : List CallPlan} (h : compiler.LosesCallable space owner callable callback)
    (hgives : compiler.CallableGives space owner callable plans remarks) :
    ∃ first, .overflow first ∈ remarks := by
  obtain ⟨hwanted, hoverflows⟩ := h
  refine hgives.exists_overflow (fun plan ⟨_, _, hmakes⟩ => hoverflows.not_makes plan hmakes) ?_
  rintro reason (hrefusal | ⟨_, hfails⟩)
  · cases hwanted.symm.trans hrefusal
  · exact hoverflows.not_fails reason hfails

/-- What is said of a callable of a type. -/
theorem TypeGives.exists_callableGives {declared : Members} {compiled : List MemberBindings}
    {owner : Owner} (h : compiler.TypeGives space declared compiled remarks)
    (howner : (compiler.builder space).ownerOf? declared.name = some owner) {callable : Callable}
    (hcallable : callable ∈ declared.methods ++ declared.constructors ++ declared.functions) :
    ∃ plans left, compiler.CallableGives space owner callable plans left ∧ left ⊆ remarks := by
  obtain ⟨howner', -, -, -, hmethods, hconstructors, hfunctions, -⟩ := h
  obtain rfl := Option.some.inj (howner'.symm.trans howner)
  rw [List.mem_append, List.mem_append] at hcallable
  rcases hcallable with (hmethod | hconstructor) | hfunction
  · obtain ⟨plans, left, hgives, hsubset⟩ := hmethods.exists_of_item hmethod
    exact ⟨plans, left, hgives, fun _ hmem => by simp [hsubset hmem]⟩
  · obtain ⟨plans, left, hgives, hsubset⟩ := hconstructors.exists_of_item hconstructor
    exact ⟨plans, left, hgives, fun _ hmem => by simp [hsubset hmem]⟩
  · obtain ⟨plans, left, hgives, hsubset⟩ := hfunctions.exists_of_item hfunction
    exact ⟨plans, left, hgives, fun _ hmem => by simp [hsubset hmem]⟩

/-- What is said of a type of a namespace. -/
theorem exists_typeGives (h : compiler.Gives space bindings remarks) {declared : Members}
    (hdeclared : declared ∈ space.objects ++ space.compounds) :
    ∃ compiled left, compiler.TypeGives space declared compiled left ∧ left ⊆ remarks := by
  obtain ⟨functions, objects, compounds, -, hobjects, hcompounds, rfl⟩ := h
  rcases List.mem_append.1 hdeclared with hdeclared | hdeclared
  · obtain ⟨compiled, left, hgives, hsubset⟩ := hobjects.exists_of_item hdeclared
    refine ⟨compiled, left, hgives, fun remark hremark => ?_⟩
    simp [hsubset hremark]
  · obtain ⟨compiled, left, hgives, hsubset⟩ := hcompounds.exists_of_item hdeclared
    exact ⟨compiled, left, hgives, fun remark hremark =>
      List.mem_append_right _ (hsubset hremark)⟩

theorem exists_overflow_of_loses (h : compiler.Gives space bindings remarks)
    (hloses : compiler.Loses space callback) : ∃ first, .overflow first ∈ remarks := by
  cases hloses with
  | function hcallable hlost =>
      obtain ⟨functions, objects, compounds, hfunctions, -, -, rfl⟩ := h
      obtain ⟨_, _, hgives, hsubset⟩ := hfunctions.exists_of_item hcallable
      exact (hlost.exists_overflow hgives).imp fun _ hfirst => by simp [hsubset hfirst]
  | member hdeclared howner hcallable hlost =>
      obtain ⟨_, _, htype, hsubset⟩ := exists_typeGives h hdeclared
      obtain ⟨_, _, hgives, hleft⟩ := htype.exists_callableGives howner hcallable
      exact (hlost.exists_overflow hgives).imp fun _ hfirst => hsubset (hleft hfirst)
  | signal hdeclared howner hsignal hlost =>
      obtain ⟨_, _, hgives, hsubset⟩ := exists_typeGives h hdeclared
      obtain ⟨howner', -, -, -, -, -, -, hsignals⟩ := hgives
      obtain rfl := Option.some.inj (howner'.symm.trans howner)
      obtain ⟨_, left, hgives, hleft⟩ := hsignals.exists_of_item hsignal
      obtain ⟨first, hfirst⟩ := hgives.exists_overflow
        (fun plan ⟨_, hmakes⟩ => hlost.not_makes plan hmakes) hlost.not_fails
      refine ⟨first, hsubset ?_⟩
      simp only [List.mem_append]
      exact .inr (.inr (.inr (.inr (hleft hfirst))))

end Lost

section TakesItself

theorem overflowsOnly_build (builder : CallBuilder) (callable : Callable) (owner : Option Owner) :
    Mapping.OverflowsOnly builder.mapper.platform.repo.TakesItself
      (builder.build callable owner) := by
  rw [CallBuilder.build]
  split
  next => exact .refuse _
  next =>
    refine (Mapping.OverflowsOnly.ofExcept _).bind fun _ => ?_
    refine (Mapping.OverflowsOnly.mapM fun param _ =>
      builder.mapper.overflowsOnly_mapParam param).bind fun described => ?_
    refine (Mapping.OverflowsOnly.ofExcept _).bind fun _ => ?_
    refine ((builder.mapper.overflowsOnly_map (by decide) _).imp fun _ => False.elim).bind
      fun _ => ?_
    exact Mapping.OverflowsOnly.get.bind fun _ => .pure _

theorem overflowsOnly_buildSignal (builder : CallBuilder) (signal : Signal) (owner : Owner) :
    Mapping.OverflowsOnly builder.mapper.platform.repo.TakesItself
      (builder.buildSignal signal owner) := by
  refine (Mapping.OverflowsOnly.mapM fun param _ =>
    builder.mapper.overflowsOnly_mapParam param).bind fun described => ?_
  refine ((builder.mapper.overflowsOnly_map (by decide) _).imp fun _ => False.elim).bind
    fun _ => ?_
  exact (Mapping.OverflowsOnly.useImport _).bind fun _ =>
    Mapping.OverflowsOnly.get.bind fun _ => .pure _

/-- What a namespace is lost to takes itself. -/
theorem Loses.takesItself {callback : String} (h : compiler.Loses space callback) :
    compiler.platform.repo.TakesItself callback := by
  cases h with
  | function _ h | member _ _ _ h =>
      obtain ⟨_, usage, hoverflow⟩ := h
      exact overflowsOnly_build (compiler.builder space) _ _ _ _ _ hoverflow
  | signal _ _ _ h =>
      obtain ⟨usage, hoverflow⟩ := h
      exact overflowsOnly_buildSignal (compiler.builder space) _ _ _ _ _ hoverflow

end TakesItself

/-- A namespace of a repository is found under its name. -/
theorem namespace?_eq_compile (hspaces : (compiler.platform.repo.spaces.map (·.name)).Nodup)
    (hspace : space ∈ compiler.platform.repo.spaces) :
    compiler.namespace? space.name = (compiler.compile space).map (·.bindings) := by
  rw [namespace?, Repository.space?, find?_of_mem hspaces hspace]

/-- Where the stack does not overflow, all that is said of a run is which items are left out. -/
theorem map_skipped_of_findSome?_eq_none {remarks : List Remark}
    (h : remarks.findSome? Remark.overflow? = none) :
    (remarks.filterMap Remark.skipped?).map .skipped = remarks := by
  induction remarks with
  | nil => rfl
  | cons remark rest ih =>
      cases remark with
      | skipped item => exact congrArg (.skipped item :: ·) (ih h)
      | overflow callback => cases h

section Main

variable (hspaces : (compiler.platform.repo.spaces.map (·.name)).Nodup)
  (hdistinct : compiler.platform.repo.Distinct)
  (hnames : ∀ space ∈ compiler.platform.repo.spaces, ∀ owner ∈ space.owners,
    (owner.2.map (·.name)).Nodup)
  (hspace : space ∈ compiler.platform.repo.spaces)
include hspaces hdistinct hnames hspace

theorem exists_accounts_of_not_loses (hends : ∀ callback, ¬ compiler.Loses space callback) :
    ∃ bindings, compiler.namespace? space.name = .ok bindings ∧
      compiler.Accounts space bindings := by
  obtain ⟨remarks, hgives, hskipped, hoverflow⟩ :=
    gives_run hdistinct hspace (hnames space hspace)
  have hnone : remarks.findSome? Remark.overflow? = none := by
    refine List.findSome?_eq_none_iff.2 fun remark hremark => ?_
    cases remark with
    | skipped => rfl
    | overflow callback => exact absurd (loses_of_gives hgives hremark) (hends callback)
  rw [namespace?_eq_compile hspaces hspace, compile, hoverflow, hnone]
  refine ⟨_, rfl, ?_⟩
  rw [Accounts, hskipped, map_skipped_of_findSome?_eq_none hnone]
  exact hgives

theorem exists_namespace?_eq_overflow {callback : String}
    (hloses : compiler.Loses space callback) :
    ∃ first, compiler.namespace? space.name = .error (.overflow first) ∧
      compiler.Loses space first := by
  obtain ⟨remarks, hgives, _, hoverflow⟩ := gives_run hdistinct hspace (hnames space hspace)
  obtain ⟨other, hother⟩ := exists_overflow_of_loses hgives hloses
  obtain ⟨first, hfirst⟩ : ∃ first, remarks.findSome? Remark.overflow? = some first :=
    Option.isSome_iff_exists.1 (List.findSome?_isSome_iff.2 ⟨_, hother, rfl⟩)
  obtain ⟨remark, hremark, hcallback⟩ := List.exists_of_findSome?_eq_some hfirst
  rw [namespace?_eq_compile hspaces hspace, compile, hoverflow, hfirst]
  cases remark with
  | skipped => cases hcallback
  | overflow callback =>
      obtain rfl : callback = first := Option.some.inj hcallback
      exact ⟨callback, rfl, loses_of_gives hgives hremark⟩

/-- If no callback type takes itself, every namespace is compiled, and everything that it declares
is either found in its bindings or reported as left out. -/
theorem exists_accounts_of_not_takesItself
    (hends : ∀ callback, ¬ compiler.platform.repo.TakesItself callback) :
    ∃ bindings, compiler.namespace? space.name = .ok bindings ∧
      compiler.Accounts space bindings :=
  exists_accounts_of_not_loses hspaces hdistinct hnames hspace fun callback hloses =>
    hends callback hloses.takesItself

/-- In a repository with distinct names every namespace is compiled, and everything that it declares
is either found in its bindings or reported as left out; or else something that it declares does not
end, and nobody gets to see anything of it. -/
theorem accounts_or_loses :
    (∃ bindings, compiler.namespace? space.name = .ok bindings ∧
      compiler.Accounts space bindings ∧ ∀ callback, ¬ compiler.Loses space callback) ∨
    ∃ callback, compiler.namespace? space.name = .error (.overflow callback) ∧
      compiler.Loses space callback ∧ compiler.platform.repo.TakesItself callback := by
  by_cases hends : ∀ callback, ¬ compiler.Loses space callback
  · obtain ⟨bindings, hcompiled, haccounts⟩ :=
      exists_accounts_of_not_loses hspaces hdistinct hnames hspace hends
    exact .inl ⟨bindings, hcompiled, haccounts, hends⟩
  · obtain ⟨callback, hloses⟩ := not_forall_not.1 hends
    obtain ⟨first, hlost, hfirst⟩ :=
      exists_namespace?_eq_overflow hspaces hdistinct hnames hspace hloses
    exact .inr ⟨first, hlost, hfirst, hfirst.takesItself⟩

end Main

/-- A namespace with items of each kind that cannot be mapped or are not wanted. -/
def gallery : Repository := .ofSpaces [{
  name := "N"
  libraries := ["libn.so"]
  functions := [{ name := "start", symbol := "n_start" },
    { name := "log", symbol := "n_log", params := [{ name := "...", type := .named "gint" }] }]
  classes := [{
    name := "Widget"
    fields := [.shown "size" (.named "gint"), .concealed "state" (.named "State"),
      .shown "theme" (.named "Theme")]
    methods := [{ name := "draw", symbol := "n_widget_draw", kind := .method },
      { name := "paint", symbol := "n_widget_paint", kind := .method, deprecated := true }]
    signals := [{ name := "moved", params := [{ name := "place", type := .named "Place" }] },
      { name := "drawn" }] }]
  interfaces := [{
    name := "Shape"
    functions := [{ name := "trace", symbol := "n_shape_trace", introspectable := false }] }]
  records := [
    { name := "Point", fields := [.shown "x" (.named "gint"), .shown "y" (.named "Axis")] },
    { name := "Handle", fields := [.concealed "id" (.named "gint")] }]
  unions := [{
    name := "Any"
    kind := .union
    constructors := [{ name := "new", symbol := "n_any_new", kind := .constructor }] }] }]

theorem gallery_accounts : (gallery.spaces.map (·.name)).Nodup ∧ gallery.Distinct ∧
    (∀ space ∈ gallery.spaces, ∀ owner ∈ space.owners, (owner.2.map (·.name)).Nodup) ∧
    ∃ space ∈ gallery.spaces, ∃ bindings,
      (ofRepository gallery { skipDeprecated := true }).namespace? space.name = .ok bindings ∧
        bindings.classes.map (·.name) = ["N.Widget", "N.Shape"] ∧
        bindings.records.map (·.name) = ["N.Point", "N.Handle", "N.Any"] ∧
        bindings.skipped.map (·.path) = ["log", "N.Widget.theme", "N.Widget.paint",
          "N.Widget.moved", "N.Shape.trace", "N.Point.y"] ∧
        (ofRepository gallery { skipDeprecated := true }).Accounts space bindings := by
  have hspaces : (gallery.spaces.map (·.name)).Nodup := by decide +kernel
  have hdistinct : gallery.Distinct := by
    unfold Repository.Distinct
    decide +kernel
  have hnames : ∀ space ∈ gallery.spaces, ∀ owner ∈ space.owners,
      (owner.2.map (·.name)).Nodup := by decide +kernel
  have hspace : gallery.spaces.headD default ∈ gallery.spaces := List.mem_singleton.2 rfl
  have hmet : ((ofRepository gallery { skipDeprecated := true }).namespace?
      (gallery.spaces.headD default).name).toOption.isSome = true := by decide +kernel
  rcases @accounts_or_loses (ofRepository gallery { skipDeprecated := true }) _ hspaces hdistinct
    hnames hspace with ⟨bindings, hcompiled, haccounts, _⟩ | ⟨callback, hlost, _⟩
  · refine ⟨hspaces, hdistinct, hnames, _, hspace, bindings, hcompiled, ?_, ?_, ?_, haccounts⟩
    all_goals
      obtain ⟨space, hfound, _, rfl⟩ := of_namespace?_eq_ok hcompiled
      obtain rfl : gallery.spaces.headD default = space := Option.some.inj hfound
      decide +kernel
  · rw [hlost] at hmet
    cases hmet

/-- A namespace with a callback type that takes itself, and a function that takes it. -/
def selfTaking : Repository := .ofSpaces [{
  name := "N"
  libraries := ["libn.so"]
  callbacks := [{ name := "Foo", params := [{ name := "cb", type := .named "Foo" }] }]
  functions := [{
    name := "f"
    symbol := "n_f"
    params := [{ name := "cb", type := .named "Foo" }] }] }]

theorem selfTaking_lost : (selfTaking.spaces.map (·.name)).Nodup ∧ selfTaking.Distinct ∧
    (∀ space ∈ selfTaking.spaces, ∀ owner ∈ space.owners, (owner.2.map (·.name)).Nodup) ∧
    (selfTaking.spaces.map (·.name)) = ["N"] ∧
    (ofRepository selfTaking {}).namespace? "N" = .error (.overflow "N.Foo") ∧
    ¬ ∃ bindings, (ofRepository selfTaking {}).namespace? "N" = .ok bindings := by
  have hlost : (ofRepository selfTaking {}).namespace? "N" = .error (.overflow "N.Foo") := by
    have hoverflow : ((ofRepository selfTaking {}).run (selfTaking.spaces.headD default)).overflow =
      some "N.Foo" := by decide +kernel
    have hcompile : (ofRepository selfTaking {}).compile (selfTaking.spaces.headD default) =
        .error (.overflow "N.Foo") := by
      rw [compile, hoverflow]
    have hspaces : (selfTaking.spaces.map (·.name)).Nodup := by decide +kernel
    refine (@namespace?_eq_compile (ofRepository selfTaking {}) _ hspaces
      (List.mem_singleton.2 rfl)).trans ?_
    exact congrArg (Except.map (·.bindings)) hcompile
  refine ⟨by decide +kernel, by unfold Repository.Distinct; decide +kernel, by decide +kernel, rfl,
    hlost, ?_⟩
  rintro ⟨bindings, hbindings⟩
  cases hbindings.symm.trans hlost

end Compiler

end Interop
