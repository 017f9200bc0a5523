import Interop.Bindings.Basic
import Interop.Layout.Calculator

/-! # Compiling a namespace

Everything that a namespace declares becomes a binding or is reported as left out. A shape that
cannot be mapped costs the item it stands in and nothing else. A shape that is read without an end
costs everything: nothing is compiled where the stack overflows.
-/

namespace Interop

open Schema

/-- What is to be said of an item that gives no binding. -/
inductive Remark where
  | skipped (item : SkippedItem)
  /-- The stack overflows at this callback type. -/
  | overflow (callback : String)
  deriving DecidableEq, Repr, Inhabited

namespace Remark

def skipped? : Remark → Option SkippedItem
  | skipped item => some item
  | overflow _ => none

def overflow? : Remark → Option String
  | skipped _ => none
  | overflow callback => some callback

end Remark

/-- What a compilation reports besides its bindings. -/
structure CompileReport where
  /-- What is said of the items without bindings, in order. -/
  remarks : List Remark := []
  /-- The declared types whose layouts were needed, the last one first. -/
  sized : List String := []
  deriving Inhabited

abbrev Compile (α : Type) := StateM CompileReport α

namespace Compile

def note (remark : Remark) : Compile Unit :=
  modify fun report => { report with remarks := report.remarks ++ [remark] }

def skip (owner : Option String) (name : String) (reason : SkipReason) : Compile Unit :=
  note (.skipped ⟨owner, name, reason⟩)

def useSize (qualified : String) : Compile Unit :=
  modify fun report => { report with sized := qualified :: report.sized }

/-- Keeps the result of a mapping step, or reports the item as left out. -/
def orSkip {α : Type} (owner : Option String) (name : String) (step : Mapping α) :
    Compile (Option α) := do
  let (result, usage) := step.finish
  modify fun report => { report with sized := usage.sized ++ report.sized }
  match result with
  | .ok value => return some value
  | .error (.refused error) =>
    skip owner name (.unsupported error)
    return none
  | .error (.overflow callback) =>
    note (.overflow callback)
    return none

end Compile

/-- Whether the value of a field is stored in the field: a record in place, or an array of fixed
size that is not spelled as a pointer. -/
def isStoredInField (type : TypeRef) (descriptor : Descriptor) : Bool :=
  match type with
  | .array _ form _ => form.fixedSize.isSome && !type.isPointerSpelled
  | .plain _ =>
    match descriptor with
    | .struct _ _ _ inPlace _ => inPlace
    | _ => false

structure Compiler where
  platform : Platform
  options : Options

namespace Compiler

/-- The compiler whose layouts have the pointers of the options. -/
def ofRepository (repo : Repository) (options : Options) : Compiler :=
  ⟨⟨repo, options.pointerSize⟩, options⟩

def builder (compiler : Compiler) (space : Namespace) : CallBuilder where
  mapper := ⟨compiler.platform, compiler.options, space.name⟩
  library := space.library

/-- The owner of the members of a type. -/
def ownerOf? (compiler : Compiler) (space : Namespace) (qualified : String) :
    Compile (Option Owner) := do
  let owner := (compiler.builder space).ownerOf? qualified
  if let some ⟨_, .struct, _⟩ := owner then Compile.useSize qualified
  return owner

/-- Why a callable is left out before it is mapped. -/
def refusal? (options : Options) (callable : Callable) : Option SkipReason :=
  if callable.deprecated && options.skipDeprecated then some .deprecated
  else if !callable.introspectable && !options.includeUnintrospectable then some .notIntrospectable
  else none

/-- The plans of a list of callables. -/
def callables (compiler : Compiler) (space : Namespace) (owner : Option Owner)
    (callables : List Callable) : Compile (List CallPlan) := do
  let plans ← callables.mapM fun callable => do
    let ownerName := owner.map (·.qualified)
    match refusal? compiler.options callable with
    | some reason =>
      Compile.skip ownerName callable.name reason
      return none
    | none =>
      Compile.orSkip ownerName callable.name ((compiler.builder space).build callable owner)
  return plans.filterMap id

/-- The plans of a list of signals. A type without instances has none. -/
def signals (compiler : Compiler) (space : Namespace) (owner : Option Owner) (qualified : String)
    (signals : List Signal) : Compile (List SignalPlan) := do
  match owner with
  | none => return []
  | some owner =>
    let plans ← signals.mapM fun signal =>
      Compile.orSkip (some qualified) signal.name
        ((compiler.builder space).buildSignal signal owner)
    return plans.filterMap id

/-- The pairs among compiled methods. -/
def asyncMethods (methods : List Callable) (plans : List CallPlan) : List AsyncPlan :=
  (AsyncPair.findAll methods).filterMap fun pair => do
    let start ← methods[pair.start]?
    let finish ← methods[pair.finish]?
    let startPlan ← plans.find? (·.name == start.name)
    let finishPlan ← plans.find? (·.name == finish.name)
    AsyncPlan.ofPlans? (operationName start.name) startPlan finishPlan

def fields (compiler : Compiler) (space : Namespace) (owner : String) (fields : List Field)
    (shape : RecordShape) : Compile (List FieldBinding) := do
  let bindings ← shape.fieldLayouts.mapM fun layout => do
    match fields.find? (·.name == layout.field) with
    | none => return none
    | some field =>
      let mapped ← Compile.orSkip (some owner) field.name
        ((compiler.builder space).mapper.map .field field.type)
      return mapped.map fun descriptor => {
        layout := layout
        descriptor := descriptor
        inPlace := isStoredInField field.type descriptor
        readable := field.readable
        writable := field.writable }
  return bindings.filterMap id

def compileClass (compiler : Compiler) (space : Namespace) (cls : ObjectClass) :
    Compile ClassBinding := do
  let qualified := space.qualify cls.name
  let owner ← compiler.ownerOf? space qualified
  let shape ← if cls.fields.isEmpty then pure none else do
    Compile.useSize qualified
    pure (compiler.platform.calculator.recordShape? qualified).1
  let fields ← match shape with
    | some shape => compiler.fields space qualified cls.fields shape
    | none => pure []
  let methods ← compiler.callables space owner cls.methods
  let constructors ← compiler.callables space owner cls.constructors
  let functions ← compiler.callables space owner cls.functions
  let signals ← compiler.signals space owner qualified cls.signals
  return {
    name := qualified
    typeName := runtimeTypeName cls.typeName cls.cType qualified
    kind := (owner.map (·.kind)).getD .gobject
    parent := cls.parent.map (Schema.qualify space.name)
    interfaces := cls.interfaces.map (Schema.qualify space.name)
    hooks := classHooks cls
    getType := cls.getType
    isAbstract := cls.isAbstract
    shape, fields, methods, constructors, functions, signals
    asyncMethods := asyncMethods cls.methods methods }

def compileInterface (compiler : Compiler) (space : Namespace) (interface : Interface) :
    Compile ClassBinding := do
  let qualified := space.qualify interface.name
  let owner ← compiler.ownerOf? space qualified
  let methods ← compiler.callables space owner interface.methods
  let functions ← compiler.callables space owner interface.functions
  let signals ← compiler.signals space owner qualified interface.signals
  return {
    name := qualified
    typeName := runtimeTypeName interface.typeName interface.cType qualified
    kind := .interface
    parent := none
    interfaces := interface.prerequisites.map (Schema.qualify space.name)
    hooks := none
    getType := interface.getType
    isAbstract := true
    shape := none
    fields := []
    constructors := []
    methods, functions, signals
    asyncMethods := asyncMethods interface.methods methods }

/-- The binding of a record or a union, unless its name belongs to a type without fields. -/
def compileRecord (compiler : Compiler) (space : Namespace) (record : Record) :
    Compile (Option RecordBinding) := do
  let qualified := space.qualify record.name
  Compile.useSize qualified
  match (compiler.platform.calculator.recordShape? qualified).1 with
  | none => return none
  | some shape =>
    let owner ← compiler.ownerOf? space qualified
    let fields ← compiler.fields space qualified record.fields shape
    let methods ← compiler.callables space owner record.methods
    let constructors ← compiler.callables space owner record.constructors
    let functions ← compiler.callables space owner record.functions
    return some {
      name := qualified
      typeName := runtimeTypeName record.typeName record.cType qualified
      kind := if record.isBoxed then .boxed else .struct
      getType := record.getType
      shape, fields, methods, constructors, functions }

/-- The binding of a namespace, but for what was left out. -/
def compileSpace (compiler : Compiler) (space : Namespace) : Compile NamespaceBinding := do
  let functions ← compiler.callables space none space.functions
  let classes ← space.classes.mapM (compiler.compileClass space)
  let interfaces ← space.interfaces.mapM (compiler.compileInterface space)
  let records ← (space.records ++ space.unions).mapM (compiler.compileRecord space)
  return {
    name := space.name
    library := space.library
    functions := functions
    classes := classes ++ interfaces
    records := records.filterMap id
    skipped := [] }

/-- What is compiled of a namespace. If the stack overflows on the way, nobody gets to see it. -/
structure Compilation where
  bindings : NamespaceBinding
  /-- The types whose layouts were needed. -/
  sized : List String
  /-- The callback type at which the stack overflows first. -/
  overflow : Option String
  deriving Inhabited

def run (compiler : Compiler) (space : Namespace) : Compilation :=
  let (bindings, report) := (compiler.compileSpace space).run {}
  { bindings := { bindings with skipped := report.remarks.filterMap Remark.skipped? }
    sized := report.sized
    overflow := report.remarks.findSome? Remark.overflow? }

/-- The compilation of a namespace, unless the stack overflows. -/
def compile (compiler : Compiler) (space : Namespace) : Except MappingFailure Compilation :=
  let compilation := compiler.run space
  match compilation.overflow with
  | some callback => .error (.overflow callback)
  | none => .ok compilation

def namespace? (compiler : Compiler) (name : String) : Except MappingFailure NamespaceBinding :=
  match compiler.platform.repo.space? name with
  | some space => (compiler.compile space).map (·.bindings)
  | none => .error (.refused (.unknownNamespace name))

/-- The bindings of every namespace, by name, and how many layouts are remembered after that. -/
def compileAll (compiler : Compiler) : Except MappingFailure (List NamespaceBinding × Nat) := do
  let repo := compiler.platform.repo
  let runs ← (repo.spaces.filterMap fun space => repo.space? space.name).mapM compiler.compile
  let calculator := compiler.platform.calculator
  let sized := runs.flatMap (·.sized)
  return (runs.map (·.bindings),
    (sized.foldl (fun c name => (c.typeLayout? name).2) calculator).size)

end Compiler

end Interop
