import Interop.Bridge.Lifetime

/-! # Registering namespaces

A namespace is compiled when it is first needed. Its classes and records enter the table of classes,
its parents the hierarchy, and then the namespaces of its parents are registered in turn.
-/

namespace Interop

open Schema

variable {H : Host}

def schemaTypeName (repo : Repository) (qualified : String) : String :=
  match (repo.resolveQualified? qualified).map Resolved.decl with
  | some (.cls cls) => runtimeTypeName cls.typeName cls.cType qualified
  | some (.interface interface) => runtimeTypeName interface.typeName interface.cType qualified
  | some (.record record) | some (.union record) =>
    runtimeTypeName record.typeName record.cType qualified
  | _ => qualified

/-- A compiled class as natives are wrapped by it. -/
def ClassBinding.nativeClass (cls : ClassBinding) (library : String) : NativeClass :=
  { NativeClass.named cls.typeName cls.kind with
    library := some library
    hooks := cls.hooks
    getType := cls.getType
    size := cls.shape.map (·.total.size) }

/-- A compiled record as natives are wrapped by it. -/
def RecordBinding.nativeClass (record : RecordBinding) (library : String) : NativeClass :=
  { NativeClass.named record.typeName record.kind with
    library := some library
    getType := record.getType
    size := some record.shape.total.size }

namespace Bridge

def repo (env : Env H) : Repository := env.compiler.platform.repo

def namespace? (bridge : Bridge H) (name : String) : Option NamespaceBinding :=
  bridge.namespaces.lookup name

def registerNative (cls : NativeClass) : Run H Unit := do
  let bridge ← get
  match bridge.registry.registerClass cls with
  | .ok registry => set { bridge with registry }
  | .error (.duplicateClass _) => return
  | .error error => throw (.registration error)

/-- Enters what the schema says about the parents of a class into the hierarchy. -/
def linkClass (repo : Repository) (cls : ClassBinding) (hierarchy : Hierarchy) : Hierarchy :=
  let hierarchy := hierarchy.add cls.typeName
  let hierarchy := match cls.parent with
    | some parent => hierarchy.setParent cls.typeName (schemaTypeName repo parent)
    | none => hierarchy
  cls.interfaces.foldl
    (fun hierarchy interface =>
      hierarchy.addInterface cls.typeName (schemaTypeName repo interface)) hierarchy

/-- Registers what a namespace declares, and then the namespace itself. -/
def registerTypes (env : Env H) (space : NamespaceBinding) : Run H Unit := do
  space.classes.forM fun cls => do
    registerNative (cls.nativeClass space.library)
    modify fun bridge =>
      { bridge with hierarchy := linkClass (repo env) cls bridge.hierarchy }
  space.records.forM fun record => registerNative (record.nativeClass space.library)
  modify fun bridge => { bridge with namespaces := bridge.namespaces ++ [(space.name, space)] }

/-- The other namespaces that the parents of a namespace's classes are declared in. -/
def dependencies (space : NamespaceBinding) : List String :=
  (space.classes.filterMap (·.parent)).filterMap fun parent =>
    (splitQualified parent).1.filter (· != space.name)

/-- Registers a namespace and those it depends on. The first argument bounds how deep dependencies
are followed; each step down registers one more namespace of the repository. -/
def registerWithin (env : Env H) : Nat → String → Run H NamespaceBinding
  | 0, name => throw (.mapping (.refused (.unknownNamespace name)))
  | depth + 1, name => do
    if let some space := (← get).namespace? name then return space
    match env.compiler.namespace? name with
    | .error failure => throw (.mapping failure)
    | .ok space =>
      registerTypes env space
      (dependencies space).forM fun name => discard (registerWithin env depth name)
      return space

/-- Registers a namespace and those it depends on, unless it is registered. -/
def registerNamespace (env : Env H) (name : String) : Run H NamespaceBinding :=
  registerWithin env ((repo env).spaces.length + 1) name

/-- The namespace of a qualified name, registered if need be. -/
def namespaceOf (env : Env H) (qualified : String) : Run H NamespaceBinding :=
  match (splitQualified qualified).1 with
  | some name => registerNamespace env name
  | none => throw (.marshal (.unknownType qualified))

def wrapAs (env : Env H) (handle : Handle) (qualified : String) (ownership : Ownership) :
    Run H Value := do
  discard (namespaceOf env qualified)
  wrap env handle (some (schemaTypeName (repo env) qualified)) ownership

end Bridge

end Interop
