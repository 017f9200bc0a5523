import Interop.Registry.Classes

/-! # Wrappers and their identities

A wrapper is the managed face of a native. The table of identities finds the wrapper of a handle
again, so that one native has one face. Wrappers are counted; when the last clone of an owned one
is dropped, the reference it owns is to be given back. Giving it back is up to the caller, who gets
a `Release` for it.
-/

namespace Interop

/-- The place of a wrapper among all that were ever made. -/
structure WrapperId where
  index : Nat
  deriving DecidableEq, Repr, Inhabited

structure Wrapper where
  handle : Handle
  cls : NativeClass
  /-- Whether the wrapper has a reference to give back. -/
  owned : Bool
  strong : Nat
  payload : Option String
  /-- Whether another registry keeps account of the wrapper. -/
  foreign : Bool := false
  deriving Inhabited

namespace Wrapper

def isLive (wrapper : Wrapper) : Bool := wrapper.strong != 0

def debugText (wrapper : Wrapper) : String :=
  Quoted.record "ManagedWrapper" [("type_name", Quoted.text wrapper.cls.typeName),
    ("handle", wrapper.handle.debugText), ("owned", toString wrapper.owned)]

end Wrapper

/-- A reference that has to be given back. -/
structure Release where
  handle : Handle
  cls : NativeClass
  deriving Inhabited

structure Registry where
  classes : ClassTable := {}
  /-- Every wrapper ever made, the dead ones included. -/
  wrappers : Array Wrapper := #[]
  /-- The wrappers that can be found by their handles. -/
  identities : List (Handle × WrapperId) := []
  /-- Whether references are given back at all. -/
  releases : Bool := true
  deriving Inhabited

namespace Registry

def wrapper? (registry : Registry) (id : WrapperId) : Option Wrapper := registry.wrappers[id.index]?

def isLive (registry : Registry) (id : WrapperId) : Bool :=
  (registry.wrapper? id).any Wrapper.isLive

def modifyWrapper (registry : Registry) (id : WrapperId) (f : Wrapper → Wrapper) : Registry :=
  { registry with wrappers := registry.wrappers.modify id.index f }

/-- The release of a reference of a wrapper, unless references are not given back. -/
def release? (registry : Registry) (wrapper : Wrapper) : Option Release :=
  if registry.releases then some ⟨wrapper.handle, wrapper.cls⟩ else none

/-! ## Identities -/

def forget (registry : Registry) (handle : Handle) : Registry :=
  { registry with identities := registry.identities.filter fun entry => entry.1 != handle }

/-- Makes a wrapper the one that is found by its handle. -/
def identify (registry : Registry) (handle : Handle) (id : WrapperId) : Registry :=
  let registry := registry.forget handle
  { registry with identities := registry.identities ++ [(handle, id)] }

def retain (registry : Registry) (id : WrapperId) : Registry :=
  registry.modifyWrapper id fun wrapper => { wrapper with strong := wrapper.strong + 1 }

/-- A clone of the wrapper of a handle. An entry whose wrapper is dead is removed. -/
def lookup (registry : Registry) (handle : Handle) : Option WrapperId × Registry :=
  match registry.identities.lookup handle with
  | none => (none, registry)
  | some id =>
    if registry.isLive id then (some id, registry.retain id) else (none, registry.forget handle)

def identityCount (registry : Registry) : Nat := registry.identities.length

def liveCount (registry : Registry) : Nat :=
  (registry.identities.filter fun entry => registry.isLive entry.2).length

/-- Removes every entry whose wrapper is dead; also says how many there were. -/
def purge (registry : Registry) : Nat × Registry :=
  let kept := registry.identities.filter fun entry => registry.isLive entry.2
  (registry.identityCount - kept.length, { registry with identities := kept })

/-! ## Classes -/

def registerClass (registry : Registry) (cls : NativeClass) : Except RegistrationError Registry :=
  return { registry with classes := ← registry.classes.register cls }

/-! ## Wrapping -/

/-- A new wrapper with one clone. -/
def create (registry : Registry) (handle : Handle) (cls : NativeClass) (ownership : Ownership) :
    WrapperId × Registry :=
  let id : WrapperId := ⟨registry.wrappers.size⟩
  let wrapper : Wrapper := {
    handle := handle
    cls := cls
    owned := ownership.transfersReference
    strong := 1
    payload := cls.payload.map fun make => make handle }
  let registry := { registry with wrappers := registry.wrappers.push wrapper }
  (id, if cls.kind.usesIdentityTable then registry.identify handle id else registry)

/-- A reference that comes in for a wrapper that is there already: the wrapper takes it over if it
owns none, else it is given back. -/
def reconcile (registry : Registry) (id : WrapperId) (ownership : Ownership) :
    Option Release × Registry :=
  match registry.wrapper? id with
  | none => (none, registry)
  | some wrapper =>
    if !ownership.transfersReference then (none, registry)
    else if wrapper.owned then (registry.release? wrapper, registry)
    else (none, registry.modifyWrapper id fun wrapper => { wrapper with owned := true })

/-- What is known about natives from outside of the registry. -/
structure Introspection where
  runtimeType : Handle → Option String
  parents : ParentTable

/-- Knows nothing. -/
def Introspection.blind : Introspection := ⟨fun _ => none, []⟩

def classOf (registry : Registry) (known : Introspection) (handle : Handle) :
    Except IdentityError NativeClass :=
  match known.runtimeType handle with
  | none => .error (.unknownRuntimeType handle)
  | some typeName => registry.classes.resolve known.parents typeName

/-- The class that a handle is asked to be wrapped as. -/
def target (registry : Registry) (name : Option String) :
    Except IdentityError (Option NativeClass) :=
  match name with
  | none => .ok none
  | some name =>
    match registry.classes.get? name with
    | some cls => .ok (some cls)
    | none => .error (.unknownClass name)

/-- What wrapping a handle gives. -/
structure Wrapped where
  /-- A clone of the wrapper; none for the null handle. -/
  id : Option WrapperId
  /-- The reference that came in and was not needed. -/
  release : Option Release := none
  deriving Inhabited

/-- What code from outside of the registry does while a handle is wrapped. No lock is held
meanwhile, so that it may use the registry itself. -/
structure Interlude where
  /-- Finds the class of the handle. -/
  classOf : Registry → Except IdentityError NativeClass × Registry
  /-- Makes what the new wrapper carries along. -/
  payload : Registry → Registry

/-- The code finds the class by what is known about natives, and leaves the registry alone. -/
def Interlude.quiet (known : Introspection) (handle : Handle) : Interlude where
  classOf registry := (registry.classOf known handle, registry)
  payload registry := registry

/-- Wraps a handle as a given class, or as that of its runtime type. A wrapper that is there already
is used again, unless the class is one without identity. Even where wrapping fails, a dead entry of
the handle is gone afterwards. -/
def wrapAmid (registry : Registry) (handle : Handle) (targetName : Option String)
    (ownership : Ownership) (amid : Interlude) : Except IdentityError Wrapped × Registry :=
  if handle.isNull then (.ok { id := none }, registry)
  else match registry.target targetName with
    | .error error => (.error error, registry)
    | .ok target =>
      let found :=
        if target.all (·.kind.usesIdentityTable) then registry.lookup handle else (none, registry)
      match found with
      | (some id, registry) =>
        let (release, registry) := registry.reconcile id ownership
        (.ok { id := some id, release := release }, registry)
      | (none, registry) =>
        match target.elim (amid.classOf registry) fun cls => (.ok cls, registry) with
        | (.error error, registry) => (.error error, registry)
        | (.ok cls, registry) =>
          let registry := if cls.payload.isSome then amid.payload registry else registry
          let (id, registry) := registry.create handle cls ownership
          (.ok { id := some id }, registry)

def wrap (registry : Registry) (known : Introspection) (handle : Handle)
    (targetName : Option String) (ownership : Ownership) :
    Except IdentityError Wrapped × Registry :=
  registry.wrapAmid handle targetName ownership (.quiet known handle)

/-- Drops a clone. With the last one the wrapper dies: a dead entry of its handle is removed, and
the reference it owns is given back. -/
def drop (registry : Registry) (id : WrapperId) : Option Release × Registry :=
  match registry.wrapper? id with
  | none => (none, registry)
  | some wrapper =>
    let registry :=
      registry.modifyWrapper id fun wrapper => { wrapper with strong := wrapper.strong - 1 }
    if wrapper.strong != 1 || wrapper.foreign then (none, registry)
    else
      let stale := (registry.identities.lookup wrapper.handle).any fun entry =>
        !registry.isLive entry
      let registry := if stale then registry.forget wrapper.handle else registry
      (if wrapper.owned then registry.release? wrapper else none, registry)

/-- A clone of the live wrapper that another registry has for a handle, or a new one. -/
def adopt (registry : Registry) (handle : Handle) (cls : NativeClass) : WrapperId × Registry :=
  let there := registry.wrappers.findIdx? fun wrapper =>
    wrapper.foreign && wrapper.isLive && wrapper.handle == handle
  match there with
  | some index => (⟨index⟩, registry.retain ⟨index⟩)
  | none =>
    let wrapper : Wrapper :=
      { handle, cls, owned := false, strong := 1, payload := none, foreign := true }
    (⟨registry.wrappers.size⟩, { registry with wrappers := registry.wrappers.push wrapper })

def debugText (registry : Registry) : String :=
  let identities := Quoted.record "IdentityTable" [("entries", toString registry.identityCount)]
  Quoted.record "ObjectRegistry" [("classes", toString registry.classes.size),
    ("identities", identities), ("has_releaser", toString registry.releases)]

end Registry

end Interop
