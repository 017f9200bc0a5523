import Interop.Closures
import Interop.Registry.Codec
import Interop.Service.Request

/-! # Sequences of steps on tables

The table of callbacks, the hierarchy, the table of classes and the registry of objects, each run
through a list of steps.
-/

namespace Interop.Service

open Schema

/-- Frames the answer of a step with what the state shows after it. A refused step changes nothing
and is not framed. -/
def framed {α : Type} (state : α) (frame : Json → α → Json) (step : Decode (Json × α)) :
    Json × α :=
  match step with
  | .ok (value, state) => (frame value state, state)
  | .error refusal => (refusal.toJson, state)

/-! ## Live callbacks -/

/-- Reads a number that names something. What is no such number is 0, which names nothing. -/
def numberOr0 : Json → Nat
  | .int value => value.toNat
  | _ => 0

/-- One step on a table of callbacks, each of which is its own token. -/
def closureStep (table : ClosureTable Nat) (step : Json) : Decode (Json × ClosureTable Nat) := do
  let .str name :: args ← asList step | .error .malformed
  let token := numberOr0 (argument args 0)
  match name with
  | "register" =>
    let scope ← model (readWord scopeWords) (argument args 0)
    let (token, table) := table.register table.next scope
    return (.nat token, table)
  | "remove" => return (.bool (table.contains token), table.remove token)
  | "contains" => return (.bool (table.contains token), table)
  | "get" => return (Json.ofOption (fun token => .arr [.nat token]) (table.get? token), table)
  | "destroy" => return (.bool true, table.remove token)
  | _ => .error .malformed

def closures (request : Json) : Decode Json := do
  return runSteps (← list request "steps") ({} : ClosureTable Nat) fun table step =>
    framed table (fun value table => .arr [value, .nat table.size, .bool table.isEmpty])
      (closureStep table step)

/-! ## The hierarchy -/

def hierarchyStep (types : Hierarchy) (step : Json) : Decode (Json × Hierarchy) := do
  match ← asList step with
  | .str "add" :: .str name :: _ =>
    let types := types.add name
    return (writeCount (types.indexOf? name), types)
  | .str "parent" :: .str child :: .str parent :: _ => return (.null, types.setParent child parent)
  | .str "interface" :: .str name :: .str interface :: _ =>
    return (.null, types.addInterface name interface)
  | .str "parent_of" :: .str name :: _ =>
    let parent := writeText (types.parent? name)
    return (.arr [parent, parent], types)
  | .str "ancestors" :: .str name :: _ => return (writeTexts (types.ancestors name), types)
  | .str "interfaces" :: .str name :: _ => return (writeTexts (types.interfacesOf name), types)
  | .str "children" :: .str name :: _ => return (writeTexts (types.children name), types)
  | .str "is_a" :: .str name :: .str ancestor :: _ =>
    return (.bool (types.isA name ancestor), types)
  | .str "contains" :: .str name :: _ => return (.bool (types.contains name), types)
  | _ => .error .malformed

def hierarchy (request : Json) : Decode Json := do
  return runSteps (← list request "steps") ({} : Hierarchy) fun types step =>
    framed types (fun value types => .arr [value, .nat types.size, .bool types.isEmpty])
      (hierarchyStep types step)

/-! ## Classes -/

def ofRegistrationError (error : RegistrationError) : Json := failure error.kindName error.message

def ofIdentityError (error : IdentityError) : Json := failure error.kindName error.message

def ofClass? : Option NativeClass → Json := Json.ofOption NativeClass.toJson

def parentTable (request : Json) : Decode ParentTable := do
  match field? request "parents" with
  | none => return []
  | some (.obj members) => members.mapM fun (child, parent) => return (child, ← asText parent)
  | some _ => .error .malformed

def handleAt (value : Json) : Handle := .ofNat (numberOr0 value)

def asHash (value : Json) : Decode TypeHash := do
  return ⟨UInt64.ofNat (← nat value "hash")⟩

/-- Reads the hooks of a class, the one that takes a reference first. -/
def asHooks : Json → Decode RefHooks
  | .arr [refFn, unrefFn] => return ⟨← asText refFn, ← asText unrefFn⟩
  | _ => .error .malformed

def hooks? (value : Json) : Decode (Option RefHooks) :=
  match field? value "hooks" with
  | some part => some <$> asHooks part
  | none => .ok none

/-- A payload that names a label and the handle. -/
def labelled (label : String) (handle : Handle) : String := label ++ "@" ++ handle.text

def asClass (value : Json) : Decode NativeClass := do
  let typeName ← text value "type_name"
  let kind ← model (readWord objectKindWords) (← need (field? value "kind"))
  let payload ← text? value "payload"
  return { NativeClass.named typeName kind with
    library := ← text? value "library"
    hooks := ← hooks? value
    getType := ← text? value "get_type"
    size := ← nat? value "size"
    payload := payload.map labelled }

def classStep (parents : ParentTable) (table : ClassTable) (step : Json) :
    Decode (Json × ClassTable) := do
  let .str name :: args ← asList step | .error .malformed
  let typeName := asText (argument args 0)
  match name with
  | "register" =>
    let cls ← asClass (argument args 0)
    match table.register cls with
    | .ok table => return (cls.toJson, table)
    | .error error => return (ofRegistrationError error, table)
  | "get" | "hash_of" => return (ofClass? (table.get? (← typeName)), table)
  | "get_hash" => return (ofClass? (table.findHash? (← asHash (argument args 0))), table)
  | "find" =>
    return (ofClass? (table.find? parents (← typeName) (← asFlag (argument args 1))), table)
  | "resolve" =>
    match table.resolve parents (← typeName) with
    | .ok cls => return (cls.toJson, table)
    | .error error => return (ofIdentityError error, table)
  | "contains" => return (.bool (table.contains (← typeName)), table)
  | "debug" => return (writeText ((table.get? (← typeName)).map (·.debugText)), table)
  | "payload" =>
    let payload := (table.get? (← typeName)).bind fun cls =>
      cls.payload.map fun make => make (handleAt (argument args 1))
    return (writeText payload, table)
  | _ => .error .malformed

def classes (request : Json) : Decode Json := do
  let parents ← parentTable request
  return runSteps (← list request "steps") ({} : ClassTable) fun table step =>
    framed table (fun value table => .arr [value, .nat table.size, .bool table.isEmpty,
      writeTexts table.typeNames]) (classStep parents table step)

/-! ## Object registries -/

/-- A registry with the names that its wrappers are held under. -/
structure ObjectState where
  registry : Registry
  held : List (String × WrapperId) := []
  released : List Release := []

namespace ObjectState

def release (state : ObjectState) (release : Option Release) : ObjectState :=
  { state with released := state.released ++ release.toList }

def drop (state : ObjectState) (id : WrapperId) : ObjectState :=
  let (release, registry) := state.registry.drop id
  { state with registry }.release release

def erase (state : ObjectState) (name : String) : Bool × ObjectState :=
  match state.held.lookup name with
  | none => (false, state)
  | some id =>
    (true, { state with held := state.held.filter (·.1 != name) }.drop id)

/-- Stores a clone in a variable, whose old value is dropped. -/
def store (state : ObjectState) (name : String) (id : WrapperId) : ObjectState :=
  let old := state.held.lookup name
  let state := { state with held := (name, id) :: state.held.filter (·.1 != name) }
  match old with
  | some old => state.drop old
  | none => state

def present (state : ObjectState) (id : WrapperId) : Json :=
  let names := Hierarchy.sorted ((state.held.filter (·.2 == id)).map (·.1))
  Json.ofOption (fun wrapper : Wrapper => wrapper.toJson names) (state.registry.wrapper? id)

/-- Shows a clone, then stores or drops it. -/
def keep (state : ObjectState) (name : Option String) (id : WrapperId) : Json × ObjectState :=
  (state.present id, match name with
    | some name => state.store name id
    | none => state.drop id)

end ObjectState

def foreignClass : NativeClass := .named "Foreign" .gobject

def objectStep (known : Registry.Introspection) (state : ObjectState) (step : Json) :
    Decode (Json × ObjectState) := do
  let registry := state.registry
  let found (result : Option WrapperId × Registry) (name : Option String) : Json × ObjectState :=
    let state := { state with registry := result.2 }
    match result.1 with
    | some id => state.keep name id
    | none => (.null, state)
  let .str name :: args ← asList step | .error .malformed
  let arg := argument args
  let first := asText (arg 0)
  match name with
  | "register" =>
    let cls ← asClass (arg 0)
    match registry.registerClass cls with
    | .ok registry => return (cls.toJson, { state with registry })
    | .error error => return (ofRegistrationError error, state)
  | "get" => return (ofClass? (registry.classes.get? (← first)), state)
  | "find" =>
    return (ofClass? (registry.classes.find? known.parents (← first) (← asFlag (arg 1))), state)
  | "wrap" =>
    let name ← asText? (arg 0)
    let target ← asText? (arg 2)
    let ownership ← model (readWord transferWords) (arg 3)
    match registry.wrap known (handleAt (arg 1)) target ownership with
    | (.error error, registry) => return (ofIdentityError error, { state with registry })
    | (.ok wrapped, registry) =>
      let state := { state with registry }.release wrapped.release
      match wrapped.id with
      | none => return (.null, state)
      | some id => return state.keep name id
  | "foreign" =>
    let name ← first
    let handle := handleAt (arg 1)
    if handle.isNull then return (.null, state)
    let (id, registry) := registry.adopt handle foreignClass
    return found (some id, registry) (some name)
  | "clone" =>
    let name ← first
    match state.held.lookup (← asText (arg 1)) with
    | some id => return found (some id, registry.retain id) (some name)
    | none => return (.null, state)
  | "drop" =>
    let (was, state) := state.erase (← first)
    return (.bool was, state)
  | "register_object" =>
    match state.held.lookup (← first) >>= fun id => (registry.wrapper? id).map (id, ·) with
    | some (id, wrapper) =>
      return (.bool true, { state with registry := registry.identify wrapper.handle id })
    | none => return (.null, state)
  | "lookup" => return found (registry.lookup (handleAt (arg 0))) none
  | "purge" =>
    let (count, registry) := registry.purge
    return (.nat count, { state with registry })
  | "parent" => return (writeText (known.parents.lookup (← first)), state)
  | "runtime_type" => return (writeText (known.runtimeType (handleAt (arg 0))), state)
  | "debug" => return (.str registry.debugText, state)
  | _ => .error .malformed

def objects (request : Json) : Decode Json := do
  let parents ← parentTable request
  let known ← match field? request "types" with
    | none => pure Registry.Introspection.blind
    | some types =>
      let types ← (← asList types).mapM fun
        | .arr [addr, name] => return (handleAt addr, ← asText name)
        | _ => .error .malformed
      pure { runtimeType := fun handle => types.lookup handle, parents }
  let releases := match request.get? "releaser" with
    | some (.bool false) => false
    | _ => true
  let start : ObjectState := { registry := { releases } }
  return runSteps (← list request "steps") start fun state step =>
    framed state frame (objectStep known { state with released := [] } step)
where
  frame (value : Json) (state : ObjectState) : Json :=
    let registry := state.registry
    .obj [("r", value),
      ("released", .arr (state.released.map fun release =>
        .arr [.nat release.handle.toNat, .str release.cls.typeName])),
      ("ids", .arr [.nat registry.liveCount, .nat registry.identityCount]),
      ("empty", .bool registry.identities.isEmpty), ("classes", .nat registry.classes.size)]

end Interop.Service
