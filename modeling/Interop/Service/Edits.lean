import Interop.Descriptor.Codec
import Interop.Mapping.Mapper
import Interop.Service.Request

/-! # Schema values made step by step

A request names what a value starts from and the changes to it, one after the other. What either
takes is told by its place.
-/

namespace Interop.Service

open Schema

/-- Applies the calls of a request one by one. -/
def applyCalls {α : Type} (request : Json) (start : α)
    (call : α → String → (Nat → Json) → Decode α) : Decode α := do
  (← list request "calls").foldlM (fun value step => do
    match ← asList step with
    | .str method :: args => call value method (argument args)
    | _ => .error .malformed) start

def startWord {α : Type} (words : List (String × α)) (part : Json) : Decode α := do
  need (words.lookup (← asText part))

def typeRefOf (request : Json) (part : Nat → Json) : Decode Json := do
  let type ← match part 0 with
    | .str "named" => pure (TypeRef.named (← asText (part 1)))
    | .str "void" => pure .void
    | .str "array" =>
      let element ← model TypeRef.read (part 1)
      pure (.arrayOf element (← model TypeRef.readShape (part 2)).1)
    | _ => .error .malformed
  let type ← applyCalls request type fun type method arg => do
    match method with
    | "c_type" => return type.withCType (← asText (arg 0))
    | "transfer" => return type.withTransfer (← model (readWord transferWords) (arg 0))
    | "nullable" => return type.asNullable
    | _ => .error .malformed
  return type.toJson

def shapeOf (part : Nat → Json) : Decode Json := do
  let form : ArrayForm ← match part 0 with
    | .str "fixed" => pure (.fixed (← model Json.Reader.word (part 2)))
    | .str "length" => pure (.counted (← model Json.Reader.word (part 2)))
    | .str "zt" => pure .terminated
    | _ => .error .malformed
  return TypeRef.shapeJson form (← model TypeRef.read (part 1)).toJson

def fieldOf (part : Nat → Json) : Decode Json := do
  let make ← startWord [("private", Field.concealed), ("public", Field.shown)] (part 0)
  return (make (← asText (part 1)) (← model TypeRef.read (part 2))).toJson

def paramOf (request : Json) (part : Nat → Json) : Decode Json := do
  let direction ← startWord [("in", Direction.input), ("out", Direction.output)] (part 0)
  let param : Param := {
    name := ← asText (part 1), type := ← model TypeRef.read (part 2), direction }
  let param ← applyCalls request param fun param method arg => do
    match method with
    | "direction" =>
      return { param with direction := ← model (readWord directionWords) (arg 0) }
    | "caller_allocated" => return { param with callerAllocates := true }
    | "optional" => return { param with optional := true }
    | "slots" =>
      return param.withSlots (← model readCount (arg 0)) (← model readCount (arg 1))
        (← model (readWord scopeWords) (arg 2))
    | _ => .error .malformed
  return param.toJson

def callableOf (request : Json) (part : Nat → Json) : Decode Json := do
  let callable : Callable := {
    kind := ← model (readWord callableKindWords) (part 0)
    name := ← asText (part 1)
    symbol := ← asText (part 2) }
  let callable ← applyCalls request callable fun callable method arg => do
    match method with
    | "param" => return callable.withParam (← model Param.read (arg 0))
    | "returning" => return callable.returning (← model TypeRef.read (arg 0))
    | "throwing" => return { callable with throws := true }
    | "deprecated" => return { callable with deprecated := true }
    | _ => .error .malformed
  return callable.toJson

def callbackOf (request : Json) (part : Nat → Json) : Decode Json := do
  let callback : Callback := { name := ← asText (part 0) }
  let callback ← applyCalls request callback fun callback method arg => do
    match method with
    | "param" => return callback.withParam (← model Param.read (arg 0))
    | "returning" => return callback.returning (← model TypeRef.read (arg 0))
    | _ => .error .malformed
  return callback.toJson

def signalOf (request : Json) (part : Nat → Json) : Decode Json := do
  let signal : Signal := { name := ← asText (part 0) }
  let signal ← applyCalls request signal fun signal method arg => do
    match method with
    | "param" => return signal.withParam (← model Param.read (arg 0))
    | "returning" => return signal.returning (← model TypeRef.read (arg 0))
    | _ => .error .malformed
  return signal.toJson

def recordOf (request : Json) (part : Nat → Json) : Decode Json := do
  let kind ← startWord [("struct", RecordKind.struct), ("union", RecordKind.union)] (part 0)
  let record : Record := { name := ← asText (part 1), kind }
  let record ← applyCalls request record fun record method arg => do
    match method with
    | "boxed" => return record.boxed (← asText (arg 0)) (← asText (arg 1))
    | "field" => return { record with fields := record.fields ++ [← model Field.read (arg 0)] }
    | "method" =>
      return { record with methods := record.methods ++ [← model Callable.read (arg 0)] }
    | "constructor" =>
      let callable ← model Callable.read (arg 0)
      return { record with constructors := record.constructors ++ [callable] }
    | "disguised" => return { record with disguised := true }
    | _ => .error .malformed
  let find ← text? request "find"
  return .obj [("value", record.toJson), ("boxed", .bool record.isBoxed),
    ("opaque", .bool record.isOpaque),
    ("found", Json.ofOption Field.toJson (find.bind record.findField?))]

def classOf (request : Json) (part : Nat → Json) : Decode Json := do
  let cls : ObjectClass := { name := ← asText (part 0) }
  let cls ← applyCalls request cls fun cls method arg => do
    match method with
    | "parent" => return { cls with parent := some (← asText (arg 0)) }
    | "interface" => return { cls with interfaces := cls.interfaces ++ [← asText (arg 0)] }
    | "type_name" => return { cls with typeName := some (← asText (arg 0)) }
    | "fundamental" => return cls.counted (← asText (arg 0)) (← asText (arg 1))
    | "field" => return { cls with fields := cls.fields ++ [← model Field.read (arg 0)] }
    | "method" => return { cls with methods := cls.methods ++ [← model Callable.read (arg 0)] }
    | "constructor" =>
      return { cls with constructors := cls.constructors ++ [← model Callable.read (arg 0)] }
    | "signal" => return { cls with signals := cls.signals ++ [← model Signal.read (arg 0)] }
    | _ => .error .malformed
  let find ← text? request "find"
  return .obj [("value", cls.toJson), ("hooks", Json.ofOption RefHooks.toJson (classHooks cls)),
    ("found", Json.ofOption Callable.toJson (find.bind cls.findMethod?))]

def interfaceOf (request : Json) (part : Nat → Json) : Decode Json := do
  let interface : Interface := { name := ← asText (part 0) }
  let interface ← applyCalls request interface fun interface method arg => do
    match method with
    | "method" =>
      return { interface with methods := interface.methods ++ [← model Callable.read (arg 0)] }
    | _ => .error .malformed
  return interface.toJson

def enumOf (request : Json) (part : Nat → Json) : Decode Json := do
  let enum : Enum := { name := ← asText (part 0) }
  let enum ← applyCalls request enum fun enum method arg => do
    match method with
    | "member" =>
      let member : Member := ⟨← asText (arg 0), ← model Json.Reader.signed (arg 1)⟩
      return { enum with members := enum.members ++ [member] }
    | _ => .error .malformed
  return enum.toJson

def namespaceOf (request : Json) (part : Nat → Json) : Decode Json := do
  let space : Namespace := { name := ← asText (part 0), libraries := [← asText (part 1)] }
  let space ← applyCalls request space fun space method arg => do
    match method with
    | "class" =>
      return { space with classes := space.classes ++ [← model ObjectClass.read (arg 0)] }
    | "interface" =>
      return { space with interfaces := space.interfaces ++ [← model Interface.read (arg 0)] }
    | "record" => return { space with records := space.records ++ [← model Record.read (arg 0)] }
    | "union" => return { space with unions := space.unions ++ [← model Record.read (arg 0)] }
    | "enum" => return { space with enums := space.enums ++ [← model Enum.read (arg 0)] }
    | "flags" => return { space with flags := space.flags ++ [← model Enum.read (arg 0)] }
    | "callback" =>
      return { space with callbacks := space.callbacks ++ [← model Callback.read (arg 0)] }
    | "function" =>
      return { space with functions := space.functions ++ [← model Callable.read (arg 0)] }
    | _ => .error .malformed
  return .obj [("value", space.toJson), ("library", .str space.library),
    ("qualified", .str (space.qualify "X"))]

/-- Makes a value. The list of calls must be there, also for values that have none. -/
def builder (request : Json) : Decode Json := do
  let part := argument (← list request "new")
  let _ ← list request "calls"
  match ← text request "kind" with
  | "type_ref" => typeRefOf request part
  | "shape" => shapeOf part
  | "field" => fieldOf part
  | "param" => paramOf request part
  | "callable" => callableOf request part
  | "callback" => callbackOf request part
  | "signal" => signalOf request part
  | "record" => recordOf request part
  | "class" => classOf request part
  | "interface" => interfaceOf request part
  | "enum" => enumOf request part
  | "namespace" => namespaceOf request part
  | _ => .error .malformed

end Interop.Service
