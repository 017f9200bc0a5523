import Interop.Layout.Basic
import Interop.Handle
import Interop.Memory.Block
import Interop.Text.Utf8

/-! # The native heap

Blocks of bytes at rising addresses. An address is never used twice, and there is a gap between any
two blocks, so a handle to a block that is gone leads nowhere.
-/

namespace Interop

/-- Why native code could not be reached or did not do its work. -/
inductive DispatchError where
  | libraryNotFound (library : String)
  | symbolNotFound (library symbol : String)
  | invalidHandle (handle : Handle)
  | outOfBounds (handle : Handle) (offset size : Nat)
  | typeMismatch (expected actual : String)
  | argumentCount (symbol : String) (expected actual : Nat)
  | unsupported (what : String)
  deriving DecidableEq, Repr, Inhabited

namespace DispatchError

def kindName : DispatchError → String
  | libraryNotFound _ => "LibraryNotFound"
  | symbolNotFound .. => "SymbolNotFound"
  | invalidHandle _ => "InvalidHandle"
  | outOfBounds .. => "OutOfBounds"
  | typeMismatch .. => "TypeMismatch"
  | argumentCount .. => "ArgumentCount"
  | unsupported _ => "Unsupported"

def message : DispatchError → String
  | libraryNotFound library => "library not found: '" ++ library ++ "'"
  | symbolNotFound library symbol => "symbol '" ++ symbol ++ "' not found in '" ++ library ++ "'"
  | invalidHandle handle => "invalid handle " ++ handle.text
  | outOfBounds handle offset size =>
    "access of " ++ toString size ++ " bytes at offset " ++ toString offset ++
      " is out of bounds for " ++ handle.text
  | typeMismatch expected actual => "type mismatch: expected " ++ expected ++ ", got " ++ actual
  | argumentCount symbol expected actual =>
    "'" ++ symbol ++ "' expects " ++ toString expected ++ " arguments, got " ++ toString actual
  | unsupported what => "unsupported descriptor: " ++ what

end DispatchError

structure Heap where
  /-- The live blocks, the one with the highest address first. -/
  blocks : List Block := []
  next : Nat := 0x1000
  deriving Inhabited

namespace Heap

/-- Blocks start at multiples of this, and at least this many bytes lie between two of them. -/
def alignment : Nat := 16

def pointerSize : Nat := 8

/-- A new block of zeros, of at least one byte. -/
def alloc (heap : Heap) (size : Nat) (typeName : Option String) : Handle × Heap :=
  let block : Block := { base := heap.next, size := max size 1, typeName, refs := 1 }
  (.ofNat heap.next, {
    blocks := block :: heap.blocks
    next := alignUp (heap.next + block.size + alignment) alignment })

def block? (heap : Heap) (handle : Handle) : Option Block :=
  heap.blocks.find? (·.base == handle.toNat)

/-- The block that an address lies in: the highest one that starts at or before it, if it reaches
that far. -/
def locate? (heap : Heap) (addr : Nat) : Option Block :=
  (heap.blocks.find? (·.base ≤ addr)).filter fun block => addr < block.base + block.size

/-- The block of a handle and the place in it of a range of bytes, all of which must be there. -/
def span (heap : Heap) (handle : Handle) (offset size : Nat) :
    Except DispatchError (Block × Nat) :=
  match heap.locate? handle.toNat with
  | none => .error (.invalidHandle handle)
  | some block =>
    let start := handle.toNat - block.base + offset
    if start + size ≤ block.size then .ok (block, start)
    else .error (.outOfBounds handle offset size)

def bytes (heap : Heap) (handle : Handle) (offset size : Nat) :
    Except DispatchError (List UInt8) := do
  let (block, start) ← heap.span handle offset size
  return block.bytes.slice start size

/-- Changes the first block of a list that starts at an address. -/
def modifyFirst (base : Nat) (f : Block → Block) : List Block → List Block
  | [] => []
  | block :: rest =>
    if block.base == base then f block :: rest else block :: modifyFirst base f rest

def modifyBlock (heap : Heap) (base : Nat) (f : Block → Block) : Heap :=
  { heap with blocks := modifyFirst base f heap.blocks }

def store (heap : Heap) (handle : Handle) (offset : Nat) (new : List UInt8) :
    Except DispatchError Heap := do
  let (block, start) ← heap.span handle offset new.length
  return heap.modifyBlock block.base (·.write start new)

/-- A new block that holds a text and the zero behind it. -/
def allocText (heap : Heap) (text : String) : Handle × Heap :=
  let (handle, heap) := heap.alloc ((Utf8.encode text).length + 1) none
  (handle, heap.modifyBlock handle.toNat (·.write 0 (Utf8.encode text)))

/-- The text at an address, up to the next zero byte in its block. -/
def readText (heap : Heap) (handle : Handle) : Except DispatchError String :=
  match heap.locate? handle.toNat with
  | none => .error (.invalidHandle handle)
  | some block =>
    let start := handle.toNat - block.base
    match block.bytes.firstZero? start (block.size - start) with
    | some stop => .ok (Utf8.decode (block.bytes.slice start (stop - start)))
    | none => .error (.outOfBounds handle 0 (block.size - start + 1))

/-- One more reference to the block that starts at an address; also the new count, which wraps
around. -/
def addRef (heap : Heap) (handle : Handle) : Except DispatchError (UInt32 × Heap) :=
  match heap.block? handle with
  | none => .error (.invalidHandle handle)
  | some block =>
    .ok (block.refs + 1,
      heap.modifyBlock block.base fun block => { block with refs := block.refs + 1 })

/-- One reference less; without any the block is gone. -/
def unref (heap : Heap) (handle : Handle) : Except DispatchError Heap :=
  match heap.block? handle with
  | none => .error (.invalidHandle handle)
  | some block =>
    if block.refs ≤ 1 then
      .ok { heap with blocks := heap.blocks.filter fun other => other.base != block.base }
    else .ok (heap.modifyBlock block.base fun block => { block with refs := block.refs - 1 })

/-- How many references the block has that starts at an address. -/
def refCount? (heap : Heap) (handle : Handle) : Option UInt32 :=
  (heap.block? handle).map (·.refs)

def isLive (heap : Heap) (handle : Handle) : Bool := (heap.locate? handle.toNat).isSome

/-- The type name of the block that starts at an address. -/
def typeOf? (heap : Heap) (handle : Handle) : Option String :=
  (heap.block? handle).bind (·.typeName)

def size (heap : Heap) : Nat := heap.blocks.length

end Heap

end Interop
