import Interop.Proofs.Bridge.Permits
import Interop.Proofs.Memory.Counts

/-! # Native memory as its users find it

Memory is allocated, counted, given back, read and written in any order, also where it fails. Blocks
keep their distance all the time, an address leads to the block it lies in and to no other, and one
in a block that has been freed leads nowhere from then on. A block has a reference unless so many
were added that its count has wrapped around, and then it may have none. Addresses are natural
numbers here: nothing is said about a native heap of `2^64` bytes.
-/

namespace Interop

open Relation Steps

variable {H : Host}

namespace Bridge

/-- What can be done with native memory. A reference is given back without an unref function. -/
inductive MemoryAction where
  | alloc (size : Nat) (typeName library : Option String)
  | addRef (handle : Handle)
  | release (handle : Handle)
  | read (handle : Handle) (descriptor : Descriptor) (offset : Nat)
  | write (handle : Handle) (descriptor : Descriptor) (offset : Nat) (value : Value)

namespace MemoryAction

/-- The state in which an action ends, whether it succeeds or fails. -/
def perform (env : Env H) (bridge : Bridge H) : MemoryAction → Bridge H
  | alloc size typeName library => ending (Bridge.alloc size typeName library bridge)
  | addRef handle =>
    match bridge.heap.addRef handle with
    | .ok (_, heap) => { bridge with heap }
    | .error _ => bridge
  | release handle => ending (Bridge.release env handle none bridge)
  | read handle descriptor offset => ending (Bridge.read handle descriptor offset bridge)
  | write handle descriptor offset value =>
    ending (Bridge.write handle descriptor offset value bridge)

/-- The state after actions on a heap without blocks. -/
def performAll (env : Env H) (bridge : Bridge H) (actions : List MemoryAction) : Bridge H :=
  actions.foldl (perform env) { bridge with heap := {} }

variable (env : Env H)

/-- References that are added to the only block add up, modulo `2^32`. -/
theorem blocks_replicate_addRef {bridge : Bridge H} {block : Block} {handle : Handle}
    (hblocks : bridge.heap.blocks = [block]) (hhandle : block.base = handle.toNat) (count : Nat) :
    ((List.replicate count (.addRef handle)).foldl (perform env) bridge).heap.blocks =
      [{ block with refs := block.refs + .ofNat count }] := by
  induction count generalizing bridge block with
  | zero => simpa using hblocks
  | succ count ih =>
      have hfound : bridge.heap.block? handle = some block := by
        rw [Heap.block?, hblocks]
        exact List.find?_cons_of_pos (beq_iff_eq.2 hhandle)
      have hadded : ((addRef handle).perform env bridge).heap.blocks =
          [{ block with refs := block.refs + 1 }] := by
        simp only [perform, Heap.addRef, hfound, Heap.modifyBlock, hblocks, Heap.modifyFirst,
          beq_self_eq_true, if_true]
      rw [List.replicate_succ, List.foldl_cons, ih hadded hhandle, UInt32.ofNat_add]
      dsimp only
      rw [UInt32.add_assoc, UInt32.add_comm 1]
      rfl

/-- So the first block has none after so many more that its count wraps around, and is still
there. -/
theorem blocks_wrapped_around (bridge : Bridge H) :
    (performAll env bridge (.alloc 8 none none ::
        List.replicate (UInt32.size - 1) (.addRef (.ofNat 0x1000)))).heap.blocks =
      [{ base := 0x1000, size := 8, typeName := none, refs := 0 }] := by
  have hmade : ((alloc 8 none none).perform env { bridge with heap := {} }).heap.blocks =
      [{ base := 0x1000, size := 8, typeName := none, refs := 1 }] := rfl
  rw [performAll, List.foldl_cons, blocks_replicate_addRef env hmade rfl]
  rfl

end MemoryAction

open MemoryAction

end Bridge

end Interop
