import Interop.Number.Power
import Interop.Text.Hex

/-! # Handles

Addresses on the native side, as managed code holds them.
-/

namespace Interop

structure Handle where
  addr : UInt64
  deriving DecidableEq, Repr, Inhabited

namespace Handle

def null : Handle := ⟨0⟩

def isNull (handle : Handle) : Bool := handle.addr == 0

def toNat (handle : Handle) : Nat := handle.addr.toNat

/-- The handle of an address; addresses are taken modulo `2^64`. -/
def ofNat (addr : Nat) : Handle := ⟨UInt64.ofNat addr⟩

/-- The handle some bytes further on, if the address space reaches that far. -/
def offset? (handle : Handle) (bytes : Nat) : Option Handle :=
  if handle.toNat + bytes < twoPow 64 then some (.ofNat (handle.toNat + bytes)) else none

def text (handle : Handle) : String := Hex.marked handle.toNat

def debugText (handle : Handle) : String := "NativeHandle(" ++ handle.text ++ ")"

@[simp] theorem toNat_ofNat_of_lt {addr : Nat} (h : addr < twoPow 64) :
    (ofNat addr).toNat = addr :=
  UInt64.toNat_ofNat_of_lt' h

theorem toNat_ofNat_le (addr : Nat) : (ofNat addr).toNat ≤ addr := by
  rw [ofNat, toNat, UInt64.toNat_ofNat']
  exact Nat.mod_le _ _

theorem isNull_eq_false_iff {handle : Handle} : handle.isNull = false ↔ 0 < handle.toNat := by
  rw [isNull, beq_eq_false_iff_ne, toNat, Nat.pos_iff_ne_zero, ne_eq, ne_eq, not_congr]
  exact UInt64.toNat_inj.symm

end Handle

end Interop
