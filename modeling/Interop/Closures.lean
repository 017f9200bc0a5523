import Interop.Schema.Callable

/-! # The table of live callbacks

Managed callbacks that native code may still invoke are kept under a token. Tokens count up from
one and are never handed out twice. Callbacks of scope `async` get a token and are not kept: native
code owns them until it invokes them.
-/

namespace Interop

open Schema

/-- Live callbacks by token; `Fn` is what stands for a callback. -/
structure ClosureTable (Fn : Type) where
  next : Nat := 1
  live : List (Nat × Fn) := []
  deriving Inhabited

namespace ClosureTable

variable {Fn : Type}

/-- Hands out a token and keeps the callback unless its scope is `async`. Fewer than `2^64` tokens
are handed out, so that counting does not wrap around. -/
def register (table : ClosureTable Fn) (callback : Fn) (scope : CallbackScope) :
    Nat × ClosureTable Fn :=
  (table.next, {
    next := table.next + 1
    live := if scope = .async then table.live else (table.next, callback) :: table.live })

def get? (table : ClosureTable Fn) (token : Nat) : Option Fn := table.live.lookup token

def contains (table : ClosureTable Fn) (token : Nat) : Bool := (table.get? token).isSome

def remove (table : ClosureTable Fn) (token : Nat) : ClosureTable Fn :=
  { table with live := table.live.filter fun entry => entry.1 != token }

def size (table : ClosureTable Fn) : Nat := table.live.length

def isEmpty (table : ClosureTable Fn) : Bool := table.live.isEmpty

end ClosureTable

end Interop
