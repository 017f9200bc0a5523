/-! # Kinds of wrapped objects and transfer of ownership -/

namespace Interop

/-- What kind of native thing a wrapper stands for. -/
inductive ObjectKind where
  | gobject
  | boxed
  | fundamental
  | struct
  | interface
  deriving DecidableEq, Repr, Inhabited

namespace ObjectKind

def all : List ObjectKind := [gobject, boxed, fundamental, struct, interface]

def name : ObjectKind → String
  | gobject => "gobject"
  | boxed => "boxed"
  | fundamental => "fundamental"
  | struct => "struct"
  | interface => "interface"

/-- Natives of these kinds keep one managed face for as long as they live. -/
def preservesIdentity : ObjectKind → Bool
  | gobject | fundamental | interface => true
  | boxed | struct => false

/-- Wrappers of these kinds are found again by their handle; a struct stored inside another may
share its handle with it and is therefore never looked up. -/
def usesIdentityTable : ObjectKind → Bool
  | struct => false
  | _ => true

/-- Natives of these kinds are given back by dropping one reference. -/
def isReferenceCounted : ObjectKind → Bool
  | gobject | fundamental | interface => true
  | boxed | struct => false

end ObjectKind

/-- Who must give back a value that crosses the boundary. -/
inductive Ownership where
  | full
  | none
  | borrowed
  deriving DecidableEq, Repr, Inhabited

namespace Ownership

def all : List Ownership := [full, none, borrowed]

def name : Ownership → String
  | full => "full"
  | none => "none"
  | borrowed => "borrowed"

/-- Only a full transfer hands a reference over. -/
def transfersReference : Ownership → Bool
  | full => true
  | none | borrowed => false

end Ownership

end Interop
