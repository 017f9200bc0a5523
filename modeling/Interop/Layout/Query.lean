import Interop.Layout.Calculator

/-! # Questions to a calculator

Everything that a calculator can be asked, one question after the other, and the answers of the
plain expansion to compare with.
-/

namespace Interop

open Schema

inductive LayoutQuery where
  | typeLayout (qualified : String)
  | typeSize (qualified : String)
  | recordShape (qualified : String)
  /-- The fields of a record of the given kind, hidden ones on request. -/
  | fields (space : String) (kind : RecordKind) (fields : List Field) (hidden : Bool)
  | recordSize (space : String) (kind : RecordKind) (fields : List Field)
  | fieldType (space : String) (type : TypeRef)
  | element (space : String) (type : TypeRef)
  deriving DecidableEq, Repr, Inhabited

inductive LayoutAnswer where
  | layout (layout : Option TypeLayout)
  | size (size : Nat)
  | shape (shape : Option RecordShape)
  | fields (fields : List FieldLayout)
  deriving DecidableEq, Repr, Inhabited

/-- The answer of the plain expansion. -/
def Platform.answer (platform : Platform) : LayoutQuery → LayoutAnswer
  | .typeLayout qualified => .layout (platform.typeLayout? qualified)
  | .typeSize qualified => .size (platform.typeSize qualified)
  | .recordShape qualified => .shape (platform.recordShape? qualified)
  | .fields space kind fields hidden =>
    let placed := (platform.place [] space kind fields).1
    .fields (if hidden then placed else Compound.shownOnly fields placed)
  | .recordSize space kind fields => .size (platform.place [] space kind fields).2.size
  | .fieldType space type => .layout (some (platform.fieldTypeLayout space type))
  | .element space type => .layout (some (platform.elementLayout space type))

namespace Calculator

def answer (calculator : Calculator) : LayoutQuery → LayoutAnswer × Calculator
  | .typeLayout qualified => (calculator.typeLayout? qualified).map .layout id
  | .typeSize qualified => (calculator.typeSize qualified).map .size id
  | .recordShape qualified => (calculator.recordShape? qualified).map .shape id
  | .fields space kind fields hidden => (calculator.layout space kind fields hidden).map .fields id
  | .recordSize space kind fields => (calculator.recordSize space kind fields).map .size id
  | .fieldType space type => (calculator.fieldTypeLayout space type).map (.layout ∘ some) id
  | .element space type => (calculator.elementLayout space type).map (.layout ∘ some) id

/-- The answers to questions asked one after the other. -/
def answers (calculator : Calculator) : List LayoutQuery → List LayoutAnswer × Calculator
  | [] => ([], calculator)
  | query :: rest =>
    let (first, calculator) := calculator.answer query
    let (others, calculator) := calculator.answers rest
    (first :: others, calculator)

end Calculator

end Interop
