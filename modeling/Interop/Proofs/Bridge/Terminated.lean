import Interop.Bridge.Lift
import Interop.Proofs.Bridge.Permits
import Interop.Proofs.Memory.Access

/-! # Arrays that end with a zero

How many elements an array has is found out by reading one after the other until one is zero.
Nothing in the array says how far that may go. But each element lies further on than the one before
it, and what does not lie in the block of the array is not read, so the scan comes to an end in
every heap: at the first zero, or with an error if there is none.
-/

namespace Interop

open Schema Steps

/-! ## What ends an array -/

/-- Nothing, false, or a zero of some kind; a double can be zero with either sign. -/
def Value.Vanishes (value : Value) : Prop :=
  value = .null ∨ value = .bool false ∨ value = .int 0 ∨ value = .uint 0 ∨ value = .float 0 ∨
    value = .float 0x8000000000000000 ∨ value = .pointer .null

theorem Binary.isZero_iff {bits : UInt64} :
    isZero bits = true ↔ bits = 0 ∨ bits = 0x8000000000000000 := by
  rw [isZero, beq_iff_eq, ← UInt64.toNat_inj, ← UInt64.toNat_inj, ← UInt64.toNat_inj,
    UInt64.toNat_shiftLeft, Nat.shiftLeft_eq]
  have hlt := bits.toNat_lt
  simp only [UInt64.reduceToNat, Nat.reduceMod, Nat.reducePow]
  omega

theorem Value.isZero_iff {value : Value} : value.isZero = true ↔ value.Vanishes := by
  cases value with
  | null => simp [isZero, Vanishes]
  | bool flag => cases flag <;> simp [isZero, Vanishes]
  | int | uint => simp [isZero, Vanishes]
  | float bits => simp [isZero, Vanishes, Binary.isZero_iff]
  | pointer handle =>
      obtain ⟨addr⟩ := handle
      simp [isZero, Vanishes, Handle.isNull, Handle.null]
  | string | object | array | callback => simp [isZero, Vanishes]

/-- No bytes are a zero of any kind. -/
theorem PrimitiveKind.isZero_decode_nil (kind : PrimitiveKind) :
    (kind.decode []).isZero = true := by
  cases kind <;> rfl

/-- The elements of arrays that are read one by one: numbers, texts, and what is reached by its
address. -/
def Descriptor.isEntry : Descriptor → Bool
  | .primitive .. | .string _ | .boxed .. | .object .. | .struct _ _ _ false _ => true
  | _ => false

namespace Heap

variable {heap other : Heap} {base : Handle} {element : Descriptor}
  {stride offset index last : Nat} {value : Value} {error : DispatchError}

/-! ## Reading one element -/

/-- The value of an element whose bytes are given. Only texts are looked up elsewhere. -/
def entry (heap : Heap) (element : Descriptor) (bytes : List UInt8) :
    Except DispatchError Value :=
  let target := Handle.ofNat (littleEndian bytes)
  match element with
  | .primitive kind _ => .ok (kind.decode bytes)
  | .string _ => if target.isNull then .ok .null else .string <$> heap.readText target
  | _ => .ok (if target.isNull then .null else .pointer target)

/-- An element is read from its own bytes in the block of the array. -/
theorem read_eq_bytes_bind (hnull : base.isNull = false) (hentry : element.isEntry = true)
    (offset : Nat) : heap.read base element offset =
      heap.bytes base offset (element.slotSize pointerSize) >>= heap.entry element := by
  unfold read
  rw [hnull, if_neg Bool.false_ne_true]
  cases element with
  | primitive kind size => rfl
  | string ownership =>
      dsimp only [readPointer, Descriptor.slotSize]
      cases heap.bytes base offset pointerSize with
      | error => rfl
      | ok bytes =>
          dsimp only [bind, Except.bind, pure, Except.pure, entry]
          split
          next => rfl
          next => cases heap.readText (.ofNat (littleEndian bytes)) <;> rfl
  | boxed | object =>
      dsimp only [readPointer, Descriptor.slotSize]
      cases heap.bytes base offset pointerSize <;> rfl
  | struct innerType library size inPlace ownership =>
      cases inPlace with
      | true => cases hentry
      | false =>
          dsimp only [readPointer, Descriptor.slotSize]
          cases heap.bytes base offset pointerSize <;> rfl
  | callback | array | reference | null => cases hentry

theorem exists_bytes_of_read (hnull : base.isNull = false) (hentry : element.isEntry = true)
    (h : heap.read base element offset = .ok value) :
    ∃ bytes, heap.bytes base offset (element.slotSize pointerSize) = .ok bytes ∧
      heap.entry element bytes = .ok value := by
  rw [read_eq_bytes_bind hnull hentry] at h
  cases hbytes : heap.bytes base offset (element.slotSize pointerSize) with
  | error error =>
      rw [hbytes] at h
      cases h
  | ok bytes =>
      rw [hbytes] at h
      exact ⟨bytes, rfl, h⟩

/-- An element that is read lies in the block of the array. -/
theorem exists_block_of_read (hnull : base.isNull = false) (hentry : element.isEntry = true)
    (h : heap.read base element offset = .ok value) :
    ∃ block, heap.locate? base.toNat = some block ∧
      base.toNat - block.base + offset + element.slotSize pointerSize ≤ block.size := by
  obtain ⟨bytes, hbytes, _⟩ := exists_bytes_of_read hnull hentry h
  obtain ⟨block, hlocate, hfits, _⟩ := of_bytes_eq_ok hbytes
  exact ⟨block, hlocate, hfits⟩

/-- An element of no size is zero. -/
theorem slotSize_pos_of_read (hnull : base.isNull = false) (hentry : element.isEntry = true)
    (h : heap.read base element offset = .ok value) (hzero : value.isZero = false) :
    0 < element.slotSize pointerSize := by
  refine Nat.pos_of_ne_zero fun hsize => ?_
  obtain ⟨bytes, hbytes, h⟩ := exists_bytes_of_read hnull hentry h
  obtain rfl := List.eq_nil_of_length_eq_zero ((length_of_bytes_eq_ok hbytes).trans hsize)
  cases element with
  | primitive kind size =>
      cases h
      rw [PrimitiveKind.isZero_decode_nil] at hzero
      cases hzero
  | struct innerType library size inPlace ownership =>
      cases inPlace with
      | true => cases hentry
      | false => cases hsize
  | string | boxed | object => cases hsize
  | callback | array | reference | null => cases hentry

/-- How many bytes the block has that an address lies in. -/
def sizeAt (heap : Heap) (base : Handle) : Nat := (heap.locate? base.toNat).elim 0 (·.size)

/-- The element of an array at an index, in a row of slots that start so many bytes apart. -/
def entryAt (heap : Heap) (base : Handle) (element : Descriptor) (stride index : Nat) :
    Except DispatchError Value :=
  heap.read base element (index * stride)

/-- There are no more elements before the zero than the block has bytes. -/
theorem lt_sizeAt_of_entryAt (hnull : base.isNull = false) (hentry : element.isEntry = true)
    (hstride : 0 < stride) (h : heap.entryAt base element stride index = .ok value)
    (hzero : value.isZero = false) : index < heap.sizeAt base := by
  obtain ⟨block, hlocate, hfits⟩ := exists_block_of_read hnull hentry h
  have hsize := slotSize_pos_of_read hnull hentry h hzero
  have hle := Nat.le_mul_of_pos_right index hstride
  rw [sizeAt, hlocate]
  dsimp only [Option.elim]
  omega

/-- Another heap has the same block there, and the same texts where its elements point. -/
structure SeesAlike (heap other : Heap) (base : Handle) (element : Descriptor) (stride : Nat) :
    Prop where
  locate?_eq : other.locate? base.toNat = heap.locate? base.toNat
  readText_eq : ∀ ownership, element = .string ownership → ∀ index target,
    heap.readPointer base (index * stride) = .ok target → target.isNull = false →
      other.readText target = heap.readText target

/-- Nothing but the block of the array and its texts decides what its elements are. -/
theorem SeesAlike.entryAt_eq (h : SeesAlike heap other base element stride)
    (hnull : base.isNull = false) (hentry : element.isEntry = true) :
    other.entryAt base element stride = heap.entryAt base element stride := by
  funext index
  have hbytes : ∀ size, other.bytes base (index * stride) size =
      heap.bytes base (index * stride) size := by
    intro size
    rw [bytes, bytes, span, span, h.locate?_eq]
  rw [entryAt, entryAt, read_eq_bytes_bind hnull hentry, read_eq_bytes_bind hnull hentry, hbytes]
  cases hthere : heap.bytes base (index * stride) (element.slotSize pointerSize) with
  | error error => rfl
  | ok bytes =>
      change other.entry element bytes = heap.entry element bytes
      cases element with
      | string ownership =>
          have hpointer : heap.readPointer base (index * stride) =
              .ok (.ofNat (littleEndian bytes)) := by
            rw [readPointer]
            exact congrArg (· >>= _) hthere
          rw [entry, entry]
          cases hnull : (Handle.ofNat (littleEndian bytes)).isNull with
          | true => rfl
          | false => rw [h.readText_eq ownership rfl index _ hpointer hnull]
      | _ => rfl

end Heap

/-! ## Scans -/

/-- How the scan ends that looks for the first zero element from an index on. Nothing keeps it from
going on forever, in which case it does not end at all. -/
inductive Scans (elementAt : Nat → Except DispatchError Value) :
    Nat → Except DispatchError Nat → Prop
  | failed {index : Nat} {error : DispatchError} (h : elementAt index = .error error) :
      Scans elementAt index (.error error)
  | found {index : Nat} {value : Value} (h : elementAt index = .ok value)
      (hzero : value.isZero = true) : Scans elementAt index (.ok index)
  | next {index : Nat} {value : Value} {result : Except DispatchError Nat}
      (h : elementAt index = .ok value) (hzero : value.isZero = false)
      (rest : Scans elementAt (index + 1) result) : Scans elementAt index result

/-- The elements from one index up to another are there and are not zero, and the last one is. -/
structure EndsAt (elementAt : Nat → Except DispatchError Value) (first last : Nat) : Prop where
  le : first ≤ last
  before : ∀ index, first ≤ index → index < last →
    ∃ value, elementAt index = .ok value ∧ ¬ value.Vanishes
  zero : ∃ value, elementAt last = .ok value ∧ value.Vanishes

section Round

/-! What one round of a scan does: it fails, or it ends at its first element, or it goes on with the
next one. -/

variable {elementAt : Nat → Except DispatchError Value} {index last : Nat} {value : Value}
  {error : DispatchError}

/-- A scan ends in one way only. -/
theorem Scans.unique {result other : Except DispatchError Nat} (h : Scans elementAt index result)
    (hother : Scans elementAt index other) : other = result := by
  induction h with
  | failed h =>
      cases hother with
      | failed hread => exact congrArg Except.error (Except.error.inj (hread.symm.trans h))
      | found hread _ | next hread _ _ => cases h.symm.trans hread
  | found h hzero =>
      cases hother with
      | failed hread => cases h.symm.trans hread
      | found => rfl
      | next hread hthere _ =>
          cases h.symm.trans hread
          cases hzero.symm.trans hthere
  | next h hzero _ ih =>
      cases hother with
      | failed hread => cases h.symm.trans hread
      | found hread hthere =>
          cases h.symm.trans hread
          cases hzero.symm.trans hthere
      | next _ _ rest => exact ih rest

theorem not_endsAt_of_error (h : elementAt index = .error error) :
    ¬ EndsAt elementAt index last := by
  intro hends
  rcases Nat.lt_or_eq_of_le hends.le with hlt | rfl
  · obtain ⟨value, hread, _⟩ := hends.before index (Nat.le_refl _) hlt
    cases h.symm.trans hread
  · obtain ⟨value, hread, _⟩ := hends.zero
    cases h.symm.trans hread

theorem endsAt_iff_of_zero (h : elementAt index = .ok value) (hzero : value.isZero = true) :
    EndsAt elementAt index last ↔ index = last := by
  constructor
  · intro hends
    refine (Nat.lt_or_eq_of_le hends.le).resolve_left fun hlt => ?_
    obtain ⟨found, hread, hthere⟩ := hends.before index (Nat.le_refl _) hlt
    cases h.symm.trans hread
    exact hthere (Value.isZero_iff.1 hzero)
  · rintro rfl
    exact ⟨Nat.le_refl _, fun _ hle hlt => absurd hlt (Nat.not_lt_of_le hle),
      value, h, Value.isZero_iff.1 hzero⟩

theorem endsAt_iff_of_nonzero (h : elementAt index = .ok value) (hzero : value.isZero = false) :
    EndsAt elementAt index last ↔ EndsAt elementAt (index + 1) last := by
  have hthere : ¬ value.Vanishes := mt Value.isZero_iff.2 (Bool.eq_false_iff.1 hzero)
  constructor
  · intro hends
    refine ⟨Nat.lt_of_le_of_ne hends.le ?_, fun other hle => hends.before other (by omega),
      hends.zero⟩
    rintro rfl
    obtain ⟨found, hread, hfound⟩ := hends.zero
    cases h.symm.trans hread
    exact hthere hfound
  · intro hends
    refine ⟨by have := hends.le; omega, fun other hle hlt => ?_, hends.zero⟩
    rcases Nat.lt_or_eq_of_le hle with hlater | rfl
    · exact hends.before other hlater hlt
    · exact ⟨value, h, hthere⟩

end Round

namespace Bridge

variable {H : Host} {bridge : Bridge H} {base : Handle} {element : Descriptor}
  {stride index bound : Nat}

/-- The scan ends, at the zero if there is one and else with an error. By induction over the number
of elements that may be looked at: as long as there is no zero, an element lies in the block. -/
theorem findEnd_scans (bridge : Bridge H) (hnull : base.isNull = false)
    (hentry : element.isEntry = true) (hstride : 0 < stride)
    (hindex : index ≤ bridge.heap.sizeAt base) (hbound : bridge.heap.sizeAt base < index + bound) :
    ∃ result, Scans (bridge.heap.entryAt base element stride) index result ∧
      findEnd base element stride index bound bridge =
        (MonadExcept.ofExcept result : Native H Nat) bridge ∧
      ∀ last, result = .ok last ↔ EndsAt (bridge.heap.entryAt base element stride) index last := by
  induction bound generalizing index with
  | zero => omega
  | succ bound ih =>
      cases hthere : bridge.heap.entryAt base element stride index with
      | error error =>
          have hread : read base element (index * stride) bridge = .error error bridge := by
            rw [read_eq, ← Heap.entryAt, hthere]
            rfl
          refine ⟨.error error, .failed hthere, bind_eq_of_eq_error hread, fun last => ?_⟩
          exact ⟨fun h => (nomatch h), fun h => absurd h (not_endsAt_of_error hthere)⟩
      | ok value =>
          have hread : read base element (index * stride) bridge = .ok value bridge := by
            rw [read_eq, ← Heap.entryAt, hthere]
            rfl
          have hround : findEnd base element stride index (bound + 1) bridge =
              (if value.isZero then pure index else
                findEnd base element stride (index + 1) bound : Native H Nat) bridge :=
            bind_eq_of_eq_ok hread
          cases hzero : value.isZero with
          | true =>
              rw [hround, hzero]
              refine ⟨.ok index, .found hthere hzero, rfl, fun last => ?_⟩
              rw [endsAt_iff_of_zero hthere hzero, Except.ok.injEq]
          | false =>
              have hlt := Heap.lt_sizeAt_of_entryAt hnull hentry hstride hthere hzero
              obtain ⟨result, hrest, hfind, hends⟩ := ih hlt (by omega)
              rw [hround, hzero]
              refine ⟨result, .next hthere hzero hrest, hfind, fun last => ?_⟩
              rw [endsAt_iff_of_nonzero hthere hzero, hends]

theorem terminatedLength_eq_findEnd (hentry : element.isEntry = true) (hstride : 0 < stride) :
    terminatedLength base element stride bridge =
      findEnd base element stride 0 (bridge.heap.sizeAt base + 1) bridge := by
  have hne : (stride == 0) = false := beq_false_of_ne (Nat.ne_of_gt hstride)
  unfold terminatedLength
  cases element with
  | primitive | string | boxed | object =>
      rw [hne, Bool.or_false, if_neg Bool.false_ne_true]
      rfl
  | struct innerType library size inPlace ownership =>
      cases inPlace with
      | true => cases hentry
      | false =>
          rw [hne, Bool.or_false, if_neg Bool.false_ne_true]
          rfl
  | callback | array | reference | null => cases hentry

theorem exists_scans (bridge : Bridge H) (hnull : base.isNull = false)
    (hentry : element.isEntry = true) (hstride : 0 < stride) :
    ∃ result, Scans (bridge.heap.entryAt base element stride) 0 result ∧
      terminatedLength base element stride bridge =
        (MonadExcept.ofExcept result : Native H Nat) bridge ∧
      ∀ count, result = .ok count ↔
        EndsAt (bridge.heap.entryAt base element stride) 0 count := by
  rw [terminatedLength_eq_findEnd hentry hstride]
  exact findEnd_scans bridge hnull hentry hstride (Nat.zero_le _) (by omega)

/-- Looking for the zero that ends an array comes to an end whatever is in memory, though nothing
says how far to look. It gives the place of the first element that is zero, and an error if there is
none before one that is not there. All elements that are read lie in the block of the array, and
nothing else has a say in the outcome but the texts that they point at. -/
theorem terminatedLength_scans (bridge : Bridge H) (hnull : base.isNull = false)
    (hentry : element.isEntry = true) (hstride : 0 < stride) :
    let elementAt := bridge.heap.entryAt base element stride
    ∃ result, Scans elementAt 0 result ∧ (∀ other, Scans elementAt 0 other → other = result) ∧
      terminatedLength base element stride bridge =
        (MonadExcept.ofExcept result : Native H Nat) bridge ∧
      (∀ count, result = .ok count ↔ EndsAt elementAt 0 count) ∧
      ((∀ count, ¬ EndsAt elementAt 0 count) → ∃ error, result = .error error) ∧
      (∀ index value, elementAt index = .ok value →
        ∃ block, bridge.heap.locate? base.toNat = some block ∧
          base.toNat - block.base + index * stride + element.slotSize Heap.pointerSize ≤
            block.size) ∧
      ∀ other : Bridge H, bridge.heap.SeesAlike other.heap base element stride →
        terminatedLength base element stride other =
          (MonadExcept.ofExcept result : Native H Nat) other := by
  obtain ⟨result, hscan, hlength, hends⟩ := exists_scans bridge hnull hentry hstride
  refine ⟨result, hscan, fun other => hscan.unique, hlength, hends, fun hnone => ?_,
    fun index value => Heap.exists_block_of_read hnull hentry, fun other halike => ?_⟩
  · cases result with
    | error error => exact ⟨error, rfl⟩
    | ok count => exact absurd ((hends count).1 rfl) (hnone count)
  · -- the other scan looks at the same elements, and a scan has only one outcome
    obtain ⟨result', hscan', hlength', _⟩ := exists_scans other hnull hentry hstride
    rw [halike.entryAt_eq hnull hentry] at hscan'
    obtain rfl := hscan.unique hscan'
    exact hlength'

/-- A program with a block of so many bytes, the first of which are the numbers 5 and 9. -/
def numbers (size : Nat) : Bridge silent :=
  { start () with
    heap.blocks := [{
      base := 0x1000
      size
      bytes := Bytes.overwrite ∅ 0 [5, 0, 0, 0, 9, 0, 0, 0]
      typeName := none
      refs := 1 }] }

/-- If there is room for a third number then it is zero, and two come before it. A block that ends
with the second one gives an error, since the array in it does not end. -/
theorem terminatedLength_scans_numbers :
    EndsAt ((numbers 12).heap.entryAt (.ofNat 0x1000) (.primitive .int32 4) 4) 0 2 ∧
      failure? (terminatedLength (.ofNat 0x1000) (.primitive .int32 4) 4 (numbers 8)) =
        some (.outOfBounds (.ofNat 0x1000) 8 4) ∧
      ∀ count, ¬ EndsAt ((numbers 8).heap.entryAt (.ofNat 0x1000) (.primitive .int32 4) 4) 0 count
    := by
  have hnull : (Handle.ofNat 0x1000).isNull = false := rfl
  have hentry : (Descriptor.primitive .int32 4).isEntry = true := rfl
  have hstride : 0 < 4 := by decide
  have hended : value? (terminatedLength (.ofNat 0x1000) (.primitive .int32 4) 4 (numbers 12)) =
      some 2 := by decide +kernel
  have hopen : failure? (terminatedLength (.ofNat 0x1000) (.primitive .int32 4) 4 (numbers 8)) =
      some (.outOfBounds (.ofNat 0x1000) 8 4) := by decide +kernel
  refine ⟨?_, hopen, fun count hends => ?_⟩
  · obtain ⟨result, _, _, hlength, hends, _⟩ := terminatedLength_scans (numbers 12) hnull
      hentry hstride
    rw [hlength] at hended
    cases result with
    | error error => cases hended
    | ok count =>
        cases hended
        exact (hends 2).1 rfl
  · obtain ⟨result, _, _, hlength, hiff, _⟩ := terminatedLength_scans (numbers 8) hnull
      hentry hstride
    rw [hlength, (hiff count).2 hends] at hopen
    cases hopen

end Bridge

end Interop
