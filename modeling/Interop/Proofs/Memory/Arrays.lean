import Interop.Proofs.Memory.Frame
import Interop.Proofs.Memory.RoundTrip

/-! # Arrays of scalars

The items of an array are written one behind the other into a block that is made for them, and each
text goes into a block of its own behind it. As long as these blocks are left alone every slot holds
its item, and a slot behind the items holds zeros.
-/

namespace Interop

namespace Heap

variable {heap middle heap' heap'' : Heap} {handle : Handle} {element descriptor : Descriptor}
  {value item : Value} {items : List Value} {offset size stride index start bound count : Nat}
  {touched : Set Nat} {new : List UInt8}

/-! ## Blocks that are kept -/

/-- The blocks from a bound on are still there, alike but for bytes at some addresses. -/
def KeepsFrom (start : Nat) (touched : Set Nat) (heap heap' : Heap) : Prop :=
  ∀ block ∈ heap.blocks, start ≤ block.base → ∃ block' ∈ heap'.blocks, block.SameBut touched block'

theorem Framed.keepsFrom (h : heap.Framed touched heap') (hsound : heap.Sound)
    (hfits : heap'.next ≤ twoPow 64) (start : Nat) : heap.KeepsFrom start touched heap' :=
  fun block hblock _ => (h.keeps hsound hfits).kept block hblock

theorem keepsFrom_refl (start : Nat) (touched : Set Nat) (heap : Heap) :
    heap.KeepsFrom start touched heap :=
  fun block hblock _ => ⟨block, hblock, .refl _ _⟩

theorem KeepsFrom.trans (h : heap.KeepsFrom start touched heap')
    (h' : heap'.KeepsFrom start touched heap'') : heap.KeepsFrom start touched heap'' := by
  intro block hblock hle
  obtain ⟨block', hblock', hsame⟩ := h block hblock hle
  obtain ⟨block'', hblock'', hsame'⟩ := h' block' hblock' (hsame.base ▸ hle)
  exact ⟨block'', hblock'', hsame.trans hsame'⟩

/-- A reference that is given back concerns no block but its own. -/
theorem keepsFrom_of_unref_eq_ok (hsound : heap.Sound) (h : heap.unref handle = .ok heap')
    (hstart : handle.toNat < start) : heap.KeepsFrom start ∅ heap' := by
  intro block hblock hle
  obtain ⟨found, hfound, hcase⟩ := of_unref_eq_ok h
  obtain ⟨_, hbase⟩ := of_block?_eq_some hfound
  have hother : (block.base == found.base) = false := beq_false_of_ne (by omega)
  refine ⟨block, ?_, .refl _ _⟩
  rcases hcase with ⟨_, rfl⟩ | ⟨_, rfl⟩
  · exact List.mem_filter.2 ⟨hblock, by rw [bne, hother, Bool.not_false]⟩
  · rw [hsound.blocks_modifyBlock]
    exact List.mem_map.2 ⟨block, hblock, by rw [onlyAt, hother, if_neg Bool.false_ne_true]⟩

theorem lt_next_of_unref_eq_ok (hsound : heap.Sound) (h : heap.unref handle = .ok heap') :
    handle.toNat < heap.next := by
  obtain ⟨block, hfound, _⟩ := of_unref_eq_ok h
  obtain ⟨hmem, hbase⟩ := of_block?_eq_some hfound
  rw [← hbase]
  exact Nat.lt_of_lt_of_le (Nat.lt_add_of_pos_right (hsound.filled block hmem).2)
    (hsound.below block hmem)

/-- What lies in a block that is kept is found there. -/
theorem KeepsFrom.exists_locate? (h : heap.KeepsFrom start touched heap') (hsound' : heap'.Sound)
    {block : Block} {addr : Nat} (hlocate : heap.locate? addr = some block)
    (hstart : start ≤ block.base) :
    ∃ block', heap'.locate? addr = some block' ∧ block.SameBut touched block' := by
  obtain ⟨block', hmem', hsame⟩ := h block (of_locate?_eq_some hlocate).1 hstart
  exact ⟨block', locate?_of_sameBut hsound' hlocate hmem' hsame, hsame⟩

theorem KeepsFrom.bytes_eq (h : heap.KeepsFrom start touched heap') (hsound' : heap'.Sound)
    {block : Block} (hlocate : heap.locate? handle.toNat = some block) (hstart : start ≤ block.base)
    (hbytes : heap.bytes handle offset size = .ok new)
    (havoid : ∀ addr ∈ handle.slot offset size, addr ∉ touched) :
    heap'.bytes handle offset size = .ok new := by
  obtain ⟨block', hlocate', hsame⟩ := h.exists_locate? hsound' hlocate hstart
  exact bytes_eq_of_sameBut hlocate hlocate' hsame hbytes havoid

theorem KeepsFrom.readText_eq (h : heap.KeepsFrom start touched heap') (hsound' : heap'.Sound)
    {block : Block} (hlocate : heap.locate? handle.toNat = some block) (hstart : start ≤ block.base)
    (havoid : ∀ addr ∈ touched, addr < block.base) :
    heap'.readText handle = heap.readText handle := by
  obtain ⟨block', hlocate', hsame⟩ := h.exists_locate? hsound' hlocate hstart
  refine readText_congr hlocate hlocate' hsame.base hsame.size fun addr haddr => ?_
  obtain ⟨found, hfound, hle, hreach, _⟩ := haddr
  obtain rfl : block = found := Option.some.inj (hlocate.symm.trans hfound)
  have hbase := (of_locate?_eq_some hlocate).2.1
  exact hsame.bytes addr ⟨Nat.le_trans hbase hle, hreach⟩ fun htouched =>
    Nat.not_lt_of_le (Nat.le_trans hbase hle) (havoid addr htouched)

theorem Holds.mono (h : heap.Holds bound handle offset descriptor value) (hle : start ≤ bound) :
    heap.Holds start handle offset descriptor value := by
  cases h with
  | number hencode hbytes => exact .number hencode hbytes
  | text ownership hbytes hlocate hbound htext =>
      exact .text ownership hbytes hlocate (Nat.le_trans hle hbound) htext
  | address ownership htarget hbytes => exact .address ownership htarget hbytes

theorem Holds.exists_locate? (h : heap.Holds bound handle offset descriptor value) :
    ∃ block, heap.locate? handle.toNat = some block := by
  cases h with
  | number _ hbytes | text _ hbytes _ _ _ | address _ _ hbytes =>
      obtain ⟨block, hlocate, _⟩ := of_bytes_eq_ok hbytes
      exact ⟨block, hlocate⟩

/-- A slot holds its value as long as its block and that of its text are kept. -/
theorem Holds.of_keepsFrom (h : heap.Holds bound handle offset descriptor value)
    (hkeeps : heap.KeepsFrom start touched heap') (hsound' : heap'.Sound) (hbound : start ≤ bound)
    {block : Block} (hlocate : heap.locate? handle.toNat = some block) (hstart : start ≤ block.base)
    (hslot : ∀ addr ∈ handle.slot offset (descriptor.slotSize pointerSize), addr ∉ touched)
    (htouched : ∀ addr ∈ touched, addr < bound) :
    heap'.Holds bound handle offset descriptor value := by
  cases h with
  | number hencode hbytes =>
      exact .number hencode (hkeeps.bytes_eq hsound' hlocate hstart hbytes hslot)
  | @text ownership text target there hbytes hthere hbehind htext =>
      obtain ⟨there', hthere', hsame⟩ := hkeeps.exists_locate? hsound' hthere
        (Nat.le_trans hbound hbehind)
      have hkept := hkeeps.readText_eq hsound' hthere (Nat.le_trans hbound hbehind)
        fun addr haddr => Nat.lt_of_lt_of_le (htouched addr haddr) hbehind
      exact .text ownership (hkeeps.bytes_eq hsound' hlocate hstart hbytes hslot) hthere'
        (hsame.base ▸ hbehind) (hkept.trans htext)
  | address ownership htarget hbytes =>
      exact .address ownership htarget (hkeeps.bytes_eq hsound' hlocate hstart hbytes hslot)

/-! ## Items that are written -/

/-- The items are written from a slot on, one after the other. -/
inductive Fill (handle : Handle) (element : Descriptor) (stride : Nat) :
    Nat → List Value → Heap → Heap → Prop
  | nil (index : Nat) (heap : Heap) : Fill handle element stride index [] heap heap
  | cons {index : Nat} {item : Value} {rest : List Value} {heap middle heap' : Heap}
      (hwrite : write handle element (index * stride) item heap = .ok ⟨⟩ middle)
      (hrest : Fill handle element stride (index + 1) rest middle heap') :
      Fill handle element stride index (item :: rest) heap heap'

/-- The addresses of the slots from one slot on. -/
def slotsFrom (handle : Handle) (stride index count : Nat) : Set Nat :=
  Set.Ico (handle.toNat + index * stride) (handle.toNat + (index + count) * stride)

theorem framed_of_write_eq_ok {u : Unit}
    (h : write handle descriptor offset value heap = .ok u heap') :
    heap.Framed (handle.slot offset (descriptor.slotSize pointerSize)) heap' := by
  have hframed := framed_write handle descriptor offset value heap
  rwa [h] at hframed

namespace Fill

/-- Items touch their slots, and no others. -/
theorem framed (h : Fill handle element stride index items heap heap')
    (hsize : element.slotSize pointerSize ≤ stride) :
    heap.Framed (slotsFrom handle stride index items.length) heap' := by
  induction h with
  | nil => exact framed_refl _ _
  | cons hwrite _ ih =>
      rw [List.length_cons]
      refine ((framed_of_write_eq_ok hwrite).mono ?_).trans (ih.mono ?_)
      · intro addr haddr _
        simp only [Handle.slot, slotsFrom, Set.mem_Ico, Nat.add_mul, Nat.one_mul] at haddr ⊢
        omega
      · intro addr haddr _
        simp only [slotsFrom, Set.mem_Ico, Nat.add_mul, Nat.one_mul] at haddr ⊢
        omega

/-- In the end every slot holds the item that was written to it. By induction over the items: those
that are written later go to other slots, and what they touch lies before all texts. -/
theorem holds (h : Fill handle element stride index items heap heap') (hsound : heap.Sound)
    (hfits : heap'.next ≤ twoPow 64) (hscalar : element.IsScalar)
    (hsize : element.slotSize pointerSize ≤ stride) (hbound : bound ≤ heap.next)
    (hhandle : handle.toNat < heap.next)
    (hroom : handle.toNat + (index + items.length) * stride ≤ bound)
    (hzero : ∀ ownership text, element = .string ownership → .string text ∈ items →
      '\x00' ∉ text.toList) {place : Nat}
    (hitem : items[place]? = some item) :
    heap'.Holds bound handle ((index + place) * stride) element item := by
  induction h generalizing place with
  | nil => cases hitem
  | @cons index first rest heap middle heap' hwrite hrest ih =>
      have hwritten := framed_of_write_eq_ok hwrite
      have hmiddle := hwritten.sound hsound
      have hframed := hrest.framed hsize
      rw [List.length_cons] at hroom
      cases place with
      | zero =>
          cases hitem
          have hheld := (holds_of_write_eq_ok hsound hscalar hhandle
            (Nat.le_trans hframed.next_le hfits)
            (fun ownership text hstring htext =>
              hzero ownership text hstring (htext ▸ List.mem_cons_self)) hwrite).mono hbound
          obtain ⟨block, hlocate⟩ := hheld.exists_locate?
          -- the slots of later items lie behind this one, and before the text that it may hold
          refine hheld.of_keepsFrom (hframed.keepsFrom hmiddle hfits 0) (hframed.sound hmiddle)
            (Nat.zero_le _) hlocate (Nat.zero_le _) ?_ ?_
          · intro addr haddr htouched
            simp only [Handle.slot, slotsFrom, Set.mem_Ico, Nat.add_mul, Nat.one_mul]
              at haddr htouched
            omega
          · intro addr haddr
            simp only [slotsFrom, Set.mem_Ico] at haddr
            have hsame : index + 1 + rest.length = index + (rest.length + 1) := by omega
            rw [hsame] at haddr
            omega
      | succ place =>
          have hsame : index + 1 + rest.length = index + (rest.length + 1) := by omega
          have hplace : index + (place + 1) = index + 1 + place := by omega
          rw [hplace]
          exact ih hmiddle hfits (Nat.le_trans hbound hwritten.next_le)
            (Nat.lt_of_lt_of_le hhandle hwritten.next_le) (hsame ▸ hroom)
            (fun ownership text hstring htext =>
              hzero ownership text hstring (List.mem_cons_of_mem _ htext)) hitem

end Fill

/-! ## Arrays in blocks of their own -/

/-- A block with so many slots holds the items from its start on, and zeros behind them. The texts of
the items lie behind it. -/
structure Lays (heap : Heap) (handle : Handle) (element : Descriptor) (stride count : Nat)
    (items : List Value) : Prop where
  starts : ∃ block, heap.locate? handle.toNat = some block ∧ block.base = handle.toNat ∧
    block.refs = 1
  holds : ∀ (place : Nat) (item : Value), items[place]? = some item →
    heap.Holds (handle.toNat + count * stride) handle (place * stride) element item
  rest : ∀ place, items.length ≤ place → place < count →
    heap.bytes handle (place * stride) stride = .ok (List.replicate stride 0)

theorem Lays.isNull (h : heap.Lays handle element stride count items) (hsound : heap.Sound) :
    handle.isNull = false := by
  obtain ⟨block, hlocate, hbase, _⟩ := h.starts
  have hfilled := (hsound.filled block (of_locate?_eq_some hlocate).1).1
  rw [hbase] at hfilled
  exact Handle.isNull_eq_false_iff.2 hfilled

/-- An array is found as it was as long as its block and those behind it are kept. -/
theorem Lays.of_keepsFrom (h : heap.Lays handle element stride count items)
    (hkeeps : heap.KeepsFrom handle.toNat ∅ heap') (hsound' : heap'.Sound) :
    heap'.Lays handle element stride count items := by
  obtain ⟨block, hlocate, hbase, hrefs⟩ := h.starts
  have hstart := Nat.le_of_eq hbase.symm
  constructor
  case starts =>
    obtain ⟨block', hlocate', hsame⟩ := hkeeps.exists_locate? hsound' hlocate hstart
    exact ⟨block', hlocate', hsame.base.trans hbase, hsame.refs.trans hrefs⟩
  case holds =>
    intro place item hitem
    exact (h.holds place item hitem).of_keepsFrom hkeeps hsound' (Nat.le_add_right _ _) hlocate
      hstart (fun _ _ => Set.notMem_empty _) fun _ haddr => haddr.elim
  case rest =>
    intro place hle hlt
    exact hkeeps.bytes_eq hsound' hlocate hstart (h.rest place hle hlt) fun _ _ =>
      Set.notMem_empty _

theorem slice_empty (start count : Nat) :
    Bytes.slice ∅ start count = List.replicate count 0 := by
  refine List.eq_replicate_iff.2 ⟨Bytes.length_slice _ _ _, fun byte hbyte => ?_⟩
  obtain ⟨index, _, rfl⟩ := List.mem_map.1 hbyte
  exact Bytes.get_empty index

/-- A block is made of zeros. -/
theorem bytes_alloc (hsound : heap.Sound) (hroom : heap.next < twoPow 64) {allocated : Nat}
    (typeName : Option String) (hfits : offset + size ≤ allocated) :
    (heap.alloc allocated typeName).2.bytes (.ofNat heap.next) offset size =
      .ok (List.replicate size 0) := by
  have hhandle := Handle.toNat_ofNat_of_lt hroom
  have hlocate := hsound.locate?_alloc allocated typeName
  rw [← hhandle] at hlocate
  have hreach : (Handle.ofNat heap.next).toNat - (heap.fresh allocated typeName).base + offset +
      size ≤ (heap.fresh allocated typeName).size := by
    simp only [hhandle, fresh]
    omega
  rw [bytes_of_fits hlocate hreach]
  exact congrArg Except.ok (slice_empty _ _)

/-- Items that are written to a block that was made for them are found in it. -/
theorem lays_of_fill (hsound : heap.Sound) (hfits : heap'.next ≤ twoPow 64)
    (hscalar : element.IsScalar) (hsize : element.slotSize pointerSize ≤ stride)
    (hcount : items.length ≤ count)
    (hzero : ∀ ownership text, element = .string ownership → .string text ∈ items →
      '\x00' ∉ text.toList)
    (h : Fill (.ofNat heap.next) element stride 0 items (heap.alloc (count * stride) none).2 heap') :
    heap'.Lays (.ofNat heap.next) element stride count items := by
  have hmade := hsound.alloc (count * stride) none
  have hframed := h.framed hsize
  have hnext := lt_next_alloc heap (count * stride) none
  have hroom : heap.next < twoPow 64 := by
    have := hframed.next_le
    omega
  have hhandle := Handle.toNat_ofNat_of_lt hroom
  have hlocate := hsound.locate?_alloc (count * stride) none
  have hkeeps := hframed.keepsFrom hmade hfits heap.next
  have hslots := Nat.mul_le_mul_right stride hcount
  constructor
  case starts =>
    obtain ⟨block, hthere, hsame⟩ := hkeeps.exists_locate? (hframed.sound hmade) hlocate
      (Nat.le_refl _)
    rw [hhandle]
    exact ⟨block, hthere, hsame.base, hsame.refs⟩
  case holds =>
    intro place item hitem
    have hheld : heap'.Holds (heap.next + count * stride) _ _ _ _ :=
      h.holds hmade hfits hscalar hsize (by omega) (by omega) (by rw [Nat.zero_add]; omega) hzero
        hitem
    rw [Nat.zero_add] at hheld
    rw [hhandle]
    exact hheld
  case rest =>
    intro place hle hlt
    have hslot : (place + 1) * stride ≤ count * stride := Nat.mul_le_mul_right stride hlt
    have hbehind := Nat.mul_le_mul_right stride hle
    rw [Nat.add_mul, Nat.one_mul] at hslot
    rw [← hhandle] at hlocate
    refine hkeeps.bytes_eq (hframed.sound hmade) hlocate (Nat.le_refl _)
      (bytes_alloc hsound hroom none hslot) fun addr haddr htouched => ?_
    simp only [Handle.slot, slotsFrom, Set.mem_Ico, Nat.zero_add] at haddr htouched
    omega

/-! ## What is read of an array -/

/-- An item of an array of texts can be read again: it is a text without zeros, or the address of a
text, or null. -/
def Legible (heap : Heap) (element : Descriptor) (item : Value) : Prop :=
  match element, item with
  | .string _, .string text => '\x00' ∉ text.toList
  | .string _, item => ∀ target, item.asHandle? = some target → target.isNull = false →
    ∃ text, heap.readText target = .ok text
  | _, _ => True

/-- What is held in a slot has a form in which it is read. -/
theorem Holds.exists_represent? (h : heap.Holds bound handle offset descriptor value)
    (hlegible : heap.Legible descriptor value) :
    ∃ found, heap.represent? descriptor value = some (.ok found) := by
  cases h with
  | number hencode _ =>
      rw [represent?, PrimitiveKind.represent?_eq_decode hencode]
      exact ⟨_, rfl⟩
  | text => exact ⟨_, rfl⟩
  | @address ownership _ target htarget _ =>
      rw [represent?_address htarget]
      cases hnull : target.isNull with
      | true => exact ⟨.null, rfl⟩
      | false =>
          cases value with
          | null | pointer | object =>
              obtain ⟨text, htext⟩ := hlegible target htarget hnull
              rw [htext]
              exact ⟨.string text, rfl⟩
          | _ => cases htarget

/-- Each item is read in the form in which values like it are read. -/
theorem Lays.exists_read (h : heap.Lays handle element stride count items) (hsound : heap.Sound)
    {place : Nat} (hitem : items[place]? = some item) (hlegible : heap.Legible element item) :
    ∃ found, heap.represent? element item = some (.ok found) ∧
      heap.read handle element (place * stride) = .ok found := by
  have hheld := h.holds place item hitem
  obtain ⟨found, hfound⟩ := hheld.exists_represent? hlegible
  have hread := hheld.represent?_eq hsound (h.isNull hsound)
  exact ⟨found, hfound, Option.some.inj (hread.symm.trans hfound)⟩

end Heap

end Interop
