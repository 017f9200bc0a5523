import Interop.Proofs.Bridge.Lengths
import Interop.Proofs.Bridge.Quarks
import Interop.Proofs.Bridge.Releases
import Interop.Proofs.Layout.Memo
import Interop.Proofs.Memory.Room

/-! # Errors that native code reports

An error is reported by a record of its domain, its code and its message, whose address is stored in
the last slot for errors. The domain is stored as a number and named again when the record is read.
Whoever finds the record in its slot gets the error that was reported, and the record is freed.
-/

namespace Interop

open Schema Relation Steps

variable {H : Host}

theorem SymbolTable.hasLibrary_of_find_eq_ok {Fn : Type} {table : SymbolTable Fn}
    {library symbol : String} {fn : Fn} (h : table.find library symbol = .ok fn) :
    table.hasLibrary library = true := by
  unfold find at h
  cases hlibrary : table.libraries.lookup library with
  | none =>
      rw [hlibrary] at h
      cases h
  | some symbols =>
      exact List.any_eq_true.2 ⟨_, Lists.mem_of_lookup hlibrary, beq_self_eq_true library⟩

/-! ## The record -/

/-- What an error is a record of. -/
def NativeCall.errorFields : List Field :=
  [.shown "domain" (.named "guint32"), .shown "code" (.named "gint"),
    .shown "message" (.named "utf8")]

/-- An error is laid out as a calculator lays out its fields, whatever is declared. -/
theorem NativeCall.layout_errorFields (platform : Platform)
    (hpointer : platform.pointerSize = Heap.pointerSize) :
    (platform.calculator.layout "GLib" .struct errorFields true).1 =
        [⟨"domain", 0, 4, 4⟩, ⟨"code", errorOffsets.1, 4, 4⟩, ⟨"message", errorOffsets.2, 8, 8⟩] ∧
      (platform.calculator.recordSize "GLib" .struct errorFields).1 = errorSize := by
  have hslots : (errorFields.map fun field =>
      (field.name, platform.slotLayout [] "GLib" false field.type)) =
        [("domain", ⟨4, 4⟩), ("code", ⟨4, 4⟩), ("message", ⟨8, 8⟩)] := by
    unfold Platform.slotLayout
    rw [hpointer]
    rfl
  have hplace : platform.place [] "GLib" .struct errorFields =
      ([⟨"domain", 0, 4, 4⟩, ⟨"code", errorOffsets.1, 4, 4⟩, ⟨"message", errorOffsets.2, 8, 8⟩],
        ⟨errorSize, 8⟩) := by
    rw [Platform.place, hslots]
    decide +kernel
  have hsize := (Calculator.recordSize_replies (Calculator.calculator_sound platform) "GLib" .struct
    errorFields).1
  rw [Calculator.layout_calculator, hsize, hplace]
  exact ⟨rfl, congrArg (·.2.size) hplace⟩

theorem toInt_ofInt_toInt (code : Int32) : (Int64.ofInt code.toInt).toInt = code.toInt := by
  rw [Int64.ofInt_int32ToInt, Int32.toInt_toInt64]

namespace Heap

variable {heap written coded told heap' : Heap} {handle slot record : Handle} {quark start : Nat}
  {code : Int32} {message : String}

/-- A number that names a domain is stored as it is. -/
theorem exists_slotBytes_quark (heap : Heap) (hquark : quark < twoPow 32) :
    ∃ new, heap.slotBytes (.ofPrimitive .uint32 pointerSize) (.ofNat quark) = .ok new := by
  have hnumber : (UInt64.ofNat quark).toNat = quark :=
    UInt64.toNat_ofNat_of_lt' (Nat.lt_trans hquark (by decide))
  have hcontent : PrimitiveKind.uint32.content? (.ofNat quark) = some (.number quark) :=
    congrArg (fun n : Nat => some (PrimitiveKind.Content.number n)) hnumber
  have hfits : PrimitiveKind.uint32.InRange quark :=
    (PrimitiveKind.inRange_unsigned_iff rfl).2 hquark
  exact ⟨_, PrimitiveKind.slotBytes_of_fits hcontent hfits⟩

/-- So is the code of an error. -/
theorem exists_slotBytes_code (heap : Heap) (code : Int32) :
    ∃ new, heap.slotBytes (.ofPrimitive .int32 pointerSize) (.int (Int64.ofInt code.toInt)) =
      .ok new := by
  have hcontent : PrimitiveKind.int32.content? (.int (Int64.ofInt code.toInt)) =
      some (.number code.toInt) :=
    congrArg (fun n : Int => some (PrimitiveKind.Content.number n)) (toInt_ofInt_toInt code)
  have hfits : PrimitiveKind.int32.InRange code.toInt :=
    (PrimitiveKind.inRange_signed_iff rfl).2 ⟨code.le_toInt, code.toInt_lt⟩
  exact ⟨_, PrimitiveKind.slotBytes_of_fits hcontent hfits⟩

/-- What a text is called that is read does not matter. -/
theorem Holds.string {bound offset : Nat} {handle : Handle} {ownership : Ownership} {value : Value}
    (h : heap.Holds bound handle offset (.string ownership) value) (ownership' : Ownership) :
    heap.Holds bound handle offset (.string ownership') value := by
  cases h with
  | text _ hbytes hlocate hbound htext => exact .text ownership' hbytes hlocate hbound htext
  | address _ htarget hbytes => exact .address ownership' htarget hbytes

/-- A native error stands at an address, and the address in a slot. -/
structure Reports (heap : Heap) (slot record : Handle) (quark : Nat) (code : Int32)
    (message : String) : Prop where
  slot : heap.bytes slot 0 pointerSize = .ok (bytesOf pointerSize record.toNat)
  starts : heap.Starts record "GError" NativeCall.errorSize
  domain : heap.Holds record.toNat record 0 (.ofPrimitive .uint32 pointerSize) (.ofNat quark)
  code : heap.Holds record.toNat record NativeCall.errorOffsets.1 (.ofPrimitive .int32 pointerSize)
    (.int (Int64.ofInt code.toInt))
  message : heap.Holds record.toNat record NativeCall.errorOffsets.2 (.string .none)
    (.string message)

theorem Lone.of_keepsFrom {addr : Nat} (h : heap.Lone addr) (hspaced : heap.Spaced)
    (hrun : ReflTransGen Step heap heap') (hkeeps : heap.KeepsFrom start ∅ heap')
    (hstart : start ≤ addr) (hbound : addr < heap.next) : heap'.Lone addr := by
  intro block hblock hbase
  rcases hspaced.origin hrun block hblock with ⟨old, hold, hsame, _⟩ | hnew
  · obtain ⟨kept, hkept, hsameBut⟩ := hkeeps old hold (by omega)
    obtain rfl := (spaced_of_reflTransGen hrun hspaced).sound.eq_of_base_eq hblock hkept
      (hsame.trans hsameBut.base.symm)
    rw [hsameBut.refs]
    exact h old hold (hsame.symm.trans hbase)
  · omega

/-- An error is there as long as the blocks of its slot, its record and its message are. -/
theorem Reports.of_keepsFrom (h : heap.Reports slot record quark code message)
    (hkeeps : heap.KeepsFrom start ∅ heap') (hsound' : heap'.Sound) {block : Block}
    (hslot : heap.locate? slot.toNat = some block) (hstart : start ≤ block.base)
    (hrecord : start ≤ record.toNat) : heap'.Reports slot record quark code message := by
  obtain ⟨there, hlocate, hbase, _⟩ := h.starts
  have hheld {offset : Nat} {descriptor : Descriptor} {value : Value}
      (hholds : heap.Holds record.toNat record offset descriptor value) :
      heap'.Holds record.toNat record offset descriptor value :=
    hholds.of_keepsFrom hkeeps hsound' hrecord hlocate (hbase ▸ hrecord)
      (fun _ _ => Set.notMem_empty _) fun _ haddr => haddr.elim
  exact {
    slot := hkeeps.bytes_eq hsound' hslot hstart h.slot fun _ _ => Set.notMem_empty _
    starts := h.starts.of_keepsFrom hkeeps hsound' hrecord
    domain := hheld h.domain
    code := hheld h.code
    message := hheld h.message }

/-- A slot holds what is written to it whatever is written beside it, before all texts. -/
theorem Holds.of_framed {bound offset : Nat} {handle : Handle} {descriptor : Descriptor}
    {value : Value} (h : heap.Holds bound handle offset descriptor value) (hsound : heap.Sound)
    (hframed : heap.Framed
      {addr | addr < bound ∧ addr ∉ handle.slot offset (descriptor.slotSize pointerSize)} heap')
    (hfits : heap'.next ≤ twoPow 64) : heap'.Holds bound handle offset descriptor value := by
  obtain ⟨block, hlocate⟩ := h.exists_locate?
  exact h.of_keepsFrom (hframed.keepsFrom hsound hfits 0) (hframed.sound hsound) (Nat.zero_le _)
    hlocate (Nat.zero_le _) (fun _ hself htouched => htouched.2 hself) fun _ htouched => htouched.1

theorem holds_of_write_number_eq_ok {handle : Handle} {kind : PrimitiveKind} {offset : Nat}
    {value : Value} {u : Unit} (hsound : heap.Sound) (hhandle : handle.toNat < heap.next)
    (hfits : heap'.next ≤ twoPow 64) (hkind : kind ≠ .void)
    (h : write handle (.ofPrimitive kind pointerSize) offset value heap = .ok u heap') :
    heap'.Holds heap.next handle offset (.ofPrimitive kind pointerSize) value := by
  rw [Descriptor.ofPrimitive, if_neg hkind] at h ⊢
  exact holds_of_write_eq_ok hsound rfl hhandle hfits (fun _ _ hstring => by cases hstring) h

/-- What is written to one slot is written beside any slot that lies before or behind it. -/
theorem Framed.beside {before after : Heap} {reader writer : Handle}
    {offset size place width bound : Nat} (h : before.Framed (writer.slot place width) after)
    (hapart : reader.toNat + offset + size ≤ writer.toNat + place ∨
      writer.toNat + place + width ≤ reader.toNat + offset)
    (hbound : writer.toNat + place + width ≤ bound) :
    before.Framed {addr | addr < bound ∧ addr ∉ reader.slot offset size} after := by
  refine h.mono fun addr haddr _ => ?_
  simp only [Handle.slot, Set.mem_Ico, Set.mem_ofPred_eq] at haddr ⊢
  omega

/-- An error stands where its parts are written one after the other, and its address at last. -/
theorem reports_of_writes (hsound : heap.Sound) (hfits : heap'.next ≤ twoPow 64)
    (hstarts : heap.Starts record "GError" NativeCall.errorSize)
    (hbefore : slot.toNat + pointerSize ≤ record.toNat) (hzero : '\x00' ∉ message.toList)
    (hdomain : write record (.ofPrimitive .uint32 pointerSize) 0 (.ofNat quark) heap =
      .ok ⟨⟩ written)
    (hcode : write record (.ofPrimitive .int32 pointerSize) NativeCall.errorOffsets.1
      (.int (Int64.ofInt code.toInt)) written = .ok ⟨⟩ coded)
    (hmessage : write record (.string .full) NativeCall.errorOffsets.2 (.string message) coded =
      .ok ⟨⟩ told)
    (hslot : write slot (.ofPrimitive .pointer pointerSize) 0 (.pointer record) told =
      .ok ⟨⟩ heap') : heap'.Reports slot record quark code message := by
  have hend : record.toNat + NativeCall.errorSize ≤ heap.next := by
    obtain ⟨block, hlocate, hbase, hsize, _⟩ := hstarts
    have hbelow := hsound.below block (of_locate?_eq_some hlocate).1
    rw [hbase, hsize] at hbelow
    exact hbelow
  have hroom := hstarts.lt_next hsound
  have hfirst : heap.Framed (record.slot 0 4) written := framed_of_write_eq_ok hdomain
  have hsecond : written.Framed (record.slot 4 4) coded := framed_of_write_eq_ok hcode
  have hthird : coded.Framed (record.slot 8 8) told := framed_of_write_eq_ok hmessage
  have hfourth : told.Framed (slot.slot 0 8) heap' := framed_of_write_eq_ok hslot
  have hwritten := hfirst.sound hsound
  have hcoded := hsecond.sound hwritten
  have htold := hthird.sound hcoded
  have hnext := hfirst.next_le
  have hnext' := hsecond.next_le
  have hgrown := hthird.next_le
  have hgrown' := hfourth.next_le
  have hsize : NativeCall.errorSize = 16 := rfl
  have hwidth : pointerSize = 8 := rfl
  -- the parts of the record lie side by side, and the slot lies before them
  have hslotted (offset size : Nat) :
      told.Framed {addr | addr < heap.next ∧ addr ∉ record.slot offset size} heap' :=
    hfourth.beside (by omega) (by omega)
  have hquark := holds_of_write_number_eq_ok hsound hroom (by omega) (by decide) hdomain
  have hnumber := (holds_of_write_number_eq_ok hwritten (by omega) (by omega) (by decide)
    hcode).mono hnext
  have hscalar : (Descriptor.string .full).IsScalar := trivial
  have htext : told.Holds heap.next record 8 (.string .full) (.string message) :=
    (holds_of_write_eq_ok hcoded hscalar (by omega) (by omega)
      (fun _ _ _ htext => Value.string.inj htext ▸ hzero) hmessage).mono (hnext.trans hnext')
  have hpointed := holds_of_write_number_eq_ok htold (by omega) hfits (by decide) hslot
  have hlow : record.toNat ≤ heap.next := by omega
  constructor
  case slot =>
    cases hpointed with
    | number hencode hbytes =>
        obtain ⟨_, hhandle, rfl⟩ := PrimitiveKind.of_encode_pointer hencode
        cases hhandle
        exact hbytes
  case starts =>
    have hall : heap.Framed Set.univ heap' :=
      (hfirst.mono fun _ _ _ => trivial).trans ((hsecond.mono fun _ _ _ => trivial).trans
        ((hthird.mono fun _ _ _ => trivial).trans (hfourth.mono fun _ _ _ => trivial)))
    exact hstarts.of_keepsFrom (hall.keepsFrom hsound hfits 0) (hall.sound hsound) (Nat.zero_le _)
  case domain =>
    have hbehind : written.Framed {addr | addr < heap.next ∧ addr ∉ record.slot 0 4} heap' :=
      (hsecond.beside (by omega) (by omega)).trans
        ((hthird.beside (by omega) (by omega)).trans (hslotted 0 4))
    exact (hquark.of_framed hwritten hbehind hfits).mono hlow
  case code =>
    have hbehind : coded.Framed {addr | addr < heap.next ∧ addr ∉ record.slot 4 4} heap' :=
      (hthird.beside (by omega) (by omega)).trans (hslotted 4 4)
    exact (hnumber.of_framed hcoded hbehind hfits).mono hlow
  case message => exact ((htext.of_framed htold (hslotted 8 8) hfits).mono hlow).string .none

theorem read_boxed {qualified library : String} {ownership : Ownership} {getType : Option String}
    {target : Handle} (hnull : handle.isNull = false) (htarget : target.isNull = false)
    (h : heap.bytes handle 0 pointerSize = .ok (bytesOf pointerSize target.toNat)) :
    heap.read handle (.boxed qualified library ownership getType) 0 = .ok (.pointer target) := by
  have hread : heap.read handle (.boxed qualified library ownership getType) 0 =
      if handle.isNull then .error (.invalidHandle handle)
      else (heap.readPointer handle 0).map fun target =>
        if target.isNull then .null else .pointer target := rfl
  rw [hread, hnull, if_neg Bool.false_ne_true, readPointer_eq_ok h, Except.map, htarget,
    if_neg Bool.false_ne_true]

end Heap

/-! ## Reporting -/

/-- If the last argument is a slot for errors, it is the one that is used. -/
theorem NativeCall.errorSlot?_eq {call : NativeCall} {before : List NativeArg} {last : NativeArg}
    (hargs : call.args = before ++ [last]) (hlast : isErrorSlot last.descriptor = true) :
    call.errorSlot? = some before.length := by
  rw [errorSlot?, hargs, List.zipIdx_append, List.filter_append]
  simp [hlast]

namespace Bridge

variable {bridge : Bridge H} {handle slot record : Handle} {descriptor : Descriptor}
  {offset quark : Nat} {value : Value} {domain message : String} {code : Int32}

theorem write_eq_ok {heap : Heap}
    (h : Heap.write handle descriptor offset value bridge.heap = .ok ⟨⟩ heap) :
    write handle descriptor offset value bridge = .ok ⟨⟩ { bridge with heap } := by
  rw [write, onHeap, h]

theorem within_touches_univ_write (handle : Handle) (descriptor : Descriptor) (offset : Nat)
    (value : Value) :
    Within (Touches Set.univ) (write handle descriptor offset value : Native H Unit) :=
  fun bridge => .single ((touches_write handle descriptor offset value bridge).mono
    (Set.subset_univ _))

/-- What there are bytes and room for is written. What comes behind it uses up addresses. -/
theorem exists_write_bind_eq {α : Type} {next : Unit → Native H α} {new : List UInt8}
    (hroom : bridge.heap.Room handle (offset + descriptor.slotSize Heap.pointerSize))
    (hsound : bridge.heap.Sound) (hdescriptor : descriptor.isNull = false)
    (hnew : bridge.heap.slotBytes descriptor value = .ok new)
    (hnext : ∀ u, Within (Touches Set.univ) (next u))
    (hfits : (ending ((write handle descriptor offset value >>= next) bridge)).heap.next ≤
      twoPow 64) :
    ∃ heap, Heap.write handle descriptor offset value bridge.heap = .ok ⟨⟩ heap ∧
      heap.next ≤ twoPow 64 ∧
      (write handle descriptor offset value >>= next) bridge = next ⟨⟩ { bridge with heap } := by
  have hbehind := (touches_of_run (runs_behind hnext bridge)).next_le.trans hfits
  rw [write, ending_onHeap] at hbehind
  obtain ⟨heap, hwrite⟩ := hroom.exists_write hsound hdescriptor hnew hbehind
  rw [hwrite] at hbehind
  exact ⟨heap, hwrite, hbehind, bind_eq_of_eq_ok (write_eq_ok hwrite)⟩

/-- Fills the record of an error, and stores its address in a slot. -/
def fillError (slot record : Handle) (quark : Nat) (code : Int) (message : String) :
    Native H Unit := do
  write record (.ofPrimitive .uint32 Heap.pointerSize) 0 (.ofNat quark)
  write record (.ofPrimitive .int32 Heap.pointerSize) NativeCall.errorOffsets.1
    (.int (Int64.ofInt code))
  write record (.string .full) NativeCall.errorOffsets.2 (.string message)
  write slot (.ofPrimitive .pointer Heap.pointerSize) 0 (.pointer record)

/-- An error is reported in the record that is made for it. -/
theorem raise_eq {call : NativeCall} {place : Nat} {optional : Bool}
    (hplace : call.errorSlot? = some place)
    (harg : call.args[place]? = some ⟨descriptor, .pointer slot, optional⟩)
    (hnull : slot.isNull = false) (hlibrary : bridge.symbols.hasLibrary coreLibrary = true)
    (domain : String) (code : Int) (message : String) :
    call.raise domain code message bridge =
      fillError slot (.ofNat bridge.heap.next) (bridge.quarks.intern domain).1 code message
        { bridge with
          heap := (bridge.heap.alloc NativeCall.errorSize (some "GError")).2
          quarks := (bridge.quarks.intern domain).2 } := by
  have hslot : (call.handle place : Native H Handle) bridge = .ok slot bridge :=
    view_eq_ok _ harg rfl
  have halloc : alloc NativeCall.errorSize (some "GError") (some coreLibrary) bridge =
      .ok (.ofNat bridge.heap.next)
        { bridge with heap := (bridge.heap.alloc NativeCall.errorSize (some "GError")).2 } := by
    simp only [alloc, get_bind, hlibrary]
    rfl
  rw [NativeCall.raise, hplace]
  dsimp only
  rw [bind_eq_of_eq_ok hslot, hnull, if_neg Bool.false_ne_true, bind_eq_of_eq_ok halloc]
  rfl

theorem within_touches_fillError (slot record : Handle) (quark : Nat) (code : Int)
    (message : String) :
    Within (Touches Set.univ) (fillError slot record quark code message : Native H Unit) :=
  (within_touches_univ_write _ _ _ _).bind fun _ => (within_touches_univ_write _ _ _ _).bind fun _ =>
    (within_touches_univ_write _ _ _ _).bind fun _ => within_touches_univ_write _ _ _ _

/-- What is reported stands in the record and in the slot, if there are addresses for its text. -/
theorem exists_fillError_eq_ok (hsound : bridge.heap.Sound)
    (hstarts : bridge.heap.Starts record "GError" NativeCall.errorSize)
    (hslot : bridge.heap.Room slot Heap.pointerSize)
    (hbefore : slot.toNat + Heap.pointerSize ≤ record.toNat) (hquark : quark < twoPow 32)
    (hzero : '\x00' ∉ message.toList)
    (hfits : (ending (fillError slot record quark code.toInt message bridge)).heap.next ≤
      twoPow 64) :
    ∃ heap, fillError slot record quark code.toInt message bridge = .ok ⟨⟩ { bridge with heap } ∧
      heap.Reports slot record quark code message := by
  have hlast (u : Unit) : Within (Touches Set.univ)
      (write slot (.ofPrimitive .pointer Heap.pointerSize) 0 (.pointer record) : Native H Unit) :=
    within_touches_univ_write _ _ _ _
  have hthird (u : Unit) := (within_touches_univ_write (H := H) record (.string .full)
    NativeCall.errorOffsets.2 (.string message)).bind hlast
  have hsecond (u : Unit) := (within_touches_univ_write (H := H) record
    (.ofPrimitive .int32 Heap.pointerSize) NativeCall.errorOffsets.1
    (.int (Int64.ofInt code.toInt))).bind hthird
  -- nothing is written beside the record and the slot, so each write has the room of the one before
  unfold fillError at hfits ⊢
  have hroom : bridge.heap.Room record NativeCall.errorSize := hstarts.room
  obtain ⟨_, hquarkBytes⟩ := bridge.heap.exists_slotBytes_quark hquark
  obtain ⟨written, hdomain, hfits₁, hrest⟩ :=
    exists_write_bind_eq (hroom.mono (by decide)) hsound rfl hquarkBytes hsecond hfits
  rw [hrest] at hfits ⊢
  have hframed₁ := Heap.framed_of_write_eq_ok hdomain
  have hsound₁ := hframed₁.sound hsound
  have hroom₁ := hroom.of_framed hframed₁ hsound hfits₁
  obtain ⟨_, hcodeBytes⟩ := written.exists_slotBytes_code code
  obtain ⟨coded, hcode, hfits₂, hrest⟩ :=
    exists_write_bind_eq (hroom₁.mono (by decide)) hsound₁ rfl hcodeBytes hthird hfits
  rw [hrest] at hfits ⊢
  have hframed₂ := Heap.framed_of_write_eq_ok hcode
  have hsound₂ := hframed₂.sound hsound₁
  have hroom₂ := hroom₁.of_framed hframed₂ hsound₁ hfits₂
  obtain ⟨told, hmessage, hfits₃, hrest⟩ :=
    exists_write_bind_eq (hroom₂.mono (by decide)) hsound₂ rfl rfl hlast hfits
  rw [hrest] at hfits ⊢
  have hframed₃ := Heap.framed_of_write_eq_ok hmessage
  have hslotted := ((hslot.of_framed hframed₁ hsound hfits₁).of_framed hframed₂ hsound₁
    hfits₂).of_framed hframed₃ hsound₂ hfits₃
  rw [write, ending_onHeap] at hfits
  obtain ⟨heap, hstored⟩ :=
    hslotted.exists_write (hframed₃.sound hsound₂) rfl rfl hfits
  rw [hstored] at hfits
  exact ⟨heap, write_eq_ok hstored, Heap.reports_of_writes hsound hfits hstarts hbefore hzero hdomain
    hcode hmessage hstored⟩

variable {call : NativeCall} {place : Nat} {optional : Bool}

/-- An error that is reported stands in a record of its own behind all that was there before. -/
theorem exists_raise_eq_ok (hplace : call.errorSlot? = some place)
    (harg : call.args[place]? = some ⟨descriptor, .pointer slot, optional⟩)
    (hlibrary : bridge.symbols.hasLibrary coreLibrary = true) (hsound : bridge.heap.Sound)
    (hslot : bridge.heap.Room slot Heap.pointerSize) (hzero : '\x00' ∉ message.toList)
    (hquark : bridge.quarks.names.length + 1 < twoPow 32)
    (hfits : (ending (call.raise domain code.toInt message bridge)).heap.next ≤ twoPow 64) :
    ∃ heap, call.raise domain code.toInt message bridge =
        .ok ⟨⟩ { bridge with heap, quarks := (bridge.quarks.intern domain).2 } ∧
      bridge.heap.next < heap.next ∧
      heap.Reports slot (.ofNat bridge.heap.next) (bridge.quarks.intern domain).1 code message := by
  rw [raise_eq hplace harg (hslot.isNull hsound) hlibrary] at hfits ⊢
  have hlt := Heap.lt_next_alloc bridge.heap NativeCall.errorSize (some "GError")
  let opened : Bridge H := { bridge with
    heap := (bridge.heap.alloc NativeCall.errorSize (some "GError")).2
    quarks := (bridge.quarks.intern domain).2 }
  have hfilling := (touches_of_run (within_touches_fillError slot (.ofNat bridge.heap.next)
    (bridge.quarks.intern domain).1 code.toInt message opened)).next_le
  have hgrown := hfilling.trans hfits
  have hnext : bridge.heap.next < twoPow 64 :=
    Nat.lt_of_le_of_lt (Nat.le_add_right _ _) (Nat.lt_of_lt_of_le hlt hgrown)
  have hrecord := Handle.toNat_ofNat_of_lt hnext
  have hmade := Heap.framed_alloc bridge.heap NativeCall.errorSize (some "GError")
  obtain ⟨heap, hfilled, hreports⟩ := exists_fillError_eq_ok (hmade.sound hsound)
    (Heap.starts_alloc hsound hnext "GError" NativeCall.errorSize)
    (hslot.of_framed hmade hsound hgrown)
    (hrecord.symm ▸ hslot.end_le_next hsound)
    (Nat.lt_of_le_of_lt (bridge.quarks.intern_le domain) hquark) hzero hfits
  rw [hfilled] at hfilling
  exact ⟨heap, hfilled, Nat.lt_of_le_of_lt (Nat.le_add_right _ _)
    (Nat.lt_of_lt_of_le hlt hfilling), hreports⟩

/-! ## Whoever finds an error -/

variable {env : Env H} {offset : Nat} {value : Value}

theorem read_eq_ok {handle : Handle} (h : bridge.heap.read handle descriptor offset = .ok value) :
    read handle descriptor offset bridge = .ok value bridge := by
  rw [read_eq, h]
  rfl

/-- A domain is named as it was, unless the symbol of the function that does so is another's. -/
theorem domainName_eq_ok (hname : bridge.quarks.name? quark = some domain)
    (hquark : quark < twoPow 32)
    (hfind : bridge.symbols.find (errorLibrary env) quarkNamer = .ok .quarkToString) :
    domainName env (.ofNat quark) bridge = .ok domain bridge := by
  have henter := enter_nameOf env hquark hfind
  rw [hname] at henter
  dsimp only [NativeCall.nameOf] at henter
  rw [domainName, henter]
  rfl

/-- Who takes an error gets what was reported, and gives the record back. -/
theorem takeError_eq_ok (h : bridge.heap.Reports slot record quark code message)
    (hsound : bridge.heap.Sound) (hname : bridge.quarks.name? quark = some domain)
    (hquark : quark < twoPow 32)
    (hfind : bridge.symbols.find (errorLibrary env) quarkNamer = .ok .quarkToString) :
    takeError env record bridge =
      .ok ⟨domain, code.toInt, message⟩ (attempt (release env record none) bridge) := by
  have hnull := h.starts.room.isNull hsound
  have hread {offset : Nat} {descriptor : Descriptor} {value found : Value}
      (hholds : bridge.heap.Holds record.toNat record offset descriptor value)
      (hfound : bridge.heap.represent? descriptor value = some (.ok found)) :
      read record descriptor offset bridge = .ok found bridge :=
    read_eq_ok (Option.some.inj ((hholds.represent?_eq hsound hnull).symm.trans hfound))
  rw [takeError, bind_eq_of_eq_ok (hread h.domain rfl), bind_eq_of_eq_ok (hread h.code rfl),
    bind_eq_of_eq_ok (hread h.message rfl)]
  change (domainName env (.ofNat quark) >>= fun _ => _) bridge = _
  rw [bind_eq_of_eq_ok (domainName_eq_ok hname hquark hfind)]
  change EStateM.Result.ok (NativeError.mk domain (Int64.ofInt code.toInt).toInt message) _ = _
  rw [toInt_ofInt_toInt]

/-- An error that stands in the slot of a call is found there. -/
theorem pendingError_eq_ok {plan : CallPlan} {frame : Frame} {index : Nat} {optional : Bool}
    {library : String} {getType : Option String} {ownership : Ownership}
    (h : bridge.heap.Reports slot record quark code message)
    (hsound : bridge.heap.Sound) (hname : bridge.quarks.name? quark = some domain)
    (hquark : quark < twoPow 32)
    (hfind : bridge.symbols.find (errorLibrary env) quarkNamer = .ok .quarkToString)
    (hindex : plan.errorIndex? = some index)
    (harg : frame.args[index]? =
      some ⟨.reference (.boxed errorType library ownership getType), .pointer slot, optional⟩)
    (hslot : slot.isNull = false) :
    pendingError env plan frame bridge =
      .ok (some ⟨domain, code.toInt, message⟩) (attempt (release env record none) bridge) := by
  have hrecord := h.starts.room.isNull hsound
  have hfound : read slot (.boxed errorType library ownership getType) 0 bridge =
      .ok (.pointer record) bridge := read_eq_ok (Heap.read_boxed hslot hrecord h.slot)
  rw [pendingError, hindex]
  dsimp only
  rw [harg]
  dsimp only
  rw [Value.nonNull?_eq_some rfl hslot]
  dsimp only
  rw [bind_eq_of_eq_ok hfound, Value.nonNull?_eq_some rfl hrecord]
  dsimp only
  rw [bind_eq_of_eq_ok (takeError_eq_ok h hsound hname hquark hfind)]
  rfl

end Bridge

end Interop
