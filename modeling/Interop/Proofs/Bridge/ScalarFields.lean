import Interop.Proofs.Bridge.Fields

/-! # Writing scalar fields of an instance

Whatever happened to an instance since it was made, a scalar field that is written is read in the
form its descriptor has for the value, and no other scalar field is read differently than before.
A field for texts only keeps the address of its text. Where a text lies in the bytes that are
written, because a raw address was stored, it may be another one afterwards.
-/

namespace Interop

open Schema Relation Steps

variable {H : Host}

namespace Bridge

/-- If an address of a text is stored in one field, writing another one leaves the text alone and
makes no block at the address. -/
def SparesText (before after : Heap) (base : Handle) (written sibling : FieldBinding) : Prop :=
  ∀ ownership target, sibling.descriptor = .string ownership →
    before.readPointer base sibling.layout.offset = .ok target →
      before.Spares after (base.toNat + written.layout.offset)
        (base.toNat + written.layout.endOffset) target

variable {repo : Repository} {options : Options} {env : Env H} {space : Namespace}
  {record : Record}

/-- A scalar field that is found in the record behind a declared struct is as wide as its place
among the fields. -/
theorem fitsAmong_of_access (hcompiler : env.compiler = .ofRepository repo options)
    (hpointer : options.pointerSize = Heap.pointerSize) (hdistinct : repo.Distinct)
    (hspace : space ∈ repo.spaces) (hrecord : record ∈ space.records ++ space.unions)
    (hkind : record.kind = .struct) (hnames : (record.fields.map (·.name)).Nodup)
    {bridge : Bridge H} {bindings : NamespaceBinding} {found : RecordBinding}
    (hregistered : Registered env bridge (space.qualify record.name) bindings found) :
    ∀ field ∈ record.fields, field.type.isScalar repo space.name = true →
      ∀ binding, found.access (space.qualify record.name) field.name = .ok binding →
        binding.layout.field = field.name ∧
          binding.FitsAmong ((Compiler.ofRepository repo options).platform.place
            [space.qualify record.name] space.name .struct record.fields).1 ∧
          binding.readable = field.readable := by
  intro field hfield hscalar binding haccess
  obtain ⟨hmem, hlayout⟩ := RecordBinding.of_access_eq_ok haccess
  obtain ⟨name, howner, hcompiled, _⟩ := hregistered.compiled
  rw [hcompiler] at hcompiled
  rw [← hkind]
  exact ⟨hlayout, Compiler.scalar_of_mem_record hpointer hdistinct hspace hrecord hnames hcompiled
    howner hregistered.found hmem hfield hlayout.symm hscalar⟩

theorem not_mem_of_stored {value : Value}
    (hzero : ∀ text, value = .string text → '\x00' ∉ text.toList) (text : String)
    (h : value.stored = .string text) : '\x00' ∉ text.toList := by
  cases value with
  | string other =>
      cases h
      exact hzero text rfl
  | _ => cases h

/-- Whatever happens between making an instance and writing one of its scalar fields, the field is
read afterwards in the form that its descriptor has for the value, and every other scalar field of
the instance is read as before, unless it holds a text that is not spared. Addresses have to fit
into 64 bits. -/
theorem outcome_readField_writeField (hcompiler : env.compiler = .ofRepository repo options)
    (hpointer : options.pointerSize = Heap.pointerSize) (hlawful : env.Lawful)
    (hdistinct : repo.Distinct) (hspace : space ∈ repo.spaces)
    (hrecord : record ∈ space.records ++ space.unions) (hkind : record.kind = .struct)
    (hnames : (record.fields.map (·.name)).Nodup)
    {start made before after : Bridge H} {inst value : Value} (hreachable : Reachable env start)
    (hmade : allocRecord env (space.qualify record.name) start = .ok inst made)
    (hevolves : Evolves env made before)
    {field : Field} (hfield : field ∈ record.fields)
    (hscalar : field.type.isScalar repo space.name = true) (hreadable : field.readable = true)
    (hwrite : writeField env inst (space.qualify record.name) field.name value before =
      .ok () after)
    (hfits : after.heap.next ≤ twoPow 64)
    (hzero : ∀ text, value = .string text → '\x00' ∉ text.toList) :
    ∃ binding base, fieldOf env (space.qualify record.name) field.name before =
        .ok binding before ∧
      inst.asHandle? = some base ∧
      (∃ result, after.heap.represent? binding.descriptor value.stored = some result ∧
        outcome (readField env inst (space.qualify record.name) field.name) after =
          result.mapError .dispatch) ∧
      ∀ other ∈ record.fields, other.type.isScalar repo space.name = true →
        other.name ≠ field.name →
        (∀ sibling, fieldOf env (space.qualify record.name) other.name before =
            .ok sibling before →
          SparesText before.heap after.heap base binding sibling) →
        outcome (readField env inst (space.qualify record.name) other.name) after =
          outcome (readField env inst (space.qualify record.name) other.name) before := by
  have hvalid := hreachable.valid
  obtain ⟨bindings, found, addr, id, hregistered, rfl, hpos, haddr⟩ :=
    of_allocRecord_eq_ok hvalid hlawful hmade
  have hbefore := Evolves.valid
    (((within_allocRecord hlawful _).of_eq_ok hmade).trans hevolves) hvalid
  have hregistered := hregistered.evolves hevolves
  have hspec := fitsAmong_of_access hcompiler hpointer hdistinct hspace hrecord hkind hnames
    hregistered
  -- addresses only grow, so the one of the instance fits if those after the write do
  have hmadeLe := Evolves.next_le hevolves
  have hbeforeLe := Evolves.next_le ((within_writeField _ _ _ _).of_eq_ok hwrite)
  have haddress : (Handle.ofNat addr).toNat = addr := Handle.toNat_ofNat_of_lt (by omega)
  have hhandle : (Handle.ofNat addr).toNat < before.heap.next := by omega
  have hbase : (Value.object id (.ofNat addr)).nonNull? = some (.ofNat addr) := by
    have hnull := Handle.isNull_eq_false_iff.2 (haddress.symm ▸ hpos)
    simp [Value.nonNull?, Value.asHandle?, hnull]
  obtain ⟨binding, haccess, hafter, hstored⟩ := of_writeField_eq_ok hregistered
    (fun binding haccess => (hspec field hfield hscalar binding haccess).2.1.form) hbase hwrite
  obtain ⟨hlayout, hfitting, hread⟩ := hspec field hfield hscalar binding haccess
  have hregisteredAfter := hregistered.evolves ((within_writeField _ _ _ _).of_eq_ok hwrite)
  have hself := Heap.read_write_self hbefore.sound hfitting.form hhandle hfits
    (not_mem_of_stored hzero) hstored
  refine ⟨binding, .ofNat addr, hregistered.fieldOf_eq_ok haccess, rfl, ⟨_, hself,
    readField_represent? hregisteredAfter hbase haccess (hread.trans hreadable) hfitting.form
      hself⟩, ?_⟩
  intro other hother hotherScalar hne hspares
  refine readField_congr hregistered hregisteredAfter hbase fun sibling hsibling => ?_
  obtain ⟨hbeside, hfitsBeside, _⟩ := hspec other hother hotherScalar sibling hsibling
  have hspared := hspares sibling (hregistered.fieldOf_eq_ok hsibling)
  have hapart := Platform.apart_of_fitsAmong hfitting hfitsBeside (by
    rw [hlayout, hbeside]
    exact hne.symm)
  refine ⟨hfitsBeside.form, Heap.read_write_other hbefore.sound hfitting.form hhandle hfits hstored
    hfitsBeside.form hapart fun ownership hstring target htarget => ?_⟩
  have htext := hspared ownership target hstring htarget
  rwa [FieldLayout.endOffset, hfitting.width, ← Nat.add_assoc] at htext

/-! ## A record with texts -/

/-- A number in front of two texts. -/
def labelled : Record where
  name := "R"
  fields := [.shown "f" (.named "gint"), .shown "g" (.named "utf8"), .shown "h" (.named "utf8")]

def labels : Namespace where
  name := "N"
  libraries := [coreLibrary]
  records := [labelled]

/-- The program in which there are records with texts. -/
abbrev labelsEnv : Env silent := silentEnv (.ofSpaces [labels])

/-- The first record with texts that is made. -/
def firstLabelled : Value := (value? (allocRecord labelsEnv "N.R" (start ()))).getD .null

/-- The state in which it has been made. -/
def labelledMade : Bridge silent := ending (allocRecord labelsEnv "N.R" (start ()))

/-- The state after a field of it has been written. -/
def labelledWith (name : String) (value : Value) (bridge : Bridge silent) : Bridge silent :=
  ending (writeField labelsEnv firstLabelled "N.R" name value bridge)

theorem distinct_labels : (Repository.ofSpaces [labels]).Distinct := by
  unfold Repository.Distinct
  decide +kernel

theorem allocRecord_labels :
    allocRecord labelsEnv "N.R" (start ()) = .ok firstLabelled labelledMade := by
  have hmade : (value? (allocRecord labelsEnv "N.R" (start ()))).isSome = true := by
    decide +kernel
  have hok := eq_ok_of_isSome .null hmade
  exact hok

/-- Whether a field of it can be written. -/
def accepts (name : String) (value : Value) (bridge : Bridge silent) : Bool :=
  (value? (writeField labelsEnv firstLabelled "N.R" name value bridge)).isSome

theorem writeField_of_accepts {name : String} {value : Value} {bridge : Bridge silent}
    (h : accepts name value bridge = true) :
    writeField labelsEnv firstLabelled "N.R" name value bridge =
      .ok () (labelledWith name value bridge) :=
  eq_ok_of_isSome () h

theorem labelled_outcome :
    allocRecord labelsEnv "N.R" (start ()) = .ok firstLabelled labelledMade ∧
      writeField labelsEnv firstLabelled "N.R" "f" (.int 65) labelledMade =
        .ok () (labelledWith "f" (.int 65) labelledMade) ∧
      ∃ binding base, fieldOf labelsEnv "N.R" "f" labelledMade = .ok binding labelledMade ∧
        firstLabelled.asHandle? = some base ∧
        (∃ result, (labelledWith "f" (.int 65) labelledMade).heap.represent? binding.descriptor
            (.int 65) = some result ∧
          outcome (readField labelsEnv firstLabelled "N.R" "f")
            (labelledWith "f" (.int 65) labelledMade) = result.mapError .dispatch) ∧
        ∀ other ∈ labelled.fields, other.type.isScalar (.ofSpaces [labels]) "N" = true →
          other.name ≠ "f" →
          (∀ sibling, fieldOf labelsEnv "N.R" other.name labelledMade =
              .ok sibling labelledMade →
            SparesText labelledMade.heap (labelledWith "f" (.int 65) labelledMade).heap base
              binding sibling) →
          outcome (readField labelsEnv firstLabelled "N.R" other.name)
              (labelledWith "f" (.int 65) labelledMade) =
            outcome (readField labelsEnv firstLabelled "N.R" other.name) labelledMade := by
  have hwrite := writeField_of_accepts
    (show accepts "f" (.int 65) labelledMade = true by decide +kernel)
  refine ⟨allocRecord_labels, hwrite, ?_⟩
  exact @outcome_readField_writeField silent (.ofSpaces [labels]) {} labelsEnv labels labelled rfl
    rfl (lawful_silentEnv _) distinct_labels (List.mem_singleton.2 rfl)
    (List.mem_singleton.2 rfl) rfl (by decide +kernel) (start ()) _ _ _ _ _ ⟨(), .refl⟩
    allocRecord_labels .refl (.shown "f" (.named "gint")) List.mem_cons_self (by decide +kernel) rfl
    hwrite (by decide +kernel) (fun _ htext => by cases htext)

/-- The text that is read. -/
def textOf? : Except BindError Value → Option String
  | .ok (.string text) => some text
  | _ => none

theorem eq_ok_of_textOf? {result : Except BindError Value} {text : String}
    (h : textOf? result = some text) : result = .ok (.string text) := by
  unfold textOf? at h
  split at h
  next =>
    cases h
    rfl
  next => cases h

/-- A text field that holds the address of the record itself shows the number in front of it, and
one that holds the address of a block that is not there yet shows the next text that is stored. -/
theorem labelled_texts_change :
    (Repository.ofSpaces [labels]).Distinct ∧ (labelled.fields.map (·.name)).Nodup ∧
      allocRecord labelsEnv "N.R" (start ()) = .ok firstLabelled labelledMade ∧
      (∃ counted aliased after,
        writeField labelsEnv firstLabelled "N.R" "f" (.int 65) labelledMade = .ok () counted ∧
        writeField labelsEnv firstLabelled "N.R" "g" firstLabelled counted = .ok () aliased ∧
        writeField labelsEnv firstLabelled "N.R" "f" (.int 66) aliased = .ok () after ∧
        outcome (readField labelsEnv firstLabelled "N.R" "g") aliased = .ok (.string "A") ∧
        outcome (readField labelsEnv firstLabelled "N.R" "g") after = .ok (.string "B")) ∧
      ∃ dangling after,
        writeField labelsEnv firstLabelled "N.R" "g" (.pointer (.ofNat 0x1030)) labelledMade =
          .ok () dangling ∧
        writeField labelsEnv firstLabelled "N.R" "h" (.string "x") dangling = .ok () after ∧
        textOf? (outcome (readField labelsEnv firstLabelled "N.R" "g") dangling) = none ∧
        outcome (readField labelsEnv firstLabelled "N.R" "g") after = .ok (.string "x") := by
  refine ⟨distinct_labels, by decide +kernel, allocRecord_labels, ?_, ?_⟩
  · refine ⟨_, _, _, writeField_of_accepts ?_, writeField_of_accepts ?_, writeField_of_accepts ?_,
      eq_ok_of_textOf? ?_, eq_ok_of_textOf? ?_⟩ <;> decide +kernel
  · refine ⟨_, _, writeField_of_accepts ?_, writeField_of_accepts ?_, ?_, eq_ok_of_textOf? ?_⟩ <;>
      decide +kernel

end Bridge

end Interop
