import Interop.Proofs.Bindings.Scalars
import Interop.Proofs.Bridge.Operations

/-! # Fields of instances

An instance of a record lies in a block of its own. A scalar field that was written is read as it
was written, and the scalar fields beside it are read as before.
-/

namespace Interop

open Schema Relation Steps

variable {H : Host}

namespace Bridge

variable {env : Env H} {bridge bridge' : Bridge H} {qualified : String}

/-! ## New instances -/

/-- The record of a full name has been compiled, and its namespace is registered. -/
structure Registered (env : Env H) (bridge : Bridge H) (owner : String)
    (bindings : NamespaceBinding) (record : RecordBinding) : Prop where
  compiled : ∃ name, (splitQualified owner).1 = some name ∧
    env.compiler.namespace? name = .ok bindings ∧ bridge.namespace? name = some bindings
  found : bindings.record? owner = some record

theorem Registered.evolves {owner : String} {bindings : NamespaceBinding} {record : RecordBinding}
    (h : Registered env bridge owner bindings record) (hevolves : Evolves env bridge bridge') :
    Registered env bridge' owner bindings record := by
  obtain ⟨name, hname, hcompiled, hregistered⟩ := h.compiled
  exact ⟨⟨name, hname, hcompiled, hevolves.namespace?_eq hregistered⟩, h.found⟩

/-- A new instance is a block of the size of its record, which is given to a wrapper. -/
theorem steps_of_allocRecord_eq_ok {value : Value}
    (h : allocRecord env qualified bridge = .ok value bridge') :
    ∃ bindings record handle middle last id,
      namespaceOf env qualified bridge = .ok bindings middle ∧
      bindings.record? qualified = some record ∧
      alloc record.shape.total.size (some record.typeName) (some bindings.library) middle =
        .ok handle last ∧
      wrap env handle (some record.typeName) .full last = .ok value bridge' ∧
      value = .object id handle := by
  obtain ⟨bindings, middle, hspace, h⟩ := of_bind_eq_ok h
  cases hrecord : bindings.record? qualified with
  | none =>
      rw [hrecord] at h
      cases h
  | some record =>
      rw [hrecord] at h
      obtain ⟨handle, last, halloc, h⟩ := of_bind_eq_ok h
      obtain ⟨wrapped, final, hwrap, h⟩ := of_bind_eq_ok h
      rcases of_wrap_eq_ok hwrap with rfl | ⟨id, rfl⟩
      · cases h
      · cases h
        exact ⟨bindings, record, handle, middle, last, id, hspace, hrecord, of_inCall_eq_ok halloc,
          hwrap, rfl⟩

/-- A new instance lies in memory that was not in use, and the record behind it is registered. -/
theorem of_allocRecord_eq_ok (hvalid : bridge.Valid env) (hlawful : env.Lawful) {value : Value}
    (h : allocRecord env qualified bridge = .ok value bridge') :
    ∃ bindings record addr id, Registered env bridge' qualified bindings record ∧
      value = .object id (.ofNat addr) ∧ 0 < addr ∧ addr < bridge'.heap.next := by
  obtain ⟨bindings, record, handle, middle, last, id, hspace, hrecord, halloc, hwrap, rfl⟩ :=
    steps_of_allocRecord_eq_ok h
  have hregistered : Registered env middle qualified bindings record :=
    ⟨of_namespaceOf_eq_ok hvalid hspace, hrecord⟩
  have hmiddle := Evolves.valid ((within_namespaceOf qualified).of_eq_ok hspace) hvalid
  obtain ⟨rfl, rfl⟩ := of_alloc_eq_ok halloc
  have hevolves := ((governs_step hlawful).serves.within_wrap _ _ _).of_eq_ok hwrap
  have hkept := hregistered.evolves (.trans (.single (.heap (.alloc ..))) hevolves)
  -- functions of the host may run when the instance is wrapped, but addresses only grow
  have hnext := Nat.lt_of_lt_of_le
    (Heap.lt_next_alloc middle.heap record.shape.total.size (some record.typeName))
    (Evolves.next_le hevolves)
  exact ⟨bindings, record, middle.heap.next, id, hkept, rfl, hmiddle.sound.next_pos, by omega⟩

end Bridge

/-- The field of a name, if the fields of the record are shown. -/
def RecordBinding.access (record : RecordBinding) (owner name : String) :
    Except BindError FieldBinding :=
  if record.shape.isSealed then .error (.marshal (.opaqueRecord owner))
  else match record.fields.find? (·.layout.field == name) with
    | some field => .ok field
    | none => .error (.marshal (.unknownField owner name))

namespace RecordBinding

variable {record : RecordBinding} {owner name : String} {binding : FieldBinding}

theorem of_access_eq_ok (h : record.access owner name = .ok binding) :
    binding ∈ record.fields ∧ binding.layout.field = name := by
  unfold access at h
  split at h
  next => cases h
  next =>
    cases hfind : record.fields.find? (·.layout.field == name) with
    | none =>
        rw [hfind] at h
        cases h
    | some found =>
        rw [hfind] at h
        cases h
        exact ⟨List.mem_of_find?_eq_some hfind, eq_of_beq (by simpa using List.find?_some hfind)⟩

end RecordBinding

namespace Bridge

/-- What a step gives, or why it fails. -/
def outcome {α : Type} (step : Run H α) (bridge : Bridge H) : Except BindError α :=
  match step bridge with
  | .ok value _ => .ok value
  | .error error _ => .error error

variable {env : Env H} {bridge bridge' : Bridge H} {owner name : String}
  {bindings : NamespaceBinding} {record : RecordBinding}

/-- The fields of a registered record are found without further ado. -/
theorem Registered.fieldOf_eq (h : Registered env bridge owner bindings record) (name : String) :
    fieldOf env owner name bridge = (MonadExcept.ofExcept (record.access owner name) :
      Run H FieldBinding) bridge := by
  obtain ⟨space, hspace, _, hregistered⟩ := h.compiled
  simp only [fieldOf, bind, EStateM.bind, namespaceOf_eq_ok hspace hregistered, h.found]
  unfold RecordBinding.access
  cases hsealed : record.shape.isSealed with
  | true => rfl
  | false =>
      simp only [Bool.false_eq_true, if_false, pure, EStateM.pure, EStateM.bind]
      cases record.fields.find? (·.layout.field == name) <;> rfl

theorem Registered.fieldOf_eq_ok (h : Registered env bridge owner bindings record)
    {binding : FieldBinding} (haccess : record.access owner name = .ok binding) :
    fieldOf env owner name bridge = .ok binding bridge := by
  rw [h.fieldOf_eq, haccess]
  rfl

/-! ## Scalars -/

section Scalar

variable {descriptor : Descriptor} (hscalar : descriptor.IsScalar)
include hscalar

theorem lowerStored_scalar (value : Value) :
    (lowerStored descriptor value : Run H Value) = pure value.stored := by
  cases descriptor with
  | primitive | string => cases value <;> simp [lowerStored, Value.stored]
  | _ => exact hscalar.elim

theorem liftBorrowed_scalar (raw : Value) :
    (liftBorrowed env descriptor raw : Run H Value) =
      pure (if raw.isNull then .null else raw) := by
  unfold liftBorrowed Value.isNull
  cases raw.asHandle? with
  | none => rfl
  | some handle =>
      simp only [Option.any_some]
      cases descriptor with
      | primitive | string => split <;> rfl
      | _ => exact hscalar.elim

/-- What is read as a scalar is not null in disguise. -/
theorem isNull_represent? {heap : Heap} {value v : Value}
    (h : heap.represent? descriptor value = some (.ok v)) :
    (if v.isNull then .null else v) = v := by
  cases descriptor with
  | primitive kind size =>
      obtain ⟨found, hfound, hsame⟩ := Option.map_eq_some_iff.1 h
      cases hsame
      cases kind with
      | void =>
          cases hfound
          rfl
      | pointer =>
          obtain ⟨handle, _, rfl⟩ := Option.map_eq_some_iff.1 hfound
          cases hnull : handle.isNull with
          | true => rfl
          | false => simp [Value.isNull, Value.asHandle?, hnull]
      | _ =>
          obtain ⟨view, _, rfl⟩ := Option.map_eq_some_iff.1 hfound
          rfl
  | string ownership =>
      rcases Heap.represent?_string_cases h with ⟨_, _, rfl⟩ | ⟨_, _, ⟨_, rfl⟩ | ⟨_, _, rfl⟩⟩ <;> rfl
  | _ => exact hscalar.elim

theorem inlineArray?_scalar {binding : FieldBinding} (h : binding.descriptor = descriptor) :
    inlineArray? binding = none := by
  subst h
  unfold inlineArray?
  split
  next hdescriptor =>
    rw [hdescriptor] at hscalar
    exact hscalar.elim
  next => rfl

end Scalar

/-! ## Reading and writing -/

section Access

variable {inst : Value} {base : Handle} (h : Registered env bridge owner bindings record)
include h

theorem readField_of_error {error : BindError}
    (haccess : record.access owner name = .error error) :
    readField env inst owner name bridge = .error error bridge := by
  simp only [readField, bind, EStateM.bind, h.fieldOf_eq, haccess]
  rfl

theorem readField_of_not_readable {binding : FieldBinding}
    (haccess : record.access owner name = .ok binding) (hreadable : binding.readable = false) :
    readField env inst owner name bridge =
      .error (.marshal (.fieldAccess owner name "readable")) bridge := by
  simp only [readField, bind, EStateM.bind, h.fieldOf_eq_ok haccess, hreadable]
  rfl

/-- What is read from a scalar field is what is read from its place in memory. -/
theorem readField_scalar {binding : FieldBinding} (hbase : inst.nonNull? = some base)
    (haccess : record.access owner name = .ok binding) (hreadable : binding.readable = true)
    (hscalar : binding.descriptor.IsScalar) :
    outcome (readField env inst owner name) bridge =
      ((bridge.heap.read base binding.descriptor binding.layout.offset).map fun raw =>
        if raw.isNull then .null else raw).mapError .dispatch := by
  have hread : readField env inst owner name bridge =
      (inCall (read base binding.descriptor binding.layout.offset) >>= fun raw =>
        liftBorrowed env binding.descriptor raw) bridge := by
    simp only [readField, needInstance, bind, EStateM.bind, h.fieldOf_eq_ok haccess, hreadable,
      hbase]
    simp only [inlineArray?_scalar hscalar rfl]
    rfl
  rw [outcome, hread]
  simp only [liftBorrowed_scalar hscalar, bind, EStateM.bind, inCall, read_eq]
  cases bridge.heap.read base binding.descriptor binding.layout.offset <;> rfl

/-- A scalar that is found in memory in the form of a value is read in that form. -/
theorem readField_represent? {binding : FieldBinding} {value : Value}
    (hbase : inst.nonNull? = some base) (haccess : record.access owner name = .ok binding)
    (hreadable : binding.readable = true) (hscalar : binding.descriptor.IsScalar)
    (hform : bridge.heap.represent? binding.descriptor value =
      some (bridge.heap.read base binding.descriptor binding.layout.offset)) :
    outcome (readField env inst owner name) bridge =
      (bridge.heap.read base binding.descriptor binding.layout.offset).mapError .dispatch := by
  rw [readField_scalar h hbase haccess hreadable hscalar]
  cases hread : bridge.heap.read base binding.descriptor binding.layout.offset with
  | error error => rfl
  | ok raw =>
      rw [hread] at hform
      exact congrArg Except.ok (isNull_represent? hscalar hform)

/-- A scalar field is read alike in two states if it is read alike from memory. -/
theorem readField_congr (h' : Registered env bridge' owner bindings record)
    (hbase : inst.nonNull? = some base)
    (hsame : ∀ binding, record.access owner name = .ok binding → binding.descriptor.IsScalar ∧
      bridge'.heap.read base binding.descriptor binding.layout.offset =
        bridge.heap.read base binding.descriptor binding.layout.offset) :
    outcome (readField env inst owner name) bridge' =
      outcome (readField env inst owner name) bridge := by
  cases haccess : record.access owner name with
  | error error =>
      rw [outcome, outcome, readField_of_error h haccess, readField_of_error h' haccess]
  | ok binding =>
      obtain ⟨hscalar, hread⟩ := hsame binding haccess
      cases hreadable : binding.readable with
      | false =>
          rw [outcome, outcome, readField_of_not_readable h haccess hreadable,
            readField_of_not_readable h' haccess hreadable]
      | true =>
          rw [readField_scalar h hbase haccess hreadable hscalar,
            readField_scalar h' hbase haccess hreadable hscalar, hread]

/-- A write of a scalar field is a write of its place in memory. -/
theorem of_writeField_eq_ok {value : Value} {u : Unit}
    (hscalar : ∀ binding, record.access owner name = .ok binding → binding.descriptor.IsScalar)
    (hbase : inst.nonNull? = some base)
    (hwrite : writeField env inst owner name value bridge = .ok u bridge') :
    ∃ binding, record.access owner name = .ok binding ∧
      bridge' = { bridge with heap := bridge'.heap } ∧
      Heap.write base binding.descriptor binding.layout.offset value.stored bridge.heap =
        .ok u bridge'.heap := by
  rw [writeField_eq] at hwrite
  obtain ⟨binding, looked, hlook, hwrite⟩ := of_bind_eq_ok hwrite
  cases haccess : record.access owner name with
  | error error =>
      rw [h.fieldOf_eq, haccess] at hlook
      cases hlook
  | ok found =>
      rw [h.fieldOf_eq_ok haccess] at hlook
      cases hlook
      have hform := hscalar binding haccess
      have hcase := writeTo_cases inst owner name value binding bridge
      rw [hwrite] at hcase
      cases hcase with
      | single hinst _ hstore =>
          obtain rfl := Option.some.inj (hbase.symm.trans hinst)
          rw [storeAt, lowerStored_scalar hform, pure_bind] at hstore
          obtain ⟨hstored, hafter⟩ := of_write_eq_ok hstore
          exact ⟨binding, rfl, hafter, hstored⟩
      | each _ _ harray =>
          rw [inlineArray?_scalar hform rfl] at harray
          cases harray

end Access

end Bridge

end Interop
