import Interop.Proofs.Bridge.Changes
import Interop.Proofs.Bridge.Fields
import Interop.Proofs.Descriptor.Parts

/-! # Records inside of records

A field that a record is stored in is read as a wrapper of its place in memory. The wrapper is one
of the class of the field's record if natives of this class are wrapped without identity, or if no
live wrapper of another class is filed under the address. Otherwise it is the wrapper that is filed
there, which for the first field of a record may be the wrapper of the record itself.
-/

namespace Interop

open Schema Relation Steps

variable {H : Host}

namespace Handle

theorem of_offset?_eq_some {handle inner : Handle} {offset : Nat}
    (h : handle.offset? offset = some inner) :
    handle.toNat + offset < twoPow 64 ∧ inner = .ofNat (handle.toNat + offset) := by
  unfold offset? at h
  split at h
  next hfits =>
    cases h
    exact ⟨hfits, rfl⟩
  next => cases h

/-- What lies behind something is something. -/
theorem isNull_of_offset?_eq_some {handle inner : Handle} {offset : Nat}
    (hnull : handle.isNull = false) (h : handle.offset? offset = some inner) :
    inner.isNull = false := by
  obtain ⟨hfits, rfl⟩ := of_offset?_eq_some h
  rw [isNull_eq_false_iff] at hnull ⊢
  rw [toNat_ofNat_of_lt hfits]
  exact Nat.add_pos_left hnull offset

end Handle

/-- The wrapper that is passed as the value, and its handle. -/
def Value.wrapped? : Value → Option (WrapperId × Handle)
  | .object id handle => some (id, handle)
  | _ => none

theorem Value.isNull_of_nonNull?_eq_some {value : Value} {handle : Handle}
    (h : value.nonNull? = some handle) : handle.isNull = false := by
  simpa using (Option.filter_eq_some_iff.1 h).2

theorem Value.eq_object_of_wrapped? {value : Value} {id : WrapperId} {handle : Handle}
    (h : value.wrapped? = some (id, handle)) : value = .object id handle := by
  unfold wrapped? at h
  split at h
  next =>
    cases h
    rfl
  next => cases h

namespace Bridge

variable {env : Env H} {bridge bridge' after : Bridge H} {handle : Handle}

/-! ## Registering leaves wrappers alone -/

/-- The wrappers and their entries are the same. -/
def SameWrappers (bridge bridge' : Bridge H) : Prop :=
  bridge'.registry.wrappers = bridge.registry.wrappers ∧
    bridge'.registry.identities = bridge.registry.identities

theorem registers_sameWrappers (env : Env H) : Registers env SameWrappers where
  register _ := ⟨rfl, rfl⟩
  registerClass _ _ h := by
    obtain ⟨classes, _, rfl⟩ := Registry.of_registerClass_eq_ok h
    exact ⟨rfl, rfl⟩
  link _ _ := ⟨rfl, rfl⟩
  other h := by
    rw [SameWrappers, h.registry]
    exact ⟨rfl, rfl⟩

theorem SameWrappers.of_run (h : ReflTransGen SameWrappers bridge bridge') :
    SameWrappers bridge bridge' := by
  induction h with
  | refl => exact ⟨rfl, rfl⟩
  | tail _ hstep ih => exact ⟨hstep.1.trans ih.1, hstep.2.trans ih.2⟩

theorem SameWrappers.wrapper?_eq (h : SameWrappers bridge bridge') (id : WrapperId) :
    bridge'.registry.wrapper? id = bridge.registry.wrapper? id := by
  rw [Registry.wrapper?, Registry.wrapper?, h.1]

theorem SameWrappers.filed (h : SameWrappers bridge bridge') (hfiled : bridge.registry.Filed) :
    bridge'.registry.Filed := by
  refine hfiled.mono (fun entry hentry => ?_) fun id wrapper hwrapper => ?_
  · rwa [h.2] at hentry
  · exact ⟨wrapper, (h.wrapper?_eq id).trans hwrapper, rfl⟩

/-! ## Wrapping without a reference -/

/-- Every live wrapper that is filed under the handle is one of the class. -/
def FiledAs (bridge : Bridge H) (handle : Handle) (cls : NativeClass) : Prop :=
  ∀ id wrapper, bridge.registry.identities.lookup handle = some id →
    bridge.registry.wrapper? id = some wrapper → wrapper.isLive = true → wrapper.cls = cls

theorem SameWrappers.filedAs_iff (h : SameWrappers bridge bridge') {cls : NativeClass} :
    bridge'.FiledAs handle cls ↔ bridge.FiledAs handle cls := by
  simp only [FiledAs, h.2, h.wrapper?_eq]

/-- What a handle is wrapped as when it is asked for as an instance of a class. -/
structure Faced (bridge after : Bridge H) (handle : Handle) (target : String)
    (value : Value) (id : WrapperId) (wrapper : Wrapper) (cls : NativeClass) : Prop where
  value_eq : value = .object id handle
  wrapper_eq : after.registry.wrapper? id = some wrapper
  live : wrapper.isLive = true
  handle_eq : wrapper.handle = handle
  registered : after.registry.classes.get? target = some cls
  cls_eq_iff : wrapper.cls = cls ↔ cls.kind = .struct ∨ bridge.FiledAs handle cls

/-- A handle that gets a new wrapper has no live one, unless the new one is without identity. -/
theorem filedAs_of_free {swept : Registry}
    (hswept : swept = bridge.registry ∨ swept = bridge.registry.sweep handle)
    (hfree : swept.identities.lookup handle = none) (cls : NativeClass) :
    bridge.FiledAs handle cls := by
  intro id wrapper hentry hwrapper hlive
  have hsame : swept = bridge.registry := by
    rcases hswept with hsame | hsame
    · exact hsame
    · rw [hsame]
      refine Registry.sweep_eq_self fun other hother => ?_
      rw [hentry, Option.some.injEq] at hother
      rw [← hother, Registry.isLive_eq hwrapper, hlive]
  rw [hsame, hentry] at hfree
  cases hfree

theorem faced_of_wrap_eq_ok {target : String} {value : Value} (hfiled : bridge.registry.Filed)
    (hnull : handle.isNull = false)
    (h : wrap env handle (some target) .none bridge = .ok value after) :
    ∃ id wrapper cls, Faced bridge after handle target value id wrapper cls := by
  have hcase := bridge.registry.wrap_cases bridge.introspection handle (some target) .none
  unfold wrap wrapRaw at h
  generalize bridge.registry.wrap bridge.introspection handle (some target) .none = outcome
    at hcase h
  cases hcase with
  | null hisNull => exact absurd (hisNull.symm.trans hnull) (by decide)
  | failed => cases h
  | @found id wrapper _ hentry hwrapper hlive htarget =>
      obtain ⟨cls, hcls, hkind⟩ := htarget target rfl
      have hagain := Registry.wrapper?_replace hwrapper (wrapper.rewrapped .none) id
      cases h
      refine ⟨id, wrapper.rewrapped .none, cls, rfl, hagain.trans (if_pos rfl),
        Wrapper.isLive_rewrapped _ _, ?_, hcls, ?_⟩
      · change wrapper.handle = handle
        exact hfiled.handle_eq hentry hwrapper
      -- the wrapper that is found is the one that is filed
      · constructor
        · intro hsame
          right
          intro other face hother hface _
          rw [hentry, Option.some.injEq] at hother
          rw [← hother, hwrapper, Option.some.injEq] at hface
          rw [← hface]
          exact hsame
        · rintro (hstruct | hall)
          · exact absurd hstruct hkind
          · exact hall id wrapper hentry hwrapper hlive
  | @made cls swept _ hswept hfree htarget =>
      have hmade := swept.wrapper?_create handle cls .none ⟨swept.wrappers.size⟩
      have hclasses : swept.classes = bridge.registry.classes := by
        rcases hswept with hsame | hsame <;> simp [hsame]
      cases h
      refine ⟨_, .made handle cls .none, cls, rfl, hmade.trans (if_pos rfl), rfl, rfl, ?_, ?_⟩
      · change (swept.create handle cls .none).2.classes.get? target = some cls
        rw [Registry.classes_create, hclasses]
        exact htarget target rfl
      · refine iff_of_true rfl ?_
        by_cases hkind : cls.kind = .struct
        · exact .inl hkind
        · exact .inr (filedAs_of_free hswept (hfree hkind) cls)

/-! ## Reading a record in its field -/

theorem of_read_eq_ok {descriptor : Descriptor} {offset : Nat} {raw : Value}
    (h : read handle descriptor offset bridge = .ok raw bridge') :
    bridge.heap.read handle descriptor offset = .ok raw ∧ bridge' = bridge := by
  rw [read_eq] at h
  cases hread : bridge.heap.read handle descriptor offset with
  | error error =>
      rw [hread] at h
      cases h
  | ok found =>
      rw [hread] at h
      cases h
      exact ⟨rfl, rfl⟩

/-- What is read in the place of a record is its address. -/
theorem of_read_inline_eq_ok {heap : Heap} {base : Handle} {innerType library : String}
    {size offset : Nat} {ownership : Ownership} {raw : Value}
    (h : heap.read base (.struct innerType library size true ownership) offset = .ok raw) :
    ∃ inner, base.offset? offset = some inner ∧ raw = .pointer inner := by
  unfold Heap.read at h
  split at h
  next => cases h
  next =>
    cases hspan : heap.span base offset size with
    | error error =>
        simp only [hspan] at h
        cases h
    | ok place =>
        simp only [hspan] at h
        cases hinner : base.offset? offset with
        | none =>
            simp only [hinner] at h
            cases h
        | some inner =>
            simp only [hinner] at h
            cases h
            exact ⟨inner, rfl, rfl⟩

section Read

variable {inst value : Value} {owner name innerType : String} {binding : FieldBinding}
  {middle : Bridge H}

theorem of_readField_eq_ok (hfield : fieldOf env owner name bridge = .ok binding middle)
    (hinline : binding.descriptor.inPlace? = some innerType)
    (h : readField env inst owner name bridge = .ok value after) :
    ∃ base inner, inst.nonNull? = some base ∧
      base.offset? binding.layout.offset = some inner ∧
      wrapAs env inner innerType .none middle = .ok value after := by
  obtain ⟨library, size, ownership, hdescriptor⟩ := Descriptor.of_inPlace?_eq_some hinline
  cases hreadable : binding.readable with
  | false =>
      simp only [readField, bind, EStateM.bind, hfield, hreadable] at h
      cases h
  | true =>
      cases hbase : inst.nonNull? with
      | none =>
          simp only [readField, needInstance, bind, EStateM.bind, hfield, hreadable, hbase] at h
          cases h
      | some base =>
          simp only [readField, needInstance, inlineArray?, bind, EStateM.bind, hfield, hreadable,
            hbase, hdescriptor] at h
          obtain ⟨raw, before, hraw, hlift⟩ := of_bind_eq_ok (show
            (inCall (read base (.struct innerType library size true ownership)
                binding.layout.offset) >>= fun raw =>
              liftBorrowed env (.struct innerType library size true ownership) raw) middle =
                .ok value after from h)
          obtain ⟨hread, rfl⟩ := of_read_eq_ok (of_inCall_eq_ok hraw)
          obtain ⟨inner, hinner, rfl⟩ := of_read_inline_eq_ok hread
          refine ⟨base, inner, rfl, hinner, ?_⟩
          have hbaseNull := Value.isNull_of_nonNull?_eq_some hbase
          have hinnerNull := Handle.isNull_of_offset?_eq_some hbaseNull hinner
          simpa only [liftBorrowed, Value.asHandle?, hinnerNull, Bool.false_eq_true, if_false]
            using hlift

/-- A record that is stored in a field is read as a live wrapper of its place in memory. It is one
of the class that is registered for the record, unless natives of this class keep their identity and
a live wrapper of another class is filed under the address. -/
theorem readField_inline_faced (hattained : Attained env bridge)
    (hfield : fieldOf env owner name bridge = .ok binding middle)
    (hinline : binding.descriptor.inPlace? = some innerType)
    (hread : readField env inst owner name bridge = .ok value after) :
    ∃ base id wrapper cls,
      inst.nonNull? = some base ∧ base.toNat + binding.layout.offset < twoPow 64 ∧
      value = .object id (.ofNat (base.toNat + binding.layout.offset)) ∧
      after.registry.wrapper? id = some wrapper ∧ wrapper.isLive = true ∧
      wrapper.handle = .ofNat (base.toNat + binding.layout.offset) ∧
      after.registry.classes.get? (schemaTypeName (repo env) innerType) = some cls ∧
      (wrapper.cls = cls ↔ cls.kind = .struct ∨
        bridge.FiledAs (.ofNat (base.toNat + binding.layout.offset)) cls) := by
  obtain ⟨base, inner, hbase, hinner, hwrap⟩ := of_readField_eq_ok hfield hinline hread
  obtain ⟨_, last, hspace, hwrap⟩ := of_bind_eq_ok hwrap
  obtain ⟨space, registered, hregistered, hpure⟩ := of_bind_eq_ok hspace
  cases hpure
  -- only classes and namespaces are registered before the address is wrapped
  have hsame := SameWrappers.of_run
    ((((registers_sameWrappers env).enrols.within_fieldOf owner name).of_eq_ok hfield).trans
      (((registers_sameWrappers env).enrols.within_namespaceOf innerType).of_eq_ok hregistered))
  have hbaseNull := Value.isNull_of_nonNull?_eq_some hbase
  have hinnerNull := Handle.isNull_of_offset?_eq_some hbaseNull hinner
  obtain ⟨id, wrapper, cls, hfaced⟩ :=
    faced_of_wrap_eq_ok (hsame.filed hattained.filed) hinnerNull hwrap
  obtain ⟨hfits, rfl⟩ := Handle.of_offset?_eq_some hinner
  refine ⟨base, id, wrapper, cls, hbase, hfits, hfaced.value_eq, hfaced.wrapper_eq, hfaced.live,
    hfaced.handle_eq, hfaced.registered, ?_⟩
  rw [hfaced.cls_eq_iff, hsame.filedAs_iff]

end Read

/-! ## A boxed record inside of another -/

def boxes : Namespace where
  name := "N"
  libraries := [coreLibrary]
  records := [
    { name := "Inner"
      cType := some "NInner"
      getType := some "n_inner_get_type"
      fields := [.shown "x" (.named "gint32")] },
    { name := "Outer"
      cType := some "NOuter"
      getType := some "n_outer_get_type"
      fields := [.shown "first" ((TypeRef.named "Inner").withCType "NInner"),
        .shown "second" ((TypeRef.named "Inner").withCType "NInner")] }]

/-- The program in which there are boxed records. -/
abbrev boxesEnv : Env silent := silentEnv (.ofSpaces [boxes])

/-- The first outer record that is made. -/
def firstBox : Value := (value? (allocRecord boxesEnv "N.Outer" (start ()))).getD .null

/-- The state in which it has been made. -/
def boxMade : Bridge silent := ending (allocRecord boxesEnv "N.Outer" (start ()))

def boxField (name : String) : FieldBinding :=
  (value? (fieldOf boxesEnv "N.Outer" name boxMade)).getD default

/-- The state in which a field of it has been looked up. -/
def boxFound (name : String) : Bridge silent := ending (fieldOf boxesEnv "N.Outer" name boxMade)

/-- What is read from a field of it. -/
def boxValue (name : String) : Value :=
  (value? (readField boxesEnv firstBox "N.Outer" name boxMade)).getD .null

/-- The state in which a field of it has been read. -/
def boxRead (name : String) : Bridge silent :=
  ending (readField boxesEnv firstBox "N.Outer" name boxMade)

theorem attained_boxMade : Attained boxesEnv boxMade :=
  (attained_start boxesEnv ()).trans ((governs_change_silent _).serves.within_allocRecord "N.Outer" _)

theorem fieldOf_boxMade (name : String)
    (h : (value? (fieldOf boxesEnv "N.Outer" name boxMade)).isSome = true) :
    fieldOf boxesEnv "N.Outer" name boxMade = .ok (boxField name) (boxFound name) :=
  eq_ok_of_isSome default h

theorem readField_boxMade (name : String)
    (h : (value? (readField boxesEnv firstBox "N.Outer" name boxMade)).isSome = true) :
    readField boxesEnv firstBox "N.Outer" name boxMade = .ok (boxValue name) (boxRead name) := by
  have hok := eq_ok_of_isSome .null h
  exact hok

/-- The second record in it is faced as what it is: no wrapper is filed under its address. -/
theorem second_box_faced :
    Attained boxesEnv boxMade ∧
      fieldOf boxesEnv "N.Outer" "second" boxMade =
        .ok (boxField "second") (boxFound "second") ∧
      (boxField "second").descriptor.inPlace? = some "N.Inner" ∧
      readField boxesEnv firstBox "N.Outer" "second" boxMade =
        .ok (boxValue "second") (boxRead "second") ∧
      ∃ base id wrapper cls,
        firstBox.nonNull? = some base ∧
        base.toNat + (boxField "second").layout.offset < twoPow 64 ∧
        boxValue "second" = .object id (.ofNat (base.toNat + (boxField "second").layout.offset)) ∧
        (boxRead "second").registry.wrapper? id = some wrapper ∧ wrapper.isLive = true ∧
        wrapper.handle = .ofNat (base.toNat + (boxField "second").layout.offset) ∧
        (boxRead "second").registry.classes.get? (schemaTypeName (repo boxesEnv) "N.Inner") =
          some cls ∧
        (wrapper.cls = cls ↔ cls.kind = .struct ∨
          boxMade.FiledAs (.ofNat (base.toNat + (boxField "second").layout.offset)) cls) := by
  have hfield := fieldOf_boxMade "second" (by decide +kernel)
  have hinline : (boxField "second").descriptor.inPlace? = some "N.Inner" := by decide +kernel
  have hread := readField_boxMade "second" (by decide +kernel)
  exact ⟨attained_boxMade, hfield, hinline, hread,
    readField_inline_faced attained_boxMade hfield hinline hread⟩

/-- The first record in a boxed record is read as the live wrapper of the record that it is in, and
so as one of another class than its own. -/
theorem first_box_read_as_outer :
    (Repository.ofSpaces [boxes]).Distinct ∧
      (["N.Inner", "N.Outer"].map (schemaTypeName (repo boxesEnv))).Nodup ∧
      Attained boxesEnv boxMade ∧
      allocRecord boxesEnv "N.Outer" (start ()) = .ok firstBox boxMade ∧
      fieldOf boxesEnv "N.Outer" "first" boxMade = .ok (boxField "first") (boxFound "first") ∧
      (boxField "first").readable = true ∧
      (boxField "first").descriptor.inPlace? = some "N.Inner" ∧
      readField boxesEnv firstBox "N.Outer" "first" boxMade =
        .ok (boxValue "first") (boxRead "first") ∧
      ∃ id handle wrapper cls,
        firstBox = .object id handle ∧ boxMade.registry.isLive id = true ∧
        boxValue "first" = .object id handle ∧
        (boxRead "first").registry.wrapper? id = some wrapper ∧
        (boxRead "first").registry.classes.get? (schemaTypeName (repo boxesEnv) "N.Inner") =
          some cls ∧
        wrapper.cls ≠ cls := by
  have hdistinct : (Repository.ofSpaces [boxes]).Distinct := by
    unfold Repository.Distinct
    decide +kernel
  have hsome : (value? (allocRecord boxesEnv "N.Outer" (start ()))).isSome = true := by
    decide +kernel
  have hmade := eq_ok_of_isSome .null hsome
  have hwrapper : ((boxRead "first").registry.wrapper? ⟨0⟩).map (·.cls.typeName) =
      some "NOuter" := by decide +kernel
  have hcls : ((boxRead "first").registry.classes.get?
      (schemaTypeName (repo boxesEnv) "N.Inner")).map (·.typeName) = some "NInner" := by
    decide +kernel
  obtain ⟨wrapper, hwrapper, houter⟩ := Option.map_eq_some_iff.1 hwrapper
  obtain ⟨cls, hcls, hinner⟩ := Option.map_eq_some_iff.1 hcls
  have hne : wrapper.cls ≠ cls := by
    rintro rfl
    rw [houter] at hinner
    exact absurd hinner (by decide)
  exact ⟨hdistinct, by decide +kernel, attained_boxMade, hmade,
    fieldOf_boxMade _ (by decide +kernel), by decide +kernel, by decide +kernel,
    readField_boxMade _ (by decide +kernel), ⟨0⟩, .ofNat 0x1000, wrapper, cls,
    Value.eq_object_of_wrapped? (by decide +kernel), by decide +kernel,
    Value.eq_object_of_wrapped? (by decide +kernel), hwrapper, hcls, hne⟩

end Bridge

end Interop
