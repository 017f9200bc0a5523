import Interop.Descriptor.Codec
import Interop.Proofs.Schema.Written

/-! # Descriptors read back

A descriptor conveys itself to its reader, at the top of a document and inside of another
descriptor.
-/

namespace Interop

open Schema Json

/-- Whether the count of an array of fixed size, or the index of its counter, is a 64-bit word. -/
def ArrayLength.Bounded : ArrayLength → Prop
  | fixed count => count < twoPow 64
  | param index => index < twoPow 64
  | zeroTerminated | container => True

instance (length : ArrayLength) : Decidable length.Bounded := by
  cases length <;> unfold ArrayLength.Bounded <;> infer_instance

/-- Whether all sizes and indices in a descriptor are 64-bit words. -/
inductive Descriptor.Bounded : Descriptor → Prop
  | primitive (kind : PrimitiveKind) {size : Nat} (hsize : size < twoPow 64) :
      Bounded (.primitive kind size)
  | string (ownership : Ownership) : Bounded (.string ownership)
  | boxed (innerType library : String) (ownership : Ownership) (getTypeFn : Option String) :
      Bounded (.boxed innerType library ownership getTypeFn)
  | struct (innerType library : String) {size : Nat} (inPlace : Bool) (ownership : Ownership)
      (hsize : size < twoPow 64) : Bounded (.struct innerType library size inPlace ownership)
  | object (ownership : Ownership) (hooks : Option RefHooks) : Bounded (.object ownership hooks)
  | callback (trampoline : Trampoline) {params : List Descriptor} {result : Descriptor}
      (scope : CallbackScope) {userDataIndex destroyIndex : Option Nat}
      (hparams : ∀ param ∈ params, Bounded param) (hresult : Bounded result)
      (huserData : IsWord userDataIndex) (hdestroy : IsWord destroyIndex) :
      Bounded (.callback trampoline params result scope userDataIndex destroyIndex)
  | array {element : Descriptor} (ownership : Ownership) {length : ArrayLength} (kind : ArrayKind)
      {elementSize : Nat} (helement : Bounded element) (hlength : length.Bounded)
      (hsize : elementSize < twoPow 64) :
      Bounded (.array element ownership length kind elementSize)
  | reference {inner : Descriptor} (hinner : Bounded inner) : Bounded (.reference inner)
  | null : Bounded .null

/-! ## Parts of descriptors -/

theorem conveys_taggedWord {α : Type} [DecidableEq α] {table : List (String × α)} {value : α}
    (h : table.lookup (wordIn table value) = some value) :
    Conveys (fun _ => readTaggedWord table) (writeWord table value) value :=
  ⟨.str _, fun _ _ => h⟩

theorem conveys_ownership (ownership : Ownership) :
    Conveys (fun _ => readTaggedWord transferWords) (Descriptor.writeOwnership ownership)
      ownership :=
  conveys_taggedWord (by cases ownership <;> rfl)

theorem RefHooks.conveys (hooks : RefHooks) : Conveys read hooks.toJson hooks where
  plain := .obj (by simp [Plain.str])
  read_eq room _ := by
    rw [toJson, read, Parts.ofJson?_all _ (by rfl) (by decide)]
    rfl

theorem ArrayLength.conveys {length : ArrayLength} (h : length.Bounded) :
    Conveys read length.toJson length := by
  cases length with
  | fixed count =>
      have hcount := conveys_word h
      refine ⟨.obj (by simpa using hcount.plain), fun room _ => ?_⟩
      rw [toJson, read, hcount.read_eq room (Nat.zero_le room), Option.map_some]
  | param index =>
      have hindex := conveys_word h
      refine ⟨.obj (by simpa using hindex.plain), fun room _ => ?_⟩
      rw [toJson, read, hindex.read_eq room (Nat.zero_le room), Option.map_some]
  | zeroTerminated => exact ⟨.str _, fun _ _ => rfl⟩
  | container => exact ⟨.str _, fun _ _ => rfl⟩

namespace Descriptor

theorem takeForm?_obj {word : String} {members : List (String × Json)}
    (h : "type" ∉ members.map Prod.fst) :
    takeForm? (.obj (("type", .str word) :: members)) = some (.str word, .obj members) := by
  have hother : ∀ member ∈ members, (member.1 == "type") = false := by
    intro member hmember
    rw [beq_eq_false_iff_ne]
    rintro hkey
    exact h (hkey ▸ List.mem_map_of_mem hmember)
  have hform : members.filter (·.1 == "type") = [] := by
    simpa [List.filter_eq_nil_iff] using hother
  have hrest : members.filter (·.1 != "type") = members := by
    simpa [List.filter_eq_self] using hother
  simp [takeForm?, hform, hrest]

theorem mapM_toJsons {params : List Descriptor} {room : Nat}
    (h : ∀ param ∈ params, readIntact true room param.toJson = some param) :
    (toJsons params).mapM (readIntact true room) = some params := by
  induction params with
  | nil => rfl
  | cons param params ih =>
      have hfirst := h param List.mem_cons_self
      have hrest := ih fun other hother => h other (List.mem_cons_of_mem param hother)
      simp [toJsons, hfirst, hrest]

theorem forall_mem_toJsons {P : Json → Prop} {params : List Descriptor} :
    (∀ value ∈ toJsons params, P value) ↔ ∀ param ∈ params, P param.toJson := by
  induction params with
  | nil => simp [toJsons]
  | cons param params ih => simp [toJsons, ih]

/-- An object that names its form conveys what is made of the parts beside the name. -/
theorem conveys_form {nested : Bool} {word : String} {form : Form}
    {members : List (String × Json)} {descriptor : Descriptor}
    (hform : formWords.lookup word = some form) (htype : "type" ∉ members.map Prod.fst)
    (hplain : ∀ member ∈ members, Plain member.2)
    (hread : ∀ room, Parts.FitIn members room →
      readParts (readIntact true room) room (.obj members) form = some descriptor) :
    Conveys (readIntact nested) (.obj (("type", .str word) :: members)) descriptor := by
  refine conveys_obj (List.forall_mem_cons.2 ⟨.str word, hplain⟩) fun room hroom => ?_
  rw [readIntact, takeForm?_obj htype]
  simp only [Option.bind_eq_bind, Option.bind_some, readForm, hform]
  exact hread room (List.forall_mem_cons.1 hroom).2

theorem plain_presentMember {α : Type} {read : Reader α} {write : α → Json} {content : Option α}
    {key : String} (h : ∀ a ∈ content, Conveys read (write a) a) :
    ∀ member ∈ presentMember key write content, Plain member.2 := by
  cases content with
  | none => simp [presentMember]
  | some a => simpa [presentMember] using (h a rfl).plain

/-! ## One rule for each form -/

section Forms

variable (nested : Bool)

theorem conveys_primitive (kind : PrimitiveKind) {size : Nat} (hsize : size < twoPow 64) :
    Conveys (readIntact nested) (primitive kind size).toJson (primitive kind size) := by
  have hkind : Conveys (fun _ => readTaggedWord primitiveWords) _ kind :=
    conveys_taggedWord (by cases kind <;> rfl)
  have hsize := conveys_word hsize
  rw [toJson]
  refine conveys_form rfl (by simp) ?_ fun room hroom => ?_
  · simp [hkind.plain, hsize.plain]
  · rw [readParts]
    exact bind_eq_some (Parts.ofJson?_all _ (by rfl) (by decide)) <|
      hroom.required "kind" hkind rfl <|
      hroom.required "size" hsize rfl rfl

theorem conveys_string (ownership : Ownership) :
    Conveys (readIntact nested) (string ownership).toJson (string ownership) := by
  have hownership := conveys_ownership ownership
  rw [toJson]
  refine conveys_form rfl (by simp) ?_ fun room hroom => ?_
  · simp [hownership.plain]
  · rw [readParts]
    exact bind_eq_some (Parts.ofJson?_all _ (by rfl) (by decide)) <|
      hroom.required "ownership" hownership rfl rfl

theorem conveys_boxed (innerType library : String) (ownership : Ownership)
    (getTypeFn : Option String) :
    Conveys (readIntact nested) (boxed innerType library ownership getTypeFn).toJson
      (boxed innerType library ownership getTypeFn) := by
  have hownership := conveys_ownership ownership
  have hgetType : ∀ name ∈ getTypeFn, Conveys Reader.string (.str name) name :=
    fun name _ => Json.conveys_string name
  rw [toJson]
  simp only [List.cons_append, List.nil_append]
  refine conveys_form rfl (by cases getTypeFn <;> simp [presentMember]) ?_ fun room hroom => ?_
  · simp only [List.forall_mem_cons]
    exact ⟨.str _, .str _, hownership.plain, plain_presentMember hgetType⟩
  · rw [readParts]
    exact bind_eq_some (Parts.ofJson?_obj (by cases getTypeFn <;> simp [presentMember])
        (by cases getTypeFn <;> simp [presentMember])) <|
      hroom.required "inner_type" (Json.conveys_string innerType) rfl <|
      hroom.required "library" (Json.conveys_string library) rfl <|
      hroom.required "ownership" hownership rfl <|
      hroom.present "get_type_fn" (fun _ => Json.noConfusion) hgetType
        (by cases getTypeFn <;> rfl) rfl

theorem conveys_struct (innerType library : String) {size : Nat} (inPlace : Bool)
    (ownership : Ownership) (hsize : size < twoPow 64) :
    Conveys (readIntact nested) (struct innerType library size inPlace ownership).toJson
      (struct innerType library size inPlace ownership) := by
  have hsize := conveys_word hsize
  have hownership := conveys_ownership ownership
  rw [toJson]
  refine conveys_form rfl (by simp) ?_ fun room hroom => ?_
  · simp [Plain.str, Plain.bool, hsize.plain, hownership.plain]
  · rw [readParts]
    exact bind_eq_some (Parts.ofJson?_all _ (by rfl) (by decide)) <|
      hroom.required "inner_type" (Json.conveys_string innerType) rfl <|
      hroom.required "library" (Json.conveys_string library) rfl <|
      hroom.required "size" hsize rfl <|
      hroom.withDefault "inline" (conveys_bool inPlace) rfl <|
      hroom.required "ownership" hownership rfl rfl

theorem conveys_object (ownership : Ownership) (hooks : Option RefHooks) :
    Conveys (readIntact nested) (object ownership hooks).toJson (object ownership hooks) := by
  have hownership := conveys_ownership ownership
  have hhooks : ∀ pair ∈ hooks, Conveys RefHooks.read pair.toJson pair :=
    fun pair _ => RefHooks.conveys pair
  rw [toJson]
  simp only [List.cons_append, List.nil_append]
  refine conveys_form rfl (by cases hooks <;> simp [presentMember]) ?_ fun room hroom => ?_
  · simp only [List.forall_mem_cons]
    exact ⟨hownership.plain, plain_presentMember hhooks⟩
  · rw [readParts]
    exact bind_eq_some (Parts.ofJson?_obj (by cases hooks <;> simp [presentMember])
        (by cases hooks <;> simp [presentMember])) <|
      hroom.required "ownership" hownership rfl <|
      hroom.present "hooks" (fun _ => Json.noConfusion) hhooks (by cases hooks <;> rfl) rfl

theorem conveys_callback (trampoline : Trampoline) {params : List Descriptor}
    {result : Descriptor} (scope : CallbackScope) {userDataIndex destroyIndex : Option Nat}
    (hparams : ∀ param ∈ params, Conveys (readIntact true) param.toJson param)
    (hresult : Conveys (readIntact true) result.toJson result) (huserData : IsWord userDataIndex)
    (hdestroy : IsWord destroyIndex) :
    Conveys (readIntact nested)
      (callback trampoline params result scope userDataIndex destroyIndex).toJson
      (callback trampoline params result scope userDataIndex destroyIndex) := by
  have htrampoline : Conveys (fun _ => readTaggedWord trampolineWords) _ trampoline :=
    conveys_taggedWord (by cases trampoline <;> rfl)
  have hscope : Conveys (fun _ => readTaggedWord scopeWords) _ scope :=
    conveys_taggedWord (by cases scope <;> rfl)
  have huserData : ∀ n ∈ userDataIndex, Conveys Reader.word (.nat n) n :=
    fun n hn => conveys_word (huserData n hn)
  have hdestroy : ∀ n ∈ destroyIndex, Conveys Reader.word (.nat n) n :=
    fun n hn => conveys_word (hdestroy n hn)
  have hplain : Plain (.arr (toJsons params)) :=
    .arr (forall_mem_toJsons.2 fun param hparam => (hparams param hparam).plain)
  rw [toJson]
  simp only [List.cons_append, List.nil_append]
  refine conveys_form rfl ?_ ?_ fun room hroom => ?_
  · cases userDataIndex <;> cases destroyIndex <;> simp [presentMember]
  · simp only [List.forall_mem_cons, List.forall_mem_append]
    exact ⟨htrampoline.plain, hplain, hresult.plain, hscope.plain,
      plain_presentMember huserData, plain_presentMember hdestroy⟩
  · have hdepth : (Json.arr (toJsons params)).depth ≤ room :=
      hroom ("params", .arr (toJsons params)) (by simp)
    have hitems : (toJsons params).mapM (readIntact true room) = some params :=
      mapM_toJsons fun param hparam => (hparams param hparam).read_eq room <|
        forall_mem_toJsons.1 (itemsDepth_le_iff.1 (Nat.le_of_succ_le hdepth)) param hparam
    rw [readParts]
    exact bind_eq_some (Parts.ofJson?_obj
        (by cases userDataIndex <;> cases destroyIndex <;> simp [presentMember])
        (by cases userDataIndex <;> cases destroyIndex <;> simp [presentMember])) <|
      bind_eq_some hitems <|
      hroom.required "trampoline" htrampoline rfl <|
      hroom.required "result" hresult rfl <|
      hroom.required "scope" hscope rfl <|
      hroom.present "user_data_index" (fun _ => Json.noConfusion) huserData
        (by cases userDataIndex <;> cases destroyIndex <;> rfl) <|
      hroom.present "destroy_index" (fun _ => Json.noConfusion) hdestroy
        (by cases userDataIndex <;> cases destroyIndex <;> rfl) rfl

theorem conveys_array {element : Descriptor} (ownership : Ownership) {length : ArrayLength}
    (kind : ArrayKind) {elementSize : Nat}
    (helement : Conveys (readIntact true) element.toJson element) (hlength : length.Bounded)
    (hsize : elementSize < twoPow 64) :
    Conveys (readIntact nested) (array element ownership length kind elementSize).toJson
      (array element ownership length kind elementSize) := by
  have hownership := conveys_ownership ownership
  have hlength := ArrayLength.conveys hlength
  have hkind : Conveys (fun _ => readTaggedWord arrayKindWords) _ kind :=
    conveys_taggedWord (by cases kind <;> rfl)
  have hsize := conveys_word hsize
  rw [toJson]
  refine conveys_form rfl (by simp) ?_ fun room hroom => ?_
  · simp [helement.plain, hownership.plain, hlength.plain, hkind.plain, hsize.plain]
  · rw [readParts]
    exact bind_eq_some (Parts.ofJson?_all _ (by rfl) (by decide)) <|
      hroom.required "element" helement rfl <|
      hroom.required "ownership" hownership rfl <|
      hroom.required "length" hlength rfl <|
      hroom.required "kind" hkind rfl <|
      hroom.required "element_size" hsize rfl rfl

theorem conveys_reference {inner : Descriptor}
    (hinner : Conveys (readIntact true) inner.toJson inner) :
    Conveys (readIntact nested) (reference inner).toJson (reference inner) := by
  rw [toJson]
  refine conveys_form rfl (by simp) ?_ fun room hroom => ?_
  · simp [hinner.plain]
  · rw [readParts]
    exact bind_eq_some (Parts.ofJson?_all _ (by rfl) (by decide)) <|
      hroom.required "inner" hinner rfl rfl

theorem conveys_null : Conveys (readIntact nested) null.toJson null := by
  rw [toJson]
  exact conveys_form rfl (by simp) (by simp) fun _ _ => rfl

end Forms

/-- At the top of a document and inside of another descriptor. -/
theorem conveys_intact {descriptor : Descriptor} (h : descriptor.Bounded) (nested : Bool) :
    Conveys (readIntact nested) descriptor.toJson descriptor := by
  induction h generalizing nested with
  | primitive kind hsize => exact conveys_primitive nested kind hsize
  | string ownership => exact conveys_string nested ownership
  | boxed innerType library ownership getTypeFn =>
      exact conveys_boxed nested innerType library ownership getTypeFn
  | struct innerType library inPlace ownership hsize =>
      exact conveys_struct nested innerType library inPlace ownership hsize
  | object ownership hooks => exact conveys_object nested ownership hooks
  | callback trampoline scope _ _ huserData hdestroy ihparams ihresult =>
      exact conveys_callback nested trampoline scope
        (fun param hparam => ihparams param hparam true) (ihresult true) huserData hdestroy
  | array ownership kind _ hlength hsize ihelement =>
      exact conveys_array nested ownership kind (ihelement true) hlength hsize
  | reference _ ihinner => exact conveys_reference nested (ihinner true)
  | null => exact conveys_null nested

theorem conveys {descriptor : Descriptor} (h : descriptor.Bounded) :
    Conveys read descriptor.toJson descriptor where
  plain := (conveys_intact h false).plain
  read_eq room hroom := by
    rw [read, if_pos ((conveys_intact h false).plain.intact hroom)]
    exact (conveys_intact h false).read_eq room hroom

end Descriptor

/-! ## Documents -/

/-- Whether what is written of a value, if it is nested no deeper than documents may be, is read
back from its text. -/
def Restored {α : Type} (write : α → Json) (read : Reader α) (a : α) : Prop :=
  (write a).depth ≤ documentRoom → (parse? (write a).text).bind (read documentRoom) = some a

/-- Descriptors and all parts of schemas whose numbers fit the words of the machine are read back
from the text that is written of them. -/
theorem documents_restored :
    (∀ descriptor : Descriptor, descriptor.Bounded →
      Restored Descriptor.toJson Descriptor.read descriptor) ∧
    (∀ type : TypeRef, type.Bounded → Restored TypeRef.toJson TypeRef.read type) ∧
    (∀ param : Param, param.Bounded → Restored Param.toJson Param.read param) ∧
    (∀ callable : Callable, callable.Bounded →
      Restored Callable.toJson Callable.read callable) ∧
    (∀ field : Field, field.Bounded → Restored Field.toJson Field.read field) ∧
    (∀ record : Record, record.Bounded → Restored Record.toJson Record.read record) ∧
    (∀ cls : ObjectClass, cls.Bounded → Restored ObjectClass.toJson ObjectClass.read cls) ∧
    (∀ space : Namespace, space.Bounded → Restored Namespace.toJson Namespace.read space) :=
  ⟨fun _ h => (Descriptor.conveys h).bind_parse?_text,
    fun _ h => (TypeRef.conveys h).bind_parse?_text, fun _ h => (Param.conveys h).bind_parse?_text,
    fun _ h => (Callable.conveys h).bind_parse?_text,
    fun _ h => (Field.conveys h).bind_parse?_text, fun _ h => (Record.conveys h).bind_parse?_text,
    fun _ h => (ObjectClass.conveys h).bind_parse?_text,
    fun _ h => (Namespace.conveys h).bind_parse?_text⟩

/-- A callback over a slot for numbers and over a text. -/
def relay : Descriptor :=
  .callback .closure
    [.reference (.array (.primitive .int32 4) .full (.param 1) .c 4), .string .none] .null
    .notified (some 3) none

/-- A namespace with a record of four levels and an enumeration with a value below zero. -/
def mixer : Namespace where
  name := "Mixer"
  libraries := ["libmixer.so"]
  records := [{
    name := "Strip"
    fields := [.shown "levels" ((TypeRef.named "gint16").arrayOf (.fixed 4))] }]
  enums := [{ name := "Gain", members := [⟨"quiet\n\"\u0001", -6⟩] }]

theorem relay_and_mixer_restored :
    (relay.Bounded ∧ mixer.Bounded) ∧
      (relay.toJson.depth ≤ documentRoom ∧ mixer.toJson.depth ≤ documentRoom) ∧
      (parse? relay.toJson.text).bind (Descriptor.read documentRoom) = some relay ∧
      (parse? mixer.toJson.text).bind (Namespace.read documentRoom) = some mixer := by
  have hrelay : relay.Bounded := by
    refine .callback _ _ (List.forall_mem_cons.2 ⟨?_, List.forall_mem_cons.2 ⟨.string _, ?_⟩⟩) .null
      (by decide) (by decide)
    · exact .reference (.array _ _ (.primitive _ (by decide)) (by decide) (by decide))
    · simp
  have hmixer : mixer.Bounded := by
    constructor <;> simp [mixer]
    case records =>
      refine ⟨List.forall_mem_singleton.2 ?_, by simp, by simp, by simp⟩
      exact ⟨by decide, by decide, trivial⟩
    case enums => exact List.forall_mem_singleton.2 (by decide)
  have hdepths : relay.toJson.depth ≤ documentRoom ∧ mixer.toJson.depth ≤ documentRoom := by
    decide +kernel
  exact ⟨⟨hrelay, hmixer⟩, hdepths, documents_restored.1 relay hrelay hdepths.1,
    documents_restored.2.2.2.2.2.2.2 mixer hmixer hdepths.2⟩

end Interop
