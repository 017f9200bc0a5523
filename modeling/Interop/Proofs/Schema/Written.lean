import Interop.Schema.Codec
import Interop.Proofs.Json.Conveys

/-! # Schemas read back

What a schema writes of itself conveys it to its reader, as long as its sizes, its indices and the
values of its enumerations fit the words of the machine.
-/

namespace Interop.Schema

open Json

/-! ## Words of the machine -/

/-- Whether a size or an index, where there is one, is a 64-bit word. -/
def IsWord (count : Option Nat) : Prop := ∀ n ∈ count, n < twoPow 64

instance (count : Option Nat) : Decidable (IsWord count) :=
  inferInstanceAs (Decidable (∀ n ∈ count, n < twoPow 64))

/-- Whether the sizes and the indices of an array, and those of its elements, are words. -/
def TypeRef.Bounded : TypeRef → Prop
  | plain _ => True
  | array _ form element => IsWord form.fixedSize ∧ IsWord form.lengthParam ∧ element.Bounded

structure Param.Bounded (param : Param) : Prop where
  type : param.type.Bounded
  closureIndex : IsWord param.closureIndex
  destroyIndex : IsWord param.destroyIndex

/-- What callables, callbacks and signals have in common. -/
structure SignatureBounded (params : List Param) (returns : TypeRef) : Prop where
  params : ∀ param ∈ params, param.Bounded
  returns : returns.Bounded

def Callable.Bounded (callable : Callable) : Prop :=
  SignatureBounded callable.params callable.returns

def Callback.Bounded (callback : Callback) : Prop :=
  SignatureBounded callback.params callback.returns

def Signal.Bounded (signal : Signal) : Prop := SignatureBounded signal.params signal.returns

def Field.Bounded (field : Field) : Prop := field.type.Bounded

structure Record.Bounded (record : Record) : Prop where
  fields : ∀ field ∈ record.fields, field.Bounded
  methods : ∀ callable ∈ record.methods, callable.Bounded
  constructors : ∀ callable ∈ record.constructors, callable.Bounded
  functions : ∀ callable ∈ record.functions, callable.Bounded

structure ObjectClass.Bounded (cls : ObjectClass) : Prop where
  fields : ∀ field ∈ cls.fields, field.Bounded
  methods : ∀ callable ∈ cls.methods, callable.Bounded
  constructors : ∀ callable ∈ cls.constructors, callable.Bounded
  functions : ∀ callable ∈ cls.functions, callable.Bounded
  signals : ∀ signal ∈ cls.signals, signal.Bounded

structure Interface.Bounded (interface : Interface) : Prop where
  methods : ∀ callable ∈ interface.methods, callable.Bounded
  functions : ∀ callable ∈ interface.functions, callable.Bounded
  signals : ∀ signal ∈ interface.signals, signal.Bounded

/-- Whether the values of the members are signed 64-bit integers. -/
def Enum.Bounded (enum : Enum) : Prop :=
  ∀ member ∈ enum.members, -twoPow 63 ≤ member.value ∧ member.value < twoPow 63

structure Namespace.Bounded (space : Namespace) : Prop where
  classes : ∀ cls ∈ space.classes, cls.Bounded
  interfaces : ∀ interface ∈ space.interfaces, interface.Bounded
  records : ∀ record ∈ space.records, record.Bounded
  unions : ∀ record ∈ space.unions, record.Bounded
  enums : ∀ enum ∈ space.enums, enum.Bounded
  flags : ∀ enum ∈ space.flags, enum.Bounded
  callbacks : ∀ callback ∈ space.callbacks, callback.Bounded
  functions : ∀ callable ∈ space.functions, callable.Bounded

/-! ## Parts that many types have -/

theorem conveys_of_lookup {α : Type} [DecidableEq α] {table : List (String × α)} {value : α}
    (h : table.lookup (wordIn table value) = some value) :
    Conveys (readWord table) (writeWord table value) value :=
  ⟨.str _, fun _ _ => h⟩

theorem conveys_text (text : Option String) : Conveys readText (writeText text) text :=
  conveys_optional (fun _ => Json.noConfusion) fun content _ => conveys_string content

theorem conveys_count {count : Option Nat} (h : IsWord count) :
    Conveys readCount (writeCount count) count :=
  conveys_optional (fun _ => Json.noConfusion) fun n hn => conveys_word (h n hn)

theorem conveys_transfer (transfer : Ownership) :
    Conveys (readWord transferWords) (writeWord transferWords transfer) transfer :=
  conveys_of_lookup (by cases transfer <;> rfl)

theorem conveys_direction (direction : Direction) :
    Conveys (readWord directionWords) (writeWord directionWords direction) direction :=
  conveys_of_lookup (by cases direction <;> rfl)

theorem conveys_scope (scope : Option CallbackScope) :
    Conveys (Reader.optional (readWord scopeWords)) (Json.ofOption (writeWord scopeWords) scope)
      scope :=
  conveys_optional (fun _ => Json.noConfusion) fun scope _ =>
    conveys_of_lookup (by cases scope <;> rfl)

theorem conveys_callableKind (kind : CallableKind) :
    Conveys (readWord callableKindWords) (writeWord callableKindWords kind) kind :=
  conveys_of_lookup (by cases kind <;> rfl)

theorem conveys_recordKind (kind : RecordKind) :
    Conveys (readWord recordKindWords) (writeWord recordKindWords kind) kind :=
  conveys_of_lookup (by cases kind <;> rfl)

theorem conveys_arrayKind (kind : ArrayKind) :
    Conveys (readWord arrayKindWords) (writeWord arrayKindWords kind) kind :=
  conveys_of_lookup (by cases kind <;> rfl)

theorem conveys_texts (texts : List String) :
    Conveys (Reader.list Reader.string) (writeTexts texts) texts :=
  conveys_list fun content _ => conveys_string content

/-! ## Type references -/

namespace TypeRef

theorem conveys_shape {form : ArrayForm} {element : TypeRef} (hfixed : IsWord form.fixedSize)
    (hlength : IsWord form.lengthParam) (helement : Conveys read element.toJson element) :
    Conveys readShape (shapeJson form element.toJson) (form, element) := by
  have hkind := conveys_arrayKind form.kind
  have hfixed := conveys_count hfixed
  have hlength := conveys_count hlength
  refine conveys_obj ?_ fun room hroom => ?_
  · simp [Plain.bool, helement.plain, hkind.plain, hfixed.plain, hlength.plain]
  · have hform : readForm room _ = some form :=
      hroom.withDefault "kind" hkind rfl <|
      hroom.withDefault "fixed_size" hfixed rfl <|
      hroom.withDefault "length_param" hlength rfl <|
      hroom.withDefault "zero_terminated" (conveys_bool form.zeroTerminated) rfl rfl
    rw [readShape]
    exact bind_eq_some (Parts.ofJson?_all shapeKeys (by rfl) (by decide)) <|
      hroom.required "element" helement rfl <|
      bind_eq_some hform rfl

theorem conveys {type : TypeRef} (h : type.Bounded) : Conveys read type.toJson type := by
  induction type with
  | plain s =>
      have htext := conveys_text s.cType
      have htransfer := conveys_transfer s.transfer
      rw [toJson]
      refine conveys_obj ?_ fun room hroom => ?_
      · simp [Plain.str, Plain.bool, Plain.null, htext.plain, htransfer.plain]
      · rw [read]
        exact bind_eq_some (Parts.ofJson?_all keys (by rfl) (by decide)) <|
          hroom.required "name" (conveys_string s.name) rfl <|
          hroom.withDefault "c_type" htext rfl <|
          hroom.withDefault "nullable" (conveys_bool s.nullable) rfl <|
          hroom.withDefault "transfer" htransfer rfl rfl
  | array s form element ih =>
      have htext := conveys_text s.cType
      have htransfer := conveys_transfer s.transfer
      have hshape := conveys_shape h.1 h.2.1 (ih h.2.2)
      rw [toJson]
      refine conveys_obj ?_ fun room hroom => ?_
      · simp [Plain.str, Plain.bool, htext.plain, htransfer.plain, hshape.plain]
      · have hform := hshape.read_eq room (hroom ("array", shapeJson form element.toJson) (by simp))
        rw [read]
        exact bind_eq_some (Parts.ofJson?_all keys (by rfl) (by decide)) <|
          hroom.required "name" (conveys_string s.name) rfl <|
          hroom.withDefault "c_type" htext rfl <|
          hroom.withDefault "nullable" (conveys_bool s.nullable) rfl <|
          hroom.withDefault "transfer" htransfer rfl <|
          bind_eq_some hform rfl

end TypeRef

/-! ## Callables -/

theorem Param.conveys {param : Param} (h : param.Bounded) :
    Conveys read param.toJson param := by
  have htype := TypeRef.conveys h.type
  have hdirection := conveys_direction param.direction
  have hclosure := conveys_count h.closureIndex
  have hdestroy := conveys_count h.destroyIndex
  have hscope := conveys_scope param.scope
  refine conveys_obj ?_ fun room hroom => ?_
  · simp [Plain.str, Plain.bool, htype.plain, hdirection.plain, hclosure.plain, hdestroy.plain,
      hscope.plain]
  · rw [read]
    exact bind_eq_some (Parts.ofJson?_all keys (by rfl) (by decide)) <|
      hroom.required "name" (conveys_string param.name) rfl <|
      hroom.required "type" htype rfl <|
      hroom.withDefault "direction" hdirection rfl <|
      hroom.withDefault "caller_allocates" (conveys_bool param.callerAllocates) rfl <|
      hroom.withDefault "optional" (conveys_bool param.optional) rfl <|
      hroom.withDefault "closure_index" hclosure rfl <|
      hroom.withDefault "destroy_index" hdestroy rfl <|
      hroom.withDefault "scope" hscope rfl rfl

theorem conveys_params {params : List Param} (h : ∀ param ∈ params, param.Bounded) :
    Conveys (Reader.list Param.read) (writeParams params) params :=
  conveys_list fun param hparam => Param.conveys (h param hparam)

theorem Callable.conveys {callable : Callable} (h : callable.Bounded) :
    Conveys read callable.toJson callable := by
  have hkind := conveys_callableKind callable.kind
  have hparams := conveys_params h.params
  have hreturns := TypeRef.conveys h.returns
  refine conveys_obj ?_ fun room hroom => ?_
  · simp [Plain.str, Plain.bool, hkind.plain, hparams.plain, hreturns.plain]
  · rw [read]
    exact bind_eq_some (Parts.ofJson?_all keys (by rfl) (by decide)) <|
      hroom.required "name" (conveys_string callable.name) rfl <|
      hroom.required "c_symbol" (conveys_string callable.symbol) rfl <|
      hroom.withDefault "kind" hkind rfl <|
      hroom.withDefault "params" hparams rfl <|
      hroom.withDefault "return_type" hreturns rfl <|
      hroom.withDefault "throws" (conveys_bool callable.throws) rfl <|
      hroom.withDefault "deprecated" (conveys_bool callable.deprecated) rfl <|
      hroom.withDefault "introspectable" (conveys_bool callable.introspectable) rfl rfl

theorem conveys_callables {callables : List Callable}
    (h : ∀ callable ∈ callables, callable.Bounded) :
    Conveys (Reader.list Callable.read) (writeCallables callables) callables :=
  conveys_list fun callable hcallable => Callable.conveys (h callable hcallable)

theorem Callback.conveys {callback : Callback} (h : callback.Bounded) :
    Conveys read callback.toJson callback := by
  have htext := conveys_text callback.cType
  have hparams := conveys_params h.params
  have hreturns := TypeRef.conveys h.returns
  refine conveys_obj ?_ fun room hroom => ?_
  · simp [Plain.str, Plain.bool, htext.plain, hparams.plain, hreturns.plain]
  · rw [read]
    exact bind_eq_some (Parts.ofJson?_all keys (by rfl) (by decide)) <|
      hroom.required "name" (conveys_string callback.name) rfl <|
      hroom.withDefault "c_type" htext rfl <|
      hroom.withDefault "params" hparams rfl <|
      hroom.withDefault "return_type" hreturns rfl <|
      hroom.withDefault "throws" (conveys_bool callback.throws) rfl rfl

theorem Signal.conveys {signal : Signal} (h : signal.Bounded) :
    Conveys read signal.toJson signal := by
  have hparams := conveys_params h.params
  have hreturns := TypeRef.conveys h.returns
  refine conveys_obj ?_ fun room hroom => ?_
  · simp [Plain.str, hparams.plain, hreturns.plain]
  · rw [read]
    exact bind_eq_some (Parts.ofJson?_all keys (by rfl) (by decide)) <|
      hroom.required "name" (conveys_string signal.name) rfl <|
      hroom.withDefault "params" hparams rfl <|
      hroom.withDefault "return_type" hreturns rfl rfl

theorem conveys_signals {signals : List Signal} (h : ∀ signal ∈ signals, signal.Bounded) :
    Conveys (Reader.list Signal.read) (writeSignals signals) signals :=
  conveys_list fun signal hsignal => Signal.conveys (h signal hsignal)

/-! ## Declarations -/

theorem Field.conveys {field : Field} (h : field.Bounded) :
    Conveys read field.toJson field := by
  have htype := TypeRef.conveys h
  refine conveys_obj ?_ fun room hroom => ?_
  · simp [Plain.str, Plain.bool, htype.plain]
  · rw [read]
    exact bind_eq_some (Parts.ofJson?_all keys (by rfl) (by decide)) <|
      hroom.required "name" (conveys_string field.name) rfl <|
      hroom.required "type" htype rfl <|
      hroom.withDefault "private" (conveys_bool field.hidden) rfl <|
      hroom.withDefault "readable" (conveys_bool field.readable) rfl <|
      hroom.withDefault "writable" (conveys_bool field.writable) rfl rfl

theorem conveys_fields {fields : List Field} (h : ∀ field ∈ fields, field.Bounded) :
    Conveys (Reader.list Field.read) (writeFields fields) fields :=
  conveys_list fun field hfield => Field.conveys (h field hfield)

theorem Record.conveys {record : Record} (h : record.Bounded) :
    Conveys read record.toJson record := by
  have hctype := conveys_text record.cType
  have hkind := conveys_recordKind record.kind
  have hgetType := conveys_text record.getType
  have htypeName := conveys_text record.typeName
  have hfields := conveys_fields h.fields
  have hmethods := conveys_callables h.methods
  have hconstructors := conveys_callables h.constructors
  have hfunctions := conveys_callables h.functions
  refine conveys_obj ?_ fun room hroom => ?_
  · simp [Plain.str, Plain.bool, hctype.plain, hkind.plain, hgetType.plain, htypeName.plain,
      hfields.plain, hmethods.plain, hconstructors.plain, hfunctions.plain]
  · rw [read]
    exact bind_eq_some (Parts.ofJson?_all keys (by rfl) (by decide)) <|
      hroom.required "name" (conveys_string record.name) rfl <|
      hroom.withDefault "c_type" hctype rfl <|
      hroom.withDefault "kind" hkind rfl <|
      hroom.withDefault "get_type" hgetType rfl <|
      hroom.withDefault "type_name" htypeName rfl <|
      hroom.withDefault "disguised" (conveys_bool record.disguised) rfl <|
      hroom.withDefault "fields" hfields rfl <|
      hroom.withDefault "methods" hmethods rfl <|
      hroom.withDefault "constructors" hconstructors rfl <|
      hroom.withDefault "functions" hfunctions rfl rfl

theorem ObjectClass.conveys {cls : ObjectClass} (h : cls.Bounded) :
    Conveys read cls.toJson cls := by
  have hctype := conveys_text cls.cType
  have hparent := conveys_text cls.parent
  have hinterfaces := conveys_texts cls.interfaces
  have htypeName := conveys_text cls.typeName
  have hgetType := conveys_text cls.getType
  have hrefFunc := conveys_text cls.refFunc
  have hunrefFunc := conveys_text cls.unrefFunc
  have hfields := conveys_fields h.fields
  have hmethods := conveys_callables h.methods
  have hconstructors := conveys_callables h.constructors
  have hfunctions := conveys_callables h.functions
  have hsignals := conveys_signals h.signals
  refine conveys_obj ?_ fun room hroom => ?_
  · simp [Plain.str, Plain.bool, hctype.plain, hparent.plain, hinterfaces.plain, htypeName.plain,
      hgetType.plain, hrefFunc.plain, hunrefFunc.plain, hfields.plain, hmethods.plain,
      hconstructors.plain, hfunctions.plain, hsignals.plain]
  · rw [read]
    exact bind_eq_some (Parts.ofJson?_all keys (by rfl) (by decide)) <|
      hroom.required "name" (conveys_string cls.name) rfl <|
      hroom.withDefault "c_type" hctype rfl <|
      hroom.withDefault "parent" hparent rfl <|
      hroom.withDefault "interfaces" hinterfaces rfl <|
      hroom.withDefault "type_name" htypeName rfl <|
      hroom.withDefault "get_type" hgetType rfl <|
      hroom.withDefault "fundamental" (conveys_bool cls.fundamental) rfl <|
      hroom.withDefault "ref_func" hrefFunc rfl <|
      hroom.withDefault "unref_func" hunrefFunc rfl <|
      hroom.withDefault "abstract" (conveys_bool cls.isAbstract) rfl <|
      hroom.withDefault "fields" hfields rfl <|
      hroom.withDefault "methods" hmethods rfl <|
      hroom.withDefault "constructors" hconstructors rfl <|
      hroom.withDefault "functions" hfunctions rfl <|
      hroom.withDefault "signals" hsignals rfl rfl

theorem Interface.conveys {interface : Interface} (h : interface.Bounded) :
    Conveys read interface.toJson interface := by
  have hctype := conveys_text interface.cType
  have htypeName := conveys_text interface.typeName
  have hgetType := conveys_text interface.getType
  have hprerequisites := conveys_texts interface.prerequisites
  have hmethods := conveys_callables h.methods
  have hfunctions := conveys_callables h.functions
  have hsignals := conveys_signals h.signals
  refine conveys_obj ?_ fun room hroom => ?_
  · simp [Plain.str, hctype.plain, htypeName.plain, hgetType.plain, hprerequisites.plain,
      hmethods.plain, hfunctions.plain, hsignals.plain]
  · rw [read]
    exact bind_eq_some (Parts.ofJson?_all keys (by rfl) (by decide)) <|
      hroom.required "name" (conveys_string interface.name) rfl <|
      hroom.withDefault "c_type" hctype rfl <|
      hroom.withDefault "type_name" htypeName rfl <|
      hroom.withDefault "get_type" hgetType rfl <|
      hroom.withDefault "prerequisites" hprerequisites rfl <|
      hroom.withDefault "methods" hmethods rfl <|
      hroom.withDefault "functions" hfunctions rfl <|
      hroom.withDefault "signals" hsignals rfl rfl

theorem Member.conveys {member : Member} (hlow : -twoPow 63 ≤ member.value)
    (hhigh : member.value < twoPow 63) : Conveys read member.toJson member := by
  have hvalue := conveys_signed hlow hhigh
  refine conveys_obj ?_ fun room hroom => ?_
  · simp [Plain.str, hvalue.plain]
  · rw [read]
    exact bind_eq_some (Parts.ofJson?_all keys (by rfl) (by decide)) <|
      hroom.required "name" (conveys_string member.name) rfl <|
      hroom.required "value" hvalue rfl rfl

theorem Enum.conveys {enum : Enum} (h : enum.Bounded) : Conveys read enum.toJson enum := by
  have hctype := conveys_text enum.cType
  have hmembers : Conveys (Reader.list Member.read) (.arr (enum.members.map Member.toJson))
      enum.members :=
    conveys_list fun member hmember => Member.conveys (h member hmember).1 (h member hmember).2
  refine conveys_obj ?_ fun room hroom => ?_
  · simpa [Plain.str, hctype.plain] using hmembers.plain
  · rw [read]
    exact bind_eq_some (Parts.ofJson?_all keys (by rfl) (by decide)) <|
      hroom.required "name" (conveys_string enum.name) rfl <|
      hroom.withDefault "c_type" hctype rfl <|
      hroom.withDefault "members" hmembers rfl rfl

/-! ## Namespaces -/

theorem Namespace.conveys {space : Namespace} (h : space.Bounded) :
    Conveys read space.toJson space := by
  have hlibraries := conveys_texts space.libraries
  have hclasses : Conveys (Reader.list ObjectClass.read) _ space.classes :=
    conveys_list fun cls hcls => ObjectClass.conveys (h.classes cls hcls)
  have hinterfaces : Conveys (Reader.list Interface.read) _ space.interfaces :=
    conveys_list fun interface hinterface => Interface.conveys (h.interfaces interface hinterface)
  have hrecords : Conveys (Reader.list Record.read) _ space.records :=
    conveys_list fun record hrecord => Record.conveys (h.records record hrecord)
  have hunions : Conveys (Reader.list Record.read) _ space.unions :=
    conveys_list fun record hrecord => Record.conveys (h.unions record hrecord)
  have henums : Conveys (Reader.list Enum.read) _ space.enums :=
    conveys_list fun enum henum => Enum.conveys (h.enums enum henum)
  have hflags : Conveys (Reader.list Enum.read) _ space.flags :=
    conveys_list fun enum henum => Enum.conveys (h.flags enum henum)
  have hcallbacks : Conveys (Reader.list Callback.read) _ space.callbacks :=
    conveys_list fun callback hcallback => Callback.conveys (h.callbacks callback hcallback)
  have hfunctions := conveys_callables h.functions
  refine conveys_obj ?_ fun room hroom => ?_
  · simp only [List.forall_mem_cons]
    exact ⟨.str _, .str _, hlibraries.plain, hclasses.plain, hinterfaces.plain, hrecords.plain,
      hunions.plain, henums.plain, hflags.plain, hcallbacks.plain, hfunctions.plain, by simp⟩
  · rw [read]
    exact bind_eq_some (Parts.ofJson?_all keys (by rfl) (by decide)) <|
      hroom.required "name" (conveys_string space.name) rfl <|
      hroom.withDefault "version" (conveys_string space.version) rfl <|
      hroom.withDefault "shared_libraries" hlibraries rfl <|
      hroom.withDefault "classes" hclasses rfl <|
      hroom.withDefault "interfaces" hinterfaces rfl <|
      hroom.withDefault "records" hrecords rfl <|
      hroom.withDefault "unions" hunions rfl <|
      hroom.withDefault "enums" henums rfl <|
      hroom.withDefault "flags" hflags rfl <|
      hroom.withDefault "callbacks" hcallbacks rfl <|
      hroom.withDefault "functions" hfunctions rfl rfl

end Interop.Schema
