import Interop.Proofs.Bridge.RecordSizes
import Interop.Proofs.Bridge.Rows

/-! # Elements of arrays

The elements of an array of records are counted through by its layout, by its descriptor and by
whoever is asked for one of them. All step by the size of the record, so an element is found where
it was put: in the block of an argument, in a field or in what a call returns.
-/

namespace Interop

open Schema Relation Steps

variable {H : Host}

/-- The same if the numbers of arguments have been moved: an array keeps its element and stride. -/
theorem Renders.of_array_inPlace {platform : Platform} {pointerSize size stride : Nat}
    {source : Origin} {qualified library : String} {own ownership : Ownership}
    {length : ArrayLength} {kind : ArrayKind}
    (h : Renders platform pointerSize source
      (.array (.struct qualified library size true own) ownership length kind stride)) :
    size = platform.typeSize qualified ∧ stride = size := by
  obtain ⟨_, _, hrepresents⟩ := h.exists_array
  exact hrepresents.of_array_inPlace

/-- Wherever an array of records by value is described in a plan, it counts by their size. -/
theorem CallPlan.stride_eq_of_build {builder : CallBuilder} {callable : Callable}
    {owner : Option Owner} {plan : CallPlan} {usage usage' : Usage}
    (h : builder.build callable owner usage = .ok plan usage')
    (howner : ∀ type ∈ owner, ∃ name, builder.ownerOf? name = some type)
    {place : Place} {top : Descriptor} (htop : plan.descriptor? place = some top)
    {path : List Descriptor.Edge} {qualified library : String} {size stride : Nat}
    {own ownership : Ownership} {length : ArrayLength} {kind : ArrayKind}
    (hpart : top.part? path =
      some (.array (.struct qualified library size true own) ownership length kind stride)) :
    size = builder.mapper.platform.typeSize qualified ∧ stride = size := by
  obtain ⟨described, returned, args, hbuilt⟩ := CallBuilder.exists_built_of_build h
  rcases hbuilt.stemming_or_receiver htop hpart with
    ⟨source, _, hrenders⟩ | hnone | ⟨type, htype, _, _, _, rfl⟩
  · exact hrenders.of_array_inPlace
  · cases hnone
  -- an instance is no array and holds none
  · obtain ⟨name, hname⟩ := howner type htype
    cases CallBuilder.describesInstance_of_part? hname hpart

namespace Registry

variable {registry : Registry} {handle : Handle} {name : String}

/-- What is there can be wrapped as any registered class. -/
theorem exists_wrap_eq_ok {cls : NativeClass} (hnull : handle.isNull = false)
    (hcls : registry.classes.get? name = some cls) (known : Introspection)
    (ownership : Ownership) :
    ∃ id release after,
      registry.wrap known handle (some name) ownership = (.ok ⟨some id, release⟩, after) := by
  simp only [wrap, wrapAmid, hnull, target, hcls, Bool.false_eq_true, if_false]
  split
  next => exact ⟨_, _, _, rfl⟩
  next => exact ⟨_, _, _, rfl⟩

theorem wrap_of_unknown (hnull : handle.isNull = false)
    (hcls : registry.classes.get? name = none) (known : Introspection) (ownership : Ownership) :
    registry.wrap known handle (some name) ownership = (.error (.unknownClass name), registry) := by
  simp only [wrap, wrapAmid, hnull, target, hcls, Bool.false_eq_true, if_false]

end Registry

namespace Bridge

variable {env : Env H} {bridge after : Bridge H} {handle : Handle} {qualified : String}

/-- Why an instance of the type cannot be wrapped. -/
inductive Unwrappable (env : Env H) (qualified : String) (bridge : Bridge H) : Prop
  /-- Its namespace cannot be registered. -/
  | unregistered {error : BindError} {after : Bridge H}
      (h : namespaceOf env qualified bridge = .error error after)
  /-- There is no class of its name. -/
  | classless {space : NamespaceBinding} {after : Bridge H}
      (h : namespaceOf env qualified bridge = .ok space after)
      (hclass : after.registry.classes.get? (schemaTypeName (repo env) qualified) = none)

/-- What is there is wrapped as an instance of a type unless nothing can be. -/
theorem wrapAs_cases (hnull : handle.isNull = false) (env : Env H) (qualified : String)
    (ownership : Ownership) (bridge : Bridge H) :
    (∃ id after, wrapAs env handle qualified ownership bridge = .ok (.object id handle) after) ∨
      Unwrappable env qualified bridge ∧
        ∃ error after, wrapAs env handle qualified ownership bridge = .error error after := by
  unfold wrapAs
  cases hspace : namespaceOf env qualified bridge with
  | error error after =>
      refine .inr ⟨.unregistered hspace, error, after, ?_⟩
      exact bind_eq_of_eq_error (bind_eq_of_eq_error hspace)
  | ok space registered =>
      have hdone : discard (namespaceOf env qualified) bridge = .ok () registered :=
        bind_eq_of_eq_ok hspace
      rw [bind_eq_of_eq_ok hdone]
      unfold wrap wrapRaw
      cases hcls : registered.registry.classes.get? (schemaTypeName (repo env) qualified) with
      | some cls =>
          obtain ⟨id, release, wrapped, hwrap⟩ :=
            Registry.exists_wrap_eq_ok hnull hcls registered.introspection ownership
          rw [hwrap]
          exact .inl ⟨id, _, rfl⟩
      | none =>
          rw [Registry.wrap_of_unknown hnull hcls]
          exact .inr ⟨.classless hspace hcls, _, _, rfl⟩

/-- The element of an index is looked for so many sizes behind the first. -/
theorem element_eq {layout : TypeLayout} {base : Value} {start : Handle} {index : Nat}
    (hlayout : env.compiler.platform.typeLayout? qualified = some layout)
    (hbase : base.nonNull? = some start)
    (hfits : start.toNat + index * env.compiler.platform.typeSize qualified < twoPow 64)
    (bridge : Bridge H) :
    element env base qualified index bridge =
      wrapAs env (.ofNat (start.toNat + index * env.compiler.platform.typeSize qualified))
        qualified .none bridge := by
  have hoffset : layout.elementOffset? index =
      some (index * env.compiler.platform.typeSize qualified) := by
    rw [TypeLayout.elementOffset?, Platform.stride_of_typeLayout? hlayout, Nat.mul_comm]
    exact if_pos (Nat.lt_of_le_of_lt (Nat.le_add_left _ _) hfits)
  have hplace : start.offset? (index * env.compiler.platform.typeSize qualified) =
      some (.ofNat (start.toNat + index * env.compiler.platform.typeSize qualified)) :=
    if_pos hfits
  unfold element
  rw [Calculator.typeLayout?_calculator, hlayout]
  simp only [needInstance, hbase, hoffset, hplace, Option.bind_some, pure_bind]

/-- No element is looked for behind null or beyond the last address. -/
theorem element_misplaced {layout : TypeLayout} {base : Value} {index : Nat}
    (hlayout : env.compiler.platform.typeLayout? qualified = some layout)
    (hmisplaced : ∀ start, base.nonNull? = some start →
      twoPow 64 ≤ start.toNat + index * env.compiler.platform.typeSize qualified)
    (bridge : Bridge H) :
    ∃ error, element env base qualified index bridge = .error error bridge := by
  unfold element
  rw [Calculator.typeLayout?_calculator, hlayout]
  cases hbase : base.nonNull? with
  | none =>
      simp only [needInstance, hbase]
      exact ⟨_, rfl⟩
  | some start =>
      have hbeyond := hmisplaced start hbase
      have hplace : (layout.elementOffset? index).bind start.offset? = none := by
        rw [TypeLayout.elementOffset?, Platform.stride_of_typeLayout? hlayout, Nat.mul_comm]
        split
        next => exact if_neg (Nat.not_lt.2 hbeyond)
        next => rfl
      simp only [needInstance, hbase, hplace, pure_bind]
      exact ⟨_, rfl⟩

/-- The field of a type is one of its record or of its class. -/
theorem of_fieldOf_eq_ok {owner name : String} {binding : FieldBinding}
    (h : fieldOf env owner name bridge = .ok binding after) :
    ∃ bindings, namespaceOf env owner bridge = .ok bindings after ∧
      ((∃ record ∈ bindings.records, binding ∈ record.fields) ∨
        ∃ cls ∈ bindings.classes, binding ∈ cls.fields) := by
  obtain ⟨bindings, registered, hspace, h⟩ := of_bind_eq_ok h
  cases hrecord : bindings.record? owner with
  | some record =>
      have howner := List.mem_of_find?_eq_some hrecord
      simp only [hrecord] at h
      split at h
      next => cases h
      next =>
        cases hfind : record.fields.find? fun field => field.layout.field == name with
        | some field =>
            simp only [pure_bind, hfind] at h
            cases h
            exact ⟨bindings, hspace, .inl ⟨record, howner, List.mem_of_find?_eq_some hfind⟩⟩
        | none =>
            simp only [pure_bind, hfind] at h
            cases h
  | none =>
      cases hcls : bindings.class? owner with
      | some cls =>
          have howner := List.mem_of_find?_eq_some hcls
          simp only [hrecord, hcls] at h
          cases hfind : cls.fields.find? fun field => field.layout.field == name with
          | some field =>
              simp only [pure_bind, hfind] at h
              cases h
              exact ⟨bindings, hspace, .inr ⟨cls, howner, List.mem_of_find?_eq_some hfind⟩⟩
          | none =>
              simp only [pure_bind, hfind] at h
              cases h
      | none =>
          simp only [hrecord, hcls] at h
          cases h

/-- A field of a registered type is described as its type is mapped. -/
theorem exists_map_of_fieldOf_eq_ok {owner name : String} {binding : FieldBinding}
    (hvalid : bridge.Valid env) (h : fieldOf env owner name bridge = .ok binding after) :
    ∃ source field usage usage', (env.compiler.builder source).mapper.map .field field usage =
      .ok binding.descriptor usage' := by
  obtain ⟨bindings, hspace, howner⟩ := of_fieldOf_eq_ok h
  obtain ⟨_, _, hcompiled, _⟩ := of_namespaceOf_eq_ok hvalid hspace
  obtain ⟨source, _, _, rfl⟩ := Compiler.of_namespace?_eq_ok hcompiled
  have hmapped : ∃ owner declared shape report,
      binding ∈ (env.compiler.fields source owner declared shape report).1 := by
    rcases howner with ⟨record, hrecord, hmem⟩ | ⟨cls, hcls, hmem⟩
    · obtain ⟨_, _, hof⟩ := Compiler.exists_recordOf hrecord
      obtain ⟨_, hfields⟩ := hof.fields
      rw [hfields] at hmem
      exact ⟨_, _, _, _, hmem⟩
    · have hsome := List.ne_nil_of_mem hmem
      obtain ⟨_, _, hof⟩ := Compiler.exists_classOf_of_fields hcls hsome
      obtain ⟨_, _, _, hfields⟩ := hof.fields hsome
      rw [hfields] at hmem
      exact ⟨_, _, _, _, hmem⟩
  obtain ⟨_, _, _, _, hmem⟩ := hmapped
  obtain ⟨field, usage, _, _, hmap, _⟩ := Compiler.mem_fields hmem
  exact ⟨source, field.type, _, usage, hmap⟩

theorem represents_of_fieldOf_eq_ok {owner name : String} {binding : FieldBinding}
    (hvalid : bridge.Valid env) (h : fieldOf env owner name bridge = .ok binding after) :
    ∃ pointerSize origin,
      Represents env.compiler.platform pointerSize .field origin binding.descriptor := by
  obtain ⟨_, _, _, _, hmap⟩ := exists_map_of_fieldOf_eq_ok hvalid h
  exact ⟨_, _, Mapper.represents_of_map hmap⟩

theorem of_inlineArray?_eq_some {binding : FieldBinding} {element : Descriptor}
    {stride count : Nat} (h : inlineArray? binding = some (element, stride, count)) :
    ∃ ownership kind,
      binding.descriptor = .array element ownership (.fixed count) kind stride := by
  unfold inlineArray? at h
  split at h
  next hdescriptor =>
    split at h
    next =>
      cases h
      exact ⟨_, _, hdescriptor⟩
    next => cases h
  next => cases h

/-- All that deal with the elements of an array of instances step by the size of the type. -/
structure Strides (env : Env H) (qualified : String) (size : Nat) : Prop where
  /-- The type is as large as the distance between two neighbours, whatever has been asked
  before. -/
  layout (queries : List LayoutQuery) :
    ((env.compiler.platform.calculator.answers queries).2.typeSize qualified).1 = size ∧
      ∃ layout, ((env.compiler.platform.calculator.answers queries).2.typeLayout? qualified).1 =
        some layout ∧ layout.stride = size
  /-- So wide is a field that some of them are stored in. -/
  width {space : String} {spelling : Spelling} {form : ArrayForm} {element : TypeRef} {count : Nat}
    (queries : List LayoutQuery) (hvalue : env.compiler.platform.ByValue space element qualified)
    (hfixed : form.fixedSize = some count)
    (hstar : (TypeRef.plain spelling).isPointerSpelled = false) :
    ((env.compiler.platform.calculator.answers queries).2.fieldTypeLayout space
      (.array spelling form element)).1.size = size * count
  /-- So far apart are they by the descriptor of the array, if there is one. -/
  described {mapper : Mapper} {element : TypeRef}
    (hplatform : mapper.platform = env.compiler.platform)
    (hvalue : mapper.platform.ByValue mapper.space element qualified) (context : UseContext)
    (spelling : Spelling) (form : ArrayForm) (usage : Usage) :
    (∃ library usage', mapper.map context (.array spelling form element) usage =
        .ok (.array (.struct qualified library size true element.transfer) spelling.transfer
          (lengthOf form) form.kind size) usage') ∨
      Mapper.Refused element.name qualified ∧
        ∃ error usage', mapper.map context (.array spelling form element) usage =
          .error error usage'
  /-- The same goes for all descriptors in plans. -/
  planned {builder : CallBuilder} {callable : Callable} {owner : Option Owner} {plan : CallPlan}
    {usage usage' : Usage} (hplatform : builder.mapper.platform = env.compiler.platform)
    (hbuild : builder.build callable owner usage = .ok plan usage')
    (howner : ∀ type ∈ owner, ∃ name, builder.ownerOf? name = some type)
    {place : CallPlan.Place} {path : List Descriptor.Edge} {top : Descriptor} {library : String}
    {inner stride : Nat} {own ownership : Ownership} {length : ArrayLength} {kind : ArrayKind}
    (htop : plan.descriptor? place = some top)
    (hpart : top.part? path =
      some (.array (.struct qualified library inner true own) ownership length kind stride)) :
    inner = size ∧ stride = size
  /-- An element of an array is wrapped where it lies, unless no instance can be wrapped. -/
  element {base : Value} {start : Handle} {index : Nat} (bridge : Bridge H)
    (hbase : base.nonNull? = some start) (hfits : start.toNat + index * size < twoPow 64) :
    (∃ id after, Bridge.element env base qualified index bridge =
        .ok (.object id (.ofNat (start.toNat + index * size))) after) ∨
      Unwrappable env qualified bridge ∧
        ∃ error after, Bridge.element env base qualified index bridge = .error error after
  /-- Behind null and beyond the last address there are none. -/
  misplaced {base : Value} {index : Nat} (bridge : Bridge H)
    (h : ∀ start, base.nonNull? = some start → twoPow 64 ≤ start.toNat + index * size) :
    ∃ error, Bridge.element env base qualified index bridge = .error error bridge
  /-- The elements that are read from a field are those of its place. -/
  read {bridge middle after : Bridge H} {inst value : Value} {owner name library : String}
    {own : Ownership} {inner stride count : Nat} {binding : FieldBinding}
    (hreachable : bridge.Reachable env)
    (hfield : fieldOf env owner name bridge = .ok binding middle)
    (harray : inlineArray? binding =
      some (.struct qualified library inner true own, stride, count))
    (h : readField env inst owner name bridge = .ok value after) :
    ∃ base items, inst.nonNull? = some base ∧ value = .array items ∧ items.length = count ∧
      ∀ (index : Nat) (item : Value), items[index]? = some item →
        base.toNat + (binding.layout.offset + index * size) < twoPow 64 ∧
          ∃ id, item = .object id (.ofNat (base.toNat + (binding.layout.offset + index * size)))
  /-- The elements that are written to a field are copied to its place, unless they lie in it. -/
  written {bridge middle after : Bridge H} {inst value : Value} {owner name library : String}
    {own : Ownership} {inner stride count : Nat} {binding : FieldBinding} {u : Unit}
    (hreachable : bridge.Reachable env)
    (hfield : fieldOf env owner name bridge = .ok binding middle)
    (harray : inlineArray? binding =
      some (.struct qualified library inner true own, stride, count))
    (h : writeField env inst owner name value bridge = .ok u after) :
    ∃ base items, inst.nonNull? = some base ∧ value = .array items ∧ items.length ≤ count ∧
      ∀ (index : Nat) (item : Value) (source : Handle), items[index]? = some item →
        item.asHandle? = some source →
        source.isNull = true ∨ source.toNat + size ≤ base.toNat + binding.layout.offset ∨
          base.toNat + binding.layout.offset + items.length * size ≤ source.toNat →
        after.heap.bytes base (binding.layout.offset + index * size) size =
          bridge.heap.recordBytes source size
  /-- The elements of an argument are copied to a block of their own. -/
  passed {calling calling' : Calling H} {library : String} {own ownership : Ownership}
    {length : ArrayLength} {kind : ArrayKind} {items : List Value} {lowered : Value}
    (hreachable : calling.bridge.Reachable env) (hroom : calling.bridge.heap.next < twoPow 64)
    (h : Lowering.lowerValue (.array (.struct qualified library size true own) ownership length
      kind size) (.array items) calling = .ok lowered calling') :
    items = [] ∧ lowered = .pointer .null ∨ ∃ base, lowered = .pointer base ∧
      ∀ (index : Nat) (item : Value) (source : Handle) (bytes : List UInt8),
        items[index]? = some item → item.asHandle? = some source →
        calling.bridge.heap.recordBytes source size = .ok bytes →
        calling'.bridge.heap.bytes base (index * size) size = .ok bytes
  /-- The elements of a result are copied from where they lie. -/
  returned {bridge after : Bridge H} {args : Array NativeArg} {library : String}
    {own ownership : Ownership} {length : ArrayLength} {kind : ArrayKind} {raw value : Value}
    {base : Handle} (hlawful : env.Lawful) (hreachable : bridge.Reachable env)
    (hbase : raw.nonNull? = some base)
    (h : lift env args (.array (.struct qualified library size true own) ownership length kind
      size) raw bridge = .ok value after) :
    ∃ items, value = .array items ∧
      ∀ (index : Nat) (item : Value), items[index]? = some item →
        base.toNat + index * size < twoPow 64 ∧
        ∃ before copied id copy, Evolves env bridge before ∧ Evolves env copied after ∧
          item = .object id copy ∧
          ∀ bytes, before.heap.bytes (.ofNat (base.toNat + index * size)) 0 size = .ok bytes →
            copied.heap.bytes copy 0 size = .ok bytes

/-- A field of records by value counts by their size. -/
theorem stride_eq_of_fieldOf {owner name library : String} {own : Ownership}
    {inner stride count : Nat} {binding : FieldBinding} (hvalid : bridge.Valid env)
    (hfield : fieldOf env owner name bridge = .ok binding after)
    (harray : inlineArray? binding =
      some (.struct qualified library inner true own, stride, count)) :
    inner = env.compiler.platform.typeSize qualified ∧ stride = inner := by
  obtain ⟨_, _, hrepresents⟩ := represents_of_fieldOf_eq_ok hvalid hfield
  obtain ⟨_, _, hdescriptor⟩ := of_inlineArray?_eq_some harray
  rw [hdescriptor] at hrepresents
  exact hrepresents.of_array_inPlace

/-- All distances between neighbours are the size of their type. -/
theorem strides_typeSize {space : Namespace} {decl : Declaration} {record : Record}
    (hresolve : (repo env).resolveQualified? qualified = some ⟨space, decl⟩)
    (hrecord : decl.asRecord? = some record) :
    Strides env qualified (env.compiler.platform.typeSize qualified) := by
  have hlaid : ∃ layout, env.compiler.platform.typeLayout? qualified = some layout :=
    Platform.exists_typeLayout?_of_record hresolve hrecord
  obtain ⟨layout, hlayout⟩ := hlaid
  constructor
  case layout =>
    intro queries
    obtain ⟨_, hplatform, hsound⟩ :=
      Calculator.answers_replies (Calculator.calculator_sound env.compiler.platform) queries
    rw [(Calculator.typeSize_replies hsound qualified).1,
      (Calculator.typeLayout?_replies hsound qualified).1, hplatform]
    exact ⟨rfl, layout, hlayout, Platform.stride_of_typeLayout? hlayout⟩
  case width =>
    intro space spelling form element count queries hvalue hfixed hstar
    obtain ⟨_, hplatform, hsound⟩ :=
      Calculator.answers_replies (Calculator.calculator_sound env.compiler.platform) queries
    rw [(Calculator.fieldTypeLayout_replies hsound space _).1, hplatform]
    exact Platform.size_fieldTypeLayout_of_elements hfixed hstar hvalue
  case described =>
    intro mapper element hplatform hvalue context spelling form usage
    rw [← hplatform]
    have hresolve : mapper.platform.repo.resolveQualified? qualified = some ⟨space, decl⟩ := by
      rw [hplatform]
      exact hresolve
    exact (Mapper.map_array_of_elements hresolve hrecord hvalue spelling form usage).imp_left
      fun hmapped => ⟨_, hmapped⟩
  case planned =>
    intro builder callable owner plan usage usage' hplatform hbuild howner place path top library
      inner stride own ownership length kind htop hpart
    obtain ⟨rfl, rfl⟩ := CallPlan.stride_eq_of_build hbuild howner htop hpart
    rw [hplatform]
    exact ⟨rfl, rfl⟩
  case element =>
    intro base start index bridge hbase hfits
    rw [element_eq hlayout hbase hfits]
    refine wrapAs_cases ?_ env qualified .none bridge
    have hstart := Handle.isNull_eq_false_iff.1 (Value.isNull_of_nonNull?_eq_some hbase)
    rw [Handle.isNull_eq_false_iff, Handle.toNat_ofNat_of_lt hfits]
    exact Nat.add_pos_left hstart _
  case misplaced =>
    intro base index bridge hmisplaced
    exact element_misplaced hlayout hmisplaced bridge
  case read =>
    intro bridge middle after inst value owner name library own inner stride count binding
      hreachable hfield harray h
    obtain ⟨rfl, rfl⟩ := stride_eq_of_fieldOf hreachable.valid hfield harray
    obtain ⟨base, items, hinst, rfl, hlength, hitems⟩ :=
      of_readField_elements_eq_ok hfield harray h
    refine ⟨base, items, hinst, rfl, hlength, fun index item hitem => ?_⟩
    obtain ⟨place, id, hplace, rfl⟩ := hitems index item hitem
    obtain ⟨hfits, rfl⟩ := Handle.of_offset?_eq_some hplace
    exact ⟨hfits, id, rfl⟩
  case written =>
    intro bridge middle after inst value owner name library own inner stride count binding u
      hreachable hfield harray h
    obtain ⟨rfl, rfl⟩ := stride_eq_of_fieldOf hreachable.valid hfield harray
    obtain ⟨base, items, hinst, rfl, hlength, hrow⟩ :=
      of_writeField_elements_eq_ok hfield harray h
    have hkept : middle.heap = bridge.heap :=
      heap_of_registering (fun _ hregisters => hregisters.enrols.within_fieldOf owner name) hfield
    rw [hkept] at hrow
    exact ⟨base, items, hinst, rfl, hlength, fun index item source hitem hsource hapart =>
      hrow.stored hreachable.valid.sound hitem hsource hapart⟩
  case passed =>
    intro calling calling' library own ownership length kind items lowered hreachable hroom h
    exact Lowering.bytes_of_lowerValue_array_eq_ok hreachable.valid.sound hroom h
  case returned =>
    intro bridge after args library own ownership length kind raw value base hlawful hreachable
      hbase h
    exact copies_of_lift_array_eq_ok hlawful hreachable hbase h

/-- A type that contains itself, and one that three values of it are stored in. -/
def knots : Repository :=
  .ofSpaces [{
    name := "N"
    libraries := [coreLibrary]
    records := [
      { name := "Knot"
        cType := some "NKnot"
        fields := [.shown "inner" ((TypeRef.named "Knot").withCType "NKnot"),
          .shown "mark" (.named "gint32")] },
      { name := "Rope"
        cType := some "NRope"
        fields := [.shown "length" (.named "gint32"),
          .shown "knots" (((TypeRef.named "Knot").withCType "NKnot").arrayOf (.fixed 3))] }] }]

/-- A type that contains itself is found at multiples of its size, and the third value lies behind
two of them. -/
theorem knots_in_strides :
    Strides (silentEnv knots) "N.Knot" 16 ∧
      ∃ id after, element (silentEnv knots) (.pointer (.ofNat 4096)) "N.Knot" 2 (start ()) =
        .ok (.object id (.ofNat 4128)) after := by
  have hsize : (silentEnv knots).compiler.platform.typeSize "N.Knot" = 16 := by decide +kernel
  have hfound : (value? (element (silentEnv knots) (.pointer (.ofNat 4096)) "N.Knot" 2
      (start ()))).isSome = true := by decide +kernel
  have hstrides : Strides (silentEnv knots) "N.Knot" 16 :=
    hsize ▸ @strides_typeSize silent (silentEnv knots) "N.Knot" _ _ _ rfl rfl
  refine ⟨hstrides, ?_⟩
  have hbase : (Value.pointer (.ofNat 4096)).nonNull? = some (.ofNat 4096) := rfl
  have hfits : (Handle.ofNat 4096).toNat + 2 * 16 < twoPow 64 := by decide
  rcases hstrides.element (start ()) hbase hfits with
    hwrapped | ⟨_, error, after, herror⟩
  · exact hwrapped
  · rw [herror] at hfound
    cases hfound

/-- What is stored third is found behind two others. -/
example :
    let third : Run silent Value := do
      let rope ← allocRecord (silentEnv knots) "N.Rope"
      let knot ← allocRecord (silentEnv knots) "N.Knot"
      writeField (silentEnv knots) knot "N.Knot" "mark" (.int 7)
      writeField (silentEnv knots) rope "N.Rope" "knots" (.array [.null, .null, knot])
      let items ← readField (silentEnv knots) rope "N.Rope" "knots"
      let first := (items.asArray?.getD []).headD .null
      let third ← element (silentEnv knots) first "N.Knot" 2
      readField (silentEnv knots) third "N.Knot" "mark"
    (value? (third (start ()))).bind Value.asInt? = some 7 := by
  decide +kernel

end Bridge

end Interop
