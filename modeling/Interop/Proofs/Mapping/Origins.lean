import Interop.Proofs.Mapping.Outcome

/-! # Where descriptors come from

A descriptor is made for a type of the schema, for a slot in which a value travels, or for a native
error. `Represents` says how one is described, part by part, and everything that is mapped is
described so. A part of a descriptor thus comes from the part of the schema that the same steps
lead to.
-/

namespace Interop

open Schema

namespace Schema

/-- The signature of the callback type that a name refers to, and the namespace it is read in. -/
def Repository.signature? (repo : Repository) (space name : String) : Option (String × Callback) :=
  match repo.resolve? space name with
  | some ⟨declaring, .callback callback⟩ => some (declaring.name, callback)
  | _ => none

/-- What a descriptor is made for. -/
inductive Origin where
  /-- A value of a type that is read in a namespace. -/
  | value (space : String) (type : TypeRef)
  /-- A native error. -/
  | error
  /-- A slot for a value. -/
  | slot (inner : Origin)
  deriving Repr

namespace Origin

/-- What the schema says about who owns the value. Errors are handed over. -/
def transfer : Origin → Ownership
  | value _ type => type.transfer
  | error => .full
  | slot inner => inner.transfer

def ofParam (space : String) (param : Param) : Origin :=
  if param.direction.isByReference then slot (value space param.type) else value space param.type

/-- The parameters of a managed function. An error is handed over in a slot behind the others. -/
def ofSignature (space : String) (callback : Callback) : List Origin :=
  callback.params.map (ofParam space) ++ if callback.throws then [slot error] else []

/-- The part of the schema that a step leads to. -/
def child? (repo : Repository) : Descriptor.Edge → Origin → Option Origin
  | .element, value space (.array _ _ element) => some (value space element)
  | .inner, slot inner => some inner
  | .param index, value space (.plain spelling) =>
    (repo.signature? space spelling.name).bind fun (declaring, callback) =>
      (ofSignature declaring callback)[index]?
  | .result, value space (.plain spelling) =>
    (repo.signature? space spelling.name).map fun (declaring, callback) =>
      value declaring callback.returns
  | _, _ => none

def part? (repo : Repository) : List Descriptor.Edge → Origin → Option Origin
  | [], origin => some origin
  | edge :: rest, origin => (origin.child? repo edge).bind (part? repo rest)

end Origin

end Schema

/-- Where a part is used that a step leads to. -/
def Descriptor.Edge.context : Descriptor.Edge → UseContext
  | .element => .element
  | .inner | .param _ => .parameter
  | .result => .returned

variable {platform : Platform} {pointerSize : Nat} {context : UseContext} {origin : Origin}
  {descriptor : Descriptor}

/-- How a value is described where it is used. -/
inductive Represents (platform : Platform) (pointerSize : Nat) :
    UseContext → Origin → Descriptor → Prop
  | null {context : UseContext} {space : String} {spelling : Spelling} :
      Represents platform pointerSize context (.value space (.plain spelling)) .null
  | string {context : UseContext} {space : String} {spelling : Spelling} :
      Represents platform pointerSize context (.value space (.plain spelling))
        (.string spelling.transfer)
  | primitive {context : UseContext} {space : String} {spelling : Spelling} {kind : PrimitiveKind}
      (hkind : kind ≠ .void) :
      Represents platform pointerSize context (.value space (.plain spelling))
        (.primitive kind (kind.size pointerSize))
  | object {context : UseContext} {space : String} {spelling : Spelling}
      (hooks : Option RefHooks) :
      Represents platform pointerSize context (.value space (.plain spelling))
        (.object spelling.transfer hooks)
  | boxed {context : UseContext} {space : String} {spelling : Spelling} (library : String)
      (getTypeFn : Option String) :
      Represents platform pointerSize context (.value space (.plain spelling))
        (.boxed (qualify space spelling.name) library spelling.transfer getTypeFn)
  | struct {context : UseContext} {space : String} {spelling : Spelling} (library : String) :
      Represents platform pointerSize context (.value space (.plain spelling))
        (.struct (qualify space spelling.name) library
          (platform.typeSize (qualify space spelling.name))
          (Mapper.storedInPlace context (.plain spelling)) spelling.transfer)
  | array {context : UseContext} {space : String} {spelling inner : Spelling} {form : ArrayForm}
      {element : Descriptor}
      (helement : Represents platform pointerSize .element (.value space (.plain inner)) element)
      (hnull : element.isNull = false) :
      Represents platform pointerSize context (.value space (.array spelling form (.plain inner)))
        (.array element spelling.transfer (lengthOf form) form.kind (element.slotSize pointerSize))
  /-- Managed functions are passed, but neither stored nor returned. -/
  | callback {space declaring : String} {spelling : Spelling} {callback : Callback}
      {trampoline : Trampoline} {params : List Descriptor} {result : Descriptor}
      {scope : CallbackScope} {userDataIndex destroyIndex : Option Nat}
      (hsignature : platform.repo.signature? space spelling.name = some (declaring, callback))
      (hlength : params.length = (Origin.ofSignature declaring callback).length)
      (hparams : ∀ (index : Nat) (origin : Origin) (part : Descriptor),
        (Origin.ofSignature declaring callback)[index]? = some origin → params[index]? = some part →
          Represents platform pointerSize .parameter origin part)
      (hresult : Represents platform pointerSize .returned (.value declaring callback.returns)
        result) :
      Represents platform pointerSize .parameter (.value space (.plain spelling))
        (.callback trampoline params result scope userDataIndex destroyIndex)
  | error (library : String) :
      Represents platform pointerSize .parameter .error
        (.boxed errorType library .full (some "g_error_get_type"))
  /-- A slot holds anything but a managed function or another slot. -/
  | slot {origin : Origin} {inner : Descriptor}
      (hinner : Represents platform pointerSize .parameter origin inner)
      (hcallback : inner.isCallback = false) (hreference : inner.isReference = false) :
      Represents platform pointerSize .parameter (.slot origin) (.reference inner)

namespace Represents

theorem isReference_eq_false {space : String} {type : TypeRef}
    (h : Represents platform pointerSize context (.value space type) descriptor) :
    descriptor.isReference = false := by
  cases h <;> rfl

theorem isCallback_eq_false (h : Represents platform pointerSize context origin descriptor)
    (hcontext : context ≠ .parameter) : descriptor.isCallback = false := by
  cases h with
  | callback => exact absurd rfl hcontext
  | _ => rfl

theorem isArray_eq_false {space : String} {spelling : Spelling}
    (h : Represents platform pointerSize context (.value space (.plain spelling)) descriptor) :
    descriptor.isArray = false := by
  cases h <;> rfl

/-- An array steps from one item to the next by the size of what holds an item. -/
theorem of_array {element : Descriptor} {ownership : Ownership} {length : ArrayLength}
    {kind : ArrayKind} {stride : Nat}
    (h : Represents platform pointerSize context origin
      (.array element ownership length kind stride)) :
    stride = element.slotSize pointerSize ∧
      ∃ source, Represents platform pointerSize .element source element := by
  cases h with
  | array helement => exact ⟨rfl, _, helement⟩

theorem layered (h : Represents platform pointerSize context origin descriptor) :
    descriptor.Layered pointerSize := by
  cases h with
  | primitive hkind => exact ⟨hkind, rfl⟩
  | array helement hnull =>
      exact ⟨helement.isArray_eq_false, helement.isReference_eq_false,
        helement.isCallback_eq_false (by simp), hnull⟩
  | callback _ _ _ hresult =>
      exact ⟨hresult.isCallback_eq_false (by simp), hresult.isReference_eq_false⟩
  | slot _ hcallback hreference => exact ⟨hreference, hcallback⟩
  | _ => trivial

/-- Records are stored in place only where values are stored. -/
theorem inPlace?_eq_none (h : Represents platform pointerSize context origin descriptor)
    (hcontext : context = .parameter ∨ context = .returned) : descriptor.inPlace? = none := by
  cases h with
  | struct => rcases hcontext with rfl | rfl <;> rfl
  | _ => rfl

/-- Whoever owns the value is the one that the schema says. -/
theorem eq_transfer (h : Represents platform pointerSize context origin descriptor)
    {ownership : Ownership} (hownership : descriptor.ownership? = some ownership) :
    ownership = origin.transfer := by
  induction h with
  | null | primitive | callback => cases hownership
  | string | object | boxed | struct | array | error =>
      cases hownership
      rfl
  | slot _ _ _ ih => exact ih hownership

/-- A part that is directly in a descriptor comes from the part of the schema that the same step
leads to. -/
theorem child (h : Represents platform pointerSize context origin descriptor)
    {edge : Descriptor.Edge} {part : Descriptor} (hpart : descriptor.child? edge = some part) :
    ∃ source, origin.child? platform.repo edge = some source ∧
      Represents platform pointerSize edge.context source part := by
  cases h with
  | array helement =>
      cases edge with
      | element =>
          cases hpart
          exact ⟨_, rfl, helement⟩
      | _ => cases hpart
  | callback hsignature hlength hparams hresult =>
      cases edge with
      | param index =>
          obtain ⟨hindex, _⟩ := List.getElem?_eq_some_iff.1 hpart
          have hsource := List.getElem?_eq_getElem (hlength ▸ hindex)
          exact ⟨_, by rw [Origin.child?, hsignature]; exact hsource,
            hparams index _ _ hsource hpart⟩
      | result =>
          cases hpart
          exact ⟨_, by rw [Origin.child?, hsignature]; rfl, hresult⟩
      | _ => cases hpart
  | slot hinner =>
      cases edge with
      | inner =>
          cases hpart
          exact ⟨_, rfl, hinner⟩
      | _ => cases hpart
  | _ => cases edge <;> cases hpart

/-- The same at any depth. -/
theorem part {top : Descriptor} (h : Represents platform pointerSize context origin top)
    {path : List Descriptor.Edge} {part : Descriptor} (hpart : top.part? path = some part) :
    ∃ source, origin.part? platform.repo path = some source ∧
      Represents platform pointerSize ((path.getLast?.map (·.context)).getD context) source
        part := by
  induction path generalizing context origin top with
  | nil =>
      cases hpart
      exact ⟨origin, rfl, h⟩
  | cons edge rest ih =>
      obtain ⟨middle, hmiddle, hrest⟩ := Option.bind_eq_some_iff.1 hpart
      obtain ⟨child, hchild, hrepresents⟩ := h.child hmiddle
      obtain ⟨source, hsource, hfinal⟩ := ih hrepresents hrest
      refine ⟨source, by rw [Origin.part?, hchild]; exact hsource, ?_⟩
      cases rest with
      | nil => exact hfinal
      | cons next others =>
          rw [List.getLast?_cons_cons]
          rw [List.getLast?_cons] at hfinal ⊢
          exact hfinal

/-- What describes a parameter or a result is well formed. -/
theorem wellFormed {top : Descriptor} (h : Represents platform pointerSize context origin top)
    (hcontext : context = .parameter ∨ context = .returned) : top.WellFormed pointerSize := by
  constructor
  case layered =>
    intro path part hpart
    obtain ⟨_, _, hrepresents⟩ := h.part hpart
    exact hrepresents.layered
  case inPlace =>
    intro path part hpart hinPlace
    obtain ⟨_, _, hrepresents⟩ := h.part hpart
    rw [Option.isSome_iff_ne_none] at hinPlace
    cases hlast : path.getLast? with
    | none =>
        rw [hlast] at hrepresents
        exact absurd (hrepresents.inPlace?_eq_none hcontext) hinPlace
    | some edge =>
        rw [hlast] at hrepresents
        cases edge with
        | element => rfl
        | inner | param => exact absurd (hrepresents.inPlace?_eq_none (.inl rfl)) hinPlace
        | result => exact absurd (hrepresents.inPlace?_eq_none (.inr rfl)) hinPlace

end Represents

namespace Mapper

variable {mapper : Mapper} {callbackStep : CallbackStep} {param : Option Param}
  {usage usage' : Usage}

/-- The step describes callback types as their signatures say. -/
def Reads (platform : Platform) (pointerSize : Nat) (callbackStep : CallbackStep) : Prop :=
  ∀ (space : String) (spelling : Spelling) (param : Option Param) (before behind : Usage)
    (descriptor : Descriptor),
    callbackStep (qualify space spelling.name) param before = .ok descriptor behind →
      Represents platform pointerSize .parameter (.value space (.plain spelling)) descriptor

theorem represents_of_mapSingle {spelling : Spelling}
    (h : mapper.mapSingle callbackStep context param (.plain spelling) usage =
      .ok descriptor usage')
    (hstep : Reads mapper.platform mapper.options.pointerSize callbackStep) :
    Represents mapper.platform mapper.options.pointerSize context
      (.value mapper.space (.plain spelling)) descriptor := by
  cases mapSingle_cases h with
  | void => exact .null
  | string => exact .string
  | primitive hkind => exact .primitive hkind
  | object hooks => exact .object hooks
  | boxed library getTypeFn => exact .boxed library getTypeFn
  | struct library => exact .struct library
  | callback hcontext hdescribed =>
      subst hcontext
      exact hstep _ _ _ _ _ _ hdescribed

theorem represents_of_mapWith {type : TypeRef}
    (h : mapper.mapWith callbackStep context param type usage = .ok descriptor usage')
    (hstep : Reads mapper.platform mapper.options.pointerSize callbackStep) :
    Represents mapper.platform mapper.options.pointerSize context (.value mapper.space type)
      descriptor := by
  cases type with
  | plain spelling => exact represents_of_mapSingle h hstep
  | array spelling form element =>
      obtain ⟨inner, described, _, _, rfl, hsingle, hnull, rfl⟩ := of_mapWith_array_eq_ok h
      exact .array (represents_of_mapSingle hsingle hstep) hnull

theorem represents_of_mapParamWith {param : Param}
    (h : mapper.mapParamWith callbackStep param usage = .ok descriptor usage')
    (hstep : Reads mapper.platform mapper.options.pointerSize callbackStep) :
    Represents mapper.platform mapper.options.pointerSize .parameter
      (.ofParam mapper.space param) descriptor := by
  rw [Origin.ofParam]
  obtain ⟨inner, _, hinner, hslot⟩ := of_mapParamWith_eq_ok h
  have hvalue := represents_of_mapWith hinner hstep
  rcases hslot with ⟨hdirection, rfl⟩ | ⟨hdirection, hcallback, rfl⟩
  · rwa [hdirection, if_neg Bool.false_ne_true]
  · rw [hdirection, if_pos rfl]
    exact .slot hvalue hcallback hvalue.isReference_eq_false

theorem represents_errorSlot :
    Represents mapper.platform pointerSize .parameter (.slot .error) mapper.errorSlot :=
  .slot (.error _) rfl rfl

/-- The parameters of a managed function are described in order, and its error behind them. -/
theorem represents_of_signature {space : String} {callback : Callback} {params : List Descriptor}
    (h : List.Forall₂ (fun param part => Represents mapper.platform pointerSize .parameter
      (.ofParam space param) part) callback.params params) :
    List.Forall₂ (Represents mapper.platform pointerSize .parameter)
      (Origin.ofSignature space callback)
      (params ++ if callback.throws then [mapper.errorSlot] else []) := by
  refine List.rel_append (List.forall₂_map_left_iff.2 h) ?_
  split
  next => exact .cons represents_errorSlot .nil
  next => exact .nil

/-- By induction on the types that are not being read: the signature of each is read with it on the
path. -/
theorem reads_mapCallback (mapper : Mapper) (path : List String) :
    Reads mapper.platform mapper.options.pointerSize (mapper.mapCallback path) := by
  intro space spelling param before behind descriptor h
  obtain ⟨hpath, declaring, callback, _, params, result, _, hresolve, rfl, hparams, _, _,
    hresult⟩ := of_mapCallback_eq_ok h
  have hstep := reads_mapCallback mapper (qualify space spelling.name :: path)
  have hall := represents_of_signature (hparams.imp fun param part ⟨_, _, hparam⟩ =>
    represents_of_mapParamWith hparam hstep)
  have hsignature : mapper.platform.repo.signature? space spelling.name =
      some (declaring.name, callback) := by
    rw [Repository.signature?, Repository.resolve?, hresolve]
  refine .callback hsignature hall.length_eq.symm ?_ (represents_of_mapWith hresult hstep)
  intro index origin part horigin hpart
  obtain ⟨found, hfound, hrepresents⟩ := Steps.exists_getElem?_of_forall₂ hall horigin
  obtain rfl : found = part := Option.some.inj (hfound.symm.trans hpart)
  exact hrepresents
termination_by mapper.platform.repo.remaining path
decreasing_by exact Repository.remaining_cons_lt hresolve (by simpa using hpath)

/-- What a type is mapped to describes it. -/
theorem represents_of_map {type : TypeRef}
    (h : mapper.map context type usage = .ok descriptor usage') :
    Represents mapper.platform mapper.options.pointerSize context (.value mapper.space type)
      descriptor :=
  represents_of_mapWith h (mapper.reads_mapCallback [])

theorem represents_of_mapParam {param : Param}
    (h : mapper.mapParam param usage = .ok descriptor usage') :
    Represents mapper.platform mapper.options.pointerSize .parameter
      (.ofParam mapper.space param) descriptor :=
  represents_of_mapParamWith h (mapper.reads_mapCallback [])

end Mapper

end Interop
