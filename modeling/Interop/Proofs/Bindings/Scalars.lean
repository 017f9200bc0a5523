import Mathlib.Data.List.Pairwise
import Interop.Proofs.Bindings.Compiled
import Interop.Proofs.Layout.Shape
import Interop.Proofs.Mapping.Stored
import Interop.Proofs.Memory.RoundTrip
import Interop.Proofs.Schema.Distinct

/-! # Fields of scalar types

A field whose type is a number, an enumeration, a set of flags or a text is described as a scalar,
as wide as the slot that is reserved for it, also where the record around it contains itself. In a
struct it lies apart from every other field.
-/

namespace Interop

open Schema

/-- The type is that of a number, of a text, of an enumeration or of flags. -/
def Schema.TypeRef.isScalar (repo : Repository) (space : String) : TypeRef → Bool
  | .array .. => false
  | .plain spelling =>
    !(TypeRef.plain spelling).isVoid &&
      (isStringSpelling spelling.name || (PrimitiveKind.ofSpelling? spelling.name).isSome ||
        match (repo.resolve? space spelling.name).map Resolved.decl with
        | some (.enum _) | some (.flags _) => true
        | _ => false)

/-- The descriptor is that of a number or of a text. -/
def Descriptor.isScalar : Descriptor → Bool
  | .primitive .. | .string _ => true
  | _ => false

namespace Platform

variable {platform : Platform} {descriptor : Descriptor} {slot : Slot}

/-- Scalars are as wide as their slots, whatever is stored around them. -/
theorem Describes.isScalar_spec (h : platform.Describes descriptor slot)
    (hpointer : platform.pointerSize = Heap.pointerSize) (hscalar : descriptor.isScalar = true) :
    descriptor.IsScalar ∧
      ∃ layout, slot = .scalar layout ∧ layout.size = descriptor.slotSize Heap.pointerSize := by
  cases h with
  | primitive kind =>
      rw [hpointer]
      exact ⟨rfl, _, rfl, rfl⟩
  | @enum kind hwidth =>
      rw [hpointer] at hwidth
      exact ⟨hwidth.symm, _, rfl, rfl⟩
  | string ownership =>
      rw [hpointer]
      exact ⟨trivial, _, rfl, rfl⟩
  | _ => cases hscalar

end Platform

namespace Mapper

variable {mapper : Mapper}

/-- Scalar types are mapped to scalars. -/
theorem isScalar_of_mapSingle {callbackStep : CallbackStep} {context : UseContext}
    {param : Option Param} {spelling : Spelling} {usage usage' : Usage} {descriptor : Descriptor}
    (hscalar : (TypeRef.plain spelling).isScalar mapper.platform.repo mapper.space = true)
    (h : mapper.mapSingle callbackStep context param (.plain spelling) usage =
      .ok descriptor usage') : descriptor.isScalar = true := by
  rw [TypeRef.isScalar, Bool.and_eq_true, Bool.not_eq_true'] at hscalar
  obtain ⟨hvoid, hscalar⟩ := hscalar
  cases nameCase_of_mapSingle_eq_ok hvoid h with
  | string => rfl
  | primitive => rfl
  | @declared _ hstring hkind space decl middle hresolve hdeclared =>
      rw [hstring, hkind, Repository.resolve?, hresolve] at hscalar
      cases decl with
      | enum | flags =>
          cases hdeclared
          rfl
      | _ => cases hscalar

/-- A field of scalar type is described by a scalar as wide as its slot. -/
theorem isScalar_spec_of_mapWith {callbackStep : CallbackStep} {param : Option Param}
    {type : TypeRef} {usage usage' : Usage} {descriptor : Descriptor}
    (hoptions : mapper.options.pointerSize = mapper.platform.pointerSize)
    (hpointer : mapper.platform.pointerSize = Heap.pointerSize)
    (hscalar : type.isScalar mapper.platform.repo mapper.space = true)
    (h : mapper.mapWith callbackStep .field param type usage = .ok descriptor usage') :
    descriptor.IsScalar ∧ ∃ layout,
      Slot.ofType mapper.platform.repo mapper.platform.pointerSize mapper.space false type =
        .scalar layout ∧
      layout.size = descriptor.slotSize Heap.pointerSize := by
  cases type with
  | array => cases hscalar
  | plain spelling =>
      have hvoid : (TypeRef.plain spelling).isVoid = false := by
        rw [TypeRef.isScalar, Bool.and_eq_true, Bool.not_eq_true'] at hscalar
        exact hscalar.1
      have hdescribes := mapWith_plain_describes hoptions hvoid h
      refine hdescribes.isScalar_spec hpointer ?_
      exact @isScalar_of_mapSingle _ callbackStep .field param _ _ _ _ hscalar h

end Mapper

/-- The field is a scalar as wide as its place among others. -/
structure FieldBinding.FitsAmong (layouts : List FieldLayout) (binding : FieldBinding) : Prop where
  form : binding.descriptor.IsScalar
  width : binding.layout.size = binding.descriptor.slotSize Heap.pointerSize
  placed : binding.layout ∈ layouts

namespace Compiler

variable {repo : Repository} {options : Options}

/-- A compiled field of scalar type is as wide as it is laid out. -/
theorem scalar_of_mem_fields {space : Namespace} {owner : String} {compound : Compound}
    {shape : RecordShape} {report : CompileReport} {binding : FieldBinding}
    (hpointer : options.pointerSize = Heap.pointerSize)
    (hfind : Compound.find? repo owner = some compound) (hspace : compound.space = space.name)
    (hnames : (compound.fields.map (·.name)).Nodup)
    (hshape : (ofRepository repo options).platform.recordShape? owner = some shape)
    (h : binding ∈ ((ofRepository repo options).fields space owner compound.fields shape report).1)
    {field : Field} (hfield : field ∈ compound.fields) (hname : field.name = binding.layout.field)
    (hscalar : field.type.isScalar repo space.name = true) :
    binding.FitsAmong ((ofRepository repo options).platform.place [owner] compound.space
      compound.kind compound.fields).1 ∧ binding.readable = field.readable := by
  obtain ⟨found, usage, hlayout, hfound, hmap, _, hreadable, _⟩ := mem_fields h
  obtain ⟨declared, hdeclared, _, hplaced, hslot⟩ :=
    Platform.mem_fieldLayouts hfind hshape hlayout
  obtain rfl : found = field := by
    rw [← hname, find?_of_mem hnames hfield, Option.some.injEq] at hfound
    exact hfound.symm
  obtain rfl : found = declared := by
    have hsame : declared.name = binding.layout.field := (congrArg Prod.fst hslot).symm
    rw [← hsame, find?_of_mem hnames hdeclared, Option.some.injEq] at hfound
    exact hfound.symm
  have hspec := @Mapper.isScalar_spec_of_mapWith ((ofRepository repo options).builder space).mapper
    _ _ _ _ _ _ rfl hpointer hscalar hmap
  obtain ⟨hform, layout, hplain, hsize⟩ := hspec
  refine ⟨⟨hform, ?_, hplaced⟩, hreadable⟩
  have hreserved : binding.layout.size = ((ofRepository repo options).platform.slotLayout [owner]
      compound.space false found.type).size := congrArg (·.2.size) hslot
  rw [hreserved, ← hsize, Platform.slotLayout, hspace]
  exact congrArg (fun slot : Slot => (slot.layout _).size) hplain

/-- A scalar field of a record is as wide as it is laid out, under whichever name the record is
found. -/
theorem scalar_of_mem_record {space : Namespace} {source : Record} {name : String}
    {bindings : NamespaceBinding} {record : RecordBinding} {binding : FieldBinding}
    (hpointer : options.pointerSize = Heap.pointerSize) (hdistinct : repo.Distinct)
    (hspace : space ∈ repo.spaces) (hsource : source ∈ space.records ++ space.unions)
    (hnames : (source.fields.map (·.name)).Nodup)
    (hcompiled : (ofRepository repo options).namespace? name = .ok bindings)
    (howner : (splitQualified (space.qualify source.name)).1 = some name)
    (hrecord : bindings.record? (space.qualify source.name) = some record)
    (hbinding : binding ∈ record.fields) {field : Field} (hfield : field ∈ source.fields)
    (hname : field.name = binding.layout.field)
    (hscalar : field.type.isScalar repo space.name = true) :
    binding.FitsAmong ((ofRepository repo options).platform.place [space.qualify source.name]
      space.name source.kind source.fields).1 ∧ binding.readable = field.readable := by
  obtain ⟨other, hother, found, hfound, report, howner, hshape, hfields⟩ :=
    of_record?_eq_some hcompiled howner hrecord
  have hfind := hdistinct.find?_record hspace hsource
  -- the declaration that was compiled is the one that is found under the name
  have hsame := hdistinct.find?_record hother hfound
  rw [← howner, hfind, Option.some.injEq, Compound.mk.injEq] at hsame
  obtain ⟨hspaces, _, hdeclared, _⟩ := hsame
  rw [hfields, ← hdeclared] at hbinding
  rw [hspaces] at hscalar
  exact scalar_of_mem_fields hpointer hfind hspaces hnames hshape hbinding hfield hname hscalar

end Compiler

/-- Neither field reaches into the other. -/
def FieldLayout.Apart (left right : FieldLayout) : Prop :=
  left.endOffset ≤ right.offset ∨ right.endOffset ≤ left.offset

instance : Std.Symm FieldLayout.Apart := ⟨fun _ _ => Or.symm⟩

/-- Fields of a struct that have different names lie apart. -/
theorem Platform.apart_of_mem_place {platform : Platform} {path : List String} {space : String}
    {fields : List Field} {left right : FieldLayout}
    (hleft : left ∈ (platform.place path space .struct fields).1)
    (hright : right ∈ (platform.place path space .struct fields).1)
    (hne : left.field ≠ right.field) : left.Apart right := by
  have hpairs : (platform.place path space .struct fields).1.Pairwise FieldLayout.Apart :=
    (Placement.pairwise_following 0 _).imp Or.inl
  refine hpairs.forall hleft hright ?_
  rintro rfl
  exact hne rfl

/-- Scalar fields of a struct that have different names are stored apart. -/
theorem Platform.apart_of_fitsAmong {platform : Platform} {path : List String} {space : String}
    {fields : List Field} {left right : FieldBinding}
    (hleft : left.FitsAmong (platform.place path space .struct fields).1)
    (hright : right.FitsAmong (platform.place path space .struct fields).1)
    (hne : left.layout.field ≠ right.layout.field) :
    left.layout.offset + left.descriptor.slotSize Heap.pointerSize ≤ right.layout.offset ∨
      right.layout.offset + right.descriptor.slotSize Heap.pointerSize ≤ left.layout.offset := by
  rw [← hleft.width, ← hright.width]
  exact apart_of_mem_place hleft.placed hright.placed hne

end Interop
