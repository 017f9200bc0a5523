import Interop.Bridge.Registration

/-! # Linking classes to their parents again

What the hierarchy learns of a class is the same every time, so it does not matter for it whether
classes are linked once or, in the same order, once more.
-/

namespace Interop

open Schema

/-! ## Adding what is missing -/

namespace Lists

variable {α : Type} [BEq α] [LawfulBEq α] {items new : List α} {a item : α}

/-- The items with one more behind them, unless it is among them. -/
def adding (items : List α) (item : α) : List α :=
  if items.contains item then items else items ++ [item]

def including (items new : List α) : List α := new.foldl adding items

omit [LawfulBEq α] in
theorem including_append (items new more : List α) :
    including items (new ++ more) = including (including items new) more :=
  List.foldl_append

omit [LawfulBEq α] in
theorem prefix_adding (items : List α) (item : α) : items <+: adding items item := by
  unfold adding
  split
  next => exact List.prefix_refl items
  next => exact List.prefix_append items [item]

omit [LawfulBEq α] in
theorem prefix_including (items new : List α) : items <+: including items new := by
  induction new generalizing items with
  | nil => exact List.prefix_refl items
  | cons item rest ih => exact (prefix_adding items item).trans (ih _)

theorem mem_adding : a ∈ adding items item ↔ a ∈ items ∨ a = item := by
  unfold adding
  split
  next h =>
    refine ⟨.inl, fun hmem => hmem.elim id ?_⟩
    rintro rfl
    exact List.contains_iff_mem.1 h
  next => simp

theorem mem_including : a ∈ including items new ↔ a ∈ items ∨ a ∈ new := by
  induction new generalizing items with
  | nil => simp [including]
  | cons item rest ih =>
      have hfirst : including items (item :: rest) = including (adding items item) rest := rfl
      rw [hfirst, ih, mem_adding, List.mem_cons, or_assoc]

theorem nodup_including (h : items.Nodup) : (including items new).Nodup := by
  induction new generalizing items with
  | nil => exact h
  | cons item rest ih =>
      refine ih ?_
      unfold adding
      split
      next => exact h
      next hnew =>
        rw [List.contains_iff_mem] at hnew
        refine List.nodup_append.2 ⟨h, by simp, fun a ha b hb => ?_⟩
        obtain rfl := List.mem_singleton.1 hb
        exact fun hsame => hnew (hsame ▸ ha)

/-- The order of what is added makes no difference but for the order of the outcome. -/
theorem including_perm {others : List α} (h : new.Perm others) (hitems : items.Nodup) :
    (including items new).Perm (including items others) := by
  rw [List.perm_ext_iff_of_nodup (nodup_including hitems) (nodup_including hitems)]
  intro a
  rw [mem_including, mem_including, h.mem_iff]

theorem including_of_subset (h : ∀ a ∈ new, a ∈ items) : including items new = items := by
  induction new with
  | nil => rfl
  | cons item rest ih =>
      have hitem : items.contains item = true :=
        List.contains_iff_mem.2 (h item List.mem_cons_self)
      rw [including, List.foldl_cons, adding, if_pos hitem]
      exact ih fun a ha => h a (List.mem_cons_of_mem item ha)

theorem including_again (items new : List α) :
    including (including items new) new = including items new :=
  including_of_subset fun _ h => mem_including.2 (.inr h)

end Lists

/-! ## Replacing parents -/

namespace ParentTable

/-- The table with new entries, each in place of any other of its child. -/
def replacing (table links : ParentTable) : ParentTable :=
  links.foldl (fun table link => link :: table.filter fun entry => entry.1 != link.1) table

/-- What stays of the table are the entries of other children, behind the new ones. -/
theorem replacing_eq (table links : ParentTable) :
    replacing table links =
      replacing [] links ++ table.filter fun entry => !(links.map Prod.fst).contains entry.1 := by
  induction links generalizing table with
  | nil => exact (List.filter_eq_self.2 fun _ _ => rfl).symm
  | cons link rest ih =>
      have hfirst : ∀ table : ParentTable, replacing table (link :: rest) =
          replacing (link :: table.filter fun entry => entry.1 != link.1) rest := fun _ => rfl
      rw [hfirst, hfirst, ih, ih (link :: List.filter _ []), List.append_assoc]
      congr 1
      simp only [List.filter_nil, List.filter_cons, List.filter_filter, List.map_cons,
        List.contains_cons]
      split <;> simp [Bool.and_comm, bne]

theorem mem_of_mem_replacing {links : ParentTable} {entry : String × String}
    (h : entry ∈ replacing [] links) : entry.1 ∈ links.map Prod.fst := by
  induction links with
  | nil => cases h
  | cons link rest ih =>
      have hfirst : replacing [] (link :: rest) = replacing [link] rest := rfl
      rw [hfirst, replacing_eq] at h
      rcases List.mem_append.1 h with h | h
      · exact List.mem_cons_of_mem _ (ih h)
      · obtain rfl := List.mem_singleton.1 (List.mem_filter.1 h).1
        exact List.mem_cons_self

theorem replacing_again (table links : ParentTable) :
    replacing (replacing table links) links = replacing table links := by
  have hgone : (replacing [] links).filter
      (fun entry => !(links.map Prod.fst).contains entry.1) = [] := by
    rw [List.filter_eq_nil_iff]
    intro entry hentry
    simpa using mem_of_mem_replacing hentry
  rw [replacing_eq (replacing table links), replacing_eq table, List.filter_append, hgone,
    List.nil_append, List.filter_filter]
  simp

/-- Entries of different children all stay, the last one first. -/
theorem replacing_of_nodup {links : ParentTable} (h : (links.map Prod.fst).Nodup) :
    replacing [] links = links.reverse := by
  induction links with
  | nil => rfl
  | cons link rest ih =>
      obtain ⟨hnew, hrest⟩ := List.nodup_cons.1 (List.map_cons ▸ h)
      have hfirst : replacing [] (link :: rest) = replacing [link] rest := rfl
      rw [hfirst, replacing_eq, ih hrest, List.reverse_cons]
      congr 1
      simpa using hnew

end ParentTable

/-! ## Linking -/

namespace Hierarchy

variable (hierarchy : Hierarchy) (name other : String)

theorem add_eq : hierarchy.add name =
    { hierarchy with names := Lists.adding hierarchy.names name } := by
  unfold add Lists.adding
  split <;> rfl

theorem addInterface_eq : hierarchy.addInterface name other =
    { hierarchy with
      names := Lists.including hierarchy.names [name, other]
      interfaces := Lists.adding hierarchy.interfaces (name, other) } := by
  simp only [addInterface, add_eq, Lists.including, List.foldl_cons, List.foldl_nil]
  by_cases hold : hierarchy.interfaces.contains (name, other) = true
  · rw [if_pos hold, Lists.adding.eq_1 hierarchy.interfaces, if_pos hold]
  · rw [if_neg hold, Lists.adding.eq_1 hierarchy.interfaces, if_neg hold]

theorem setParent_eq : hierarchy.setParent name other =
    { hierarchy with
      names := Lists.including hierarchy.names [name, other]
      parents := hierarchy.parents.replacing [(name, other)] } := by
  simp [setParent, add_eq, Lists.including, ParentTable.replacing]

end Hierarchy

namespace Bridge

/-- The type names that linking a class mentions. -/
def linkedNames (schema : Repository) (cls : ClassBinding) : List String :=
  (cls.typeName :: cls.parent.toList.flatMap fun parent =>
      [cls.typeName, schemaTypeName schema parent]) ++
    cls.interfaces.flatMap fun interface => [cls.typeName, schemaTypeName schema interface]

def linkedParents (schema : Repository) (cls : ClassBinding) : ParentTable :=
  cls.parent.toList.map fun parent => (cls.typeName, schemaTypeName schema parent)

def linkedInterfaces (schema : Repository) (cls : ClassBinding) : List (String × String) :=
  cls.interfaces.map fun interface => (cls.typeName, schemaTypeName schema interface)

/-- What the hierarchy is once all of the classes have been linked. -/
def linkAll (schema : Repository) (classes : List ClassBinding) (hierarchy : Hierarchy) :
    Hierarchy :=
  classes.foldl (fun hierarchy cls => linkClass schema cls hierarchy) hierarchy

variable (schema : Repository) (cls : ClassBinding) (classes : List ClassBinding)
  (hierarchy : Hierarchy)

/-- Adding the interfaces of a class brings in their names and the pairs, each once. -/
theorem foldl_addInterface_eq (interfaces : List String) :
    interfaces.foldl (fun hierarchy interface =>
        hierarchy.addInterface cls.typeName (schemaTypeName schema interface)) hierarchy =
      { hierarchy with
        names := Lists.including hierarchy.names (interfaces.flatMap fun interface =>
          [cls.typeName, schemaTypeName schema interface])
        interfaces := Lists.including hierarchy.interfaces (interfaces.map fun interface =>
          (cls.typeName, schemaTypeName schema interface)) } := by
  induction interfaces generalizing hierarchy with
  | nil => rfl
  | cons interface rest ih =>
      rw [List.foldl_cons, ih, Hierarchy.addInterface_eq, List.flatMap_cons,
        Lists.including_append]
      rfl

theorem linkClass_eq : linkClass schema cls hierarchy =
    { names := Lists.including hierarchy.names (linkedNames schema cls)
      parents := hierarchy.parents.replacing (linkedParents schema cls)
      interfaces := Lists.including hierarchy.interfaces (linkedInterfaces schema cls) } := by
  unfold linkClass
  dsimp only
  rw [foldl_addInterface_eq]
  cases hparent : cls.parent with
  | none =>
      simp only [Hierarchy.add_eq, linkedNames, linkedParents, linkedInterfaces, hparent]
      rw [Lists.including_append]
      rfl
  | some parent =>
      simp only [Hierarchy.add_eq, Hierarchy.setParent_eq, linkedNames, linkedParents,
        linkedInterfaces, hparent]
      rw [Lists.including_append]
      rfl

theorem linkAll_eq : linkAll schema classes hierarchy =
    { names := Lists.including hierarchy.names (classes.flatMap (linkedNames schema))
      parents := hierarchy.parents.replacing (classes.flatMap (linkedParents schema))
      interfaces :=
        Lists.including hierarchy.interfaces (classes.flatMap (linkedInterfaces schema)) } := by
  induction classes generalizing hierarchy with
  | nil => rfl
  | cons cls rest ih =>
      have hfirst : linkAll schema (cls :: rest) hierarchy =
          linkAll schema rest (linkClass schema cls hierarchy) := rfl
      rw [hfirst, ih, linkClass_eq]
      simp only [List.flatMap_cons, Lists.including_append, ParentTable.replacing,
        List.foldl_append]

/-- Linking the same classes once more changes nothing. -/
theorem linkAll_again :
    linkAll schema classes (linkAll schema classes hierarchy) =
      linkAll schema classes hierarchy := by
  simp only [linkAll_eq, Lists.including_again, ParentTable.replacing_again]

theorem prefix_names_linkAll : hierarchy.names <+: (linkAll schema classes hierarchy).names := by
  rw [linkAll_eq]
  exact Lists.prefix_including _ _

end Bridge

end Interop
