import Interop.Lists
import Interop.Schema.Declaration

/-! # The repository of namespaces

Looking types up by their qualified names. An index says where the declaration of a name stands; of
several declarations under one name the last one in the order of namespaces and kinds counts.
-/

namespace Interop.Schema

/-- A declaration together with the namespace it was found in. -/
structure Resolved where
  space : Namespace
  decl : Declaration
  deriving Repr, Inhabited

namespace Resolved

def localName (type : Resolved) : String := type.decl.name

def qualifiedName (type : Resolved) : String := type.space.qualify type.decl.name

end Resolved

/-- The name under which a type is known at run time: the registered name if there is one, else the
spelling in C, else the qualified name. -/
def runtimeTypeName (typeName cType : Option String) (qualified : String) : String :=
  (typeName <|> cType).getD qualified

/-- Every declared type of a list of namespaces, in order, under its qualified name. -/
def declared (spaces : List Namespace) : List (String × Resolved) :=
  spaces.flatMap fun space =>
    space.declarations.map fun decl => (space.qualify decl.name, ⟨space, decl⟩)

/-- Where a declaration stands: which namespace it is in, of what kind it is, and which one of that
kind. -/
structure DeclarationSite where
  space : Nat
  kind : DeclarationKind
  position : Nat
  deriving DecidableEq, Repr, Inhabited

/-- What stands at a site. -/
def DeclarationSite.resolve? (spaces : List Namespace) (site : DeclarationSite) :
    Option Resolved := do
  let space ← spaces[site.space]?
  let decl ← (space.ofKind site.kind)[site.position]?
  return ⟨space, decl⟩

/-- Where the type of each qualified name stands. -/
abbrev NameIndex := List (String × DeclarationSite)

namespace NameIndex

/-- Enters a name. If it is there already it is moved to the new site. -/
def enter (index : NameIndex) (name : String) (site : DeclarationSite) : NameIndex :=
  (name, site) :: index.filter (·.1 != name)

/-- Enters the types of one kind. -/
def enterKind (place : Nat) (space : Namespace) (index : NameIndex) (kind : DeclarationKind) :
    NameIndex :=
  (space.ofKind kind).zipIdx.foldl
    (fun index (decl, position) => index.enter (space.qualify decl.name) ⟨place, kind, position⟩)
    index

/-- Enters the types of a namespace, kind by kind. -/
def enterSpace (index : NameIndex) (entry : Namespace × Nat) : NameIndex :=
  DeclarationKind.all.foldl (enterKind entry.2 entry.1) index

def ofSpaces (spaces : List Namespace) : NameIndex := spaces.zipIdx.foldl enterSpace []

end NameIndex

/-- The namespaces of a program. The index is computed once, when the repository is made. -/
structure Repository where
  spaces : List Namespace
  index : NameIndex
  index_eq : index = .ofSpaces spaces

namespace Repository

def ofSpaces (spaces : List Namespace) : Repository := ⟨spaces, .ofSpaces spaces, rfl⟩

instance : Inhabited Repository := ⟨ofSpaces []⟩

def space? (repo : Repository) (name : String) : Option Namespace :=
  repo.spaces.find? (·.name == name)

def resolveQualified? (repo : Repository) (qualified : String) : Option Resolved :=
  (repo.index.lookup qualified).bind (·.resolve? repo.spaces)

def resolve? (repo : Repository) (space name : String) : Option Resolved :=
  repo.resolveQualified? (qualify space name)

/-- How many entries of the index are not on a path of names. Computations that follow types into
each other end because they open a declared name that is not yet on their path. -/
def remaining (repo : Repository) (path : List String) : Nat :=
  (repo.index.filter fun entry => !path.contains entry.1).length

theorem remaining_cons_lt {repo : Repository} {path : List String} {qualified : String}
    {type : Resolved} (hresolve : repo.resolveQualified? qualified = some type)
    (hpath : path.contains qualified = false) :
    repo.remaining (qualified :: path) < repo.remaining path := by
  obtain ⟨site, hsite, _⟩ := Option.bind_eq_some_iff.1 hresolve
  apply Lists.length_filter_lt (a := (qualified, site)) _ (Lists.mem_of_lookup hsite)
  · simpa using hpath
  · simp
  · intro entry _
    simp

def typeCount (repo : Repository) : Nat := repo.index.length

end Repository

end Interop.Schema
