/-!
# Catalogs

A catalog files values under names and lists them in the order of the names.
-/

namespace Tagging

/-- Values filed under names. -/
structure Catalog (α : Type) where
  /-- The names with their values, in the order of the names, each name once. -/
  entries : List (String × α)
deriving DecidableEq, Repr

namespace Catalog

variable {α : Type}

/-- Files nothing. -/
def empty : Catalog α := ⟨[]⟩

instance : Inhabited (Catalog α) := ⟨empty⟩

/-- Puts an entry in its place, where it replaces one of the same name. -/
def insertEntry (name : String) (value : α) : List (String × α) → List (String × α)
  | [] => [(name, value)]
  | (other, found) :: rest =>
    match compare name other with
    | .lt => (name, value) :: (other, found) :: rest
    | .eq => (name, value) :: rest
    | .gt => (other, found) :: insertEntry name value rest

/-- Files a value under a name, in place of what is filed there. -/
def insert (catalog : Catalog α) (name : String) (value : α) : Catalog α :=
  ⟨insertEntry name value catalog.entries⟩

/-- Files values one after the other. -/
def ofList (entries : List (String × α)) : Catalog α :=
  entries.foldl (fun catalog (name, value) => catalog.insert name value) empty

/-- What is filed under a name. -/
def find? (catalog : Catalog α) (name : String) : Option α := catalog.entries.lookup name

/-- The values in the order of their names. -/
def values (catalog : Catalog α) : List α := catalog.entries.map Prod.snd

/-- The names in their order. -/
def names (catalog : Catalog α) : List String := catalog.entries.map Prod.fst

/-- Whether nothing is filed. -/
def isEmpty (catalog : Catalog α) : Bool := catalog.entries.isEmpty

end Catalog

end Tagging
