/-!
# TOML tables

The values that settings are made of: texts, Booleans, lists and tables.  Numbers, dates and lists
of tables occur in no setting and have no value here.  A table remembers how it came to be, since
that decides whether a later line may add to it.
-/

namespace CellAbi

/-- How a table came to be. -/
inductive TableOrigin where
  /-- It has a header of its own. -/
  | header
  /-- The header of a table below it mentions it. -/
  | implied
  /-- A dotted key mentions it. -/
  | dotted
  /-- It is written between braces. -/
  | inline
deriving DecidableEq, Repr

inductive Toml where
  | string (text : String)
  | bool (value : Bool)
  | array (items : List Toml)
  | table (origin : TableOrigin) (members : List (String × Toml))

namespace Toml

instance : Inhabited Toml := ⟨bool false⟩

/-- Members of a table in the order of their definition. -/
abbrev Members := List (String × Toml)

/-- Puts a value in the place of the member of that name. -/
def replace (name : String) (value : Toml) (members : Members) : Members :=
  members.map fun (n, v) => if n = name then (n, value) else (n, v)

/-- Defines the member that a dotted key names.  A member is defined once, and only tables that
dotted keys began take more members by dotted keys. -/
def define? (value : Toml) : List String → Members → Option Members
  | [], _ => none
  | [name], members =>
    if (members.lookup name).isSome then none else some (members ++ [(name, value)])
  | name :: path, members =>
    match members.lookup name with
    | none => (define? value path []).map fun inner => members ++ [(name, table .dotted inner)]
    | some (table .dotted inner) =>
      (define? value path inner).map fun inner => replace name (table .dotted inner) members
    | some _ => none

/-- Opens the table that a header names.  A table has one header at most, and tables that dotted
keys began have none. -/
def openTable? : List String → Members → Option Members
  | [], _ => none
  | [name], members =>
    match members.lookup name with
    | none => some (members ++ [(name, table .header [])])
    | some (table .implied inner) => some (replace name (table .header inner) members)
    | some _ => none
  | name :: path, members =>
    match members.lookup name with
    | none => (openTable? path []).map fun inner => members ++ [(name, table .implied inner)]
    | some (table .inline _) => none
    | some (table origin inner) =>
      (openTable? path inner).map fun inner => replace name (table origin inner) members
    | some _ => none

/-- Changes the members of the table at a path. -/
def within? (change : Members → Option Members) : List String → Members → Option Members
  | [], members => change members
  | name :: path, members =>
    match members.lookup name with
    | some (table origin inner) =>
      (within? change path inner).map fun inner => replace name (table origin inner) members
    | _ => none

end Toml

end CellAbi
