import CellAbi.Json.Document
import CellAbi.Schema.Contract

/-!
# JSON form of schemas

A record is written as an object, or read from an array of its members in their order.  Members
that a schema does not know are passed over unread.  Known members may occur once; a missing one
takes its default, which names and types do not have.  A list that is present is no null.
-/

namespace CellAbi

/-- A reader of a document that may nest `levels` deep. -/
abbrev Reader (α : Type) := Nat → Document → Option α

namespace Reader

def string : Reader String
  | _, .string s => s
  | _, _ => none

def bool : Reader Bool
  | _, .bool b => some b
  | _, _ => none

/-- An integer of 32 bits without sign. -/
def nat32 : Reader Nat
  | _, .number (some (.integer i)) => if 0 ≤ i ∧ i < 2 ^ 32 then some i.toNat else none
  | _, _ => none

/-- A value or null. -/
def optional {α : Type} (item : Reader α) : Reader (Option α)
  | _, .null => some none
  | levels, d => (item levels d).map some

def list {α : Type} (item : Reader α) : Reader (List α)
  | levels + 1, .array items => items.mapM (item levels)
  | _, _ => none

end Reader

/-- The members of a record that were found, by name. -/
abbrev Members := List (String × Document)

namespace Members

/-- The known members of an object.  A name that cannot be read and a known name that comes twice
are errors. -/
def ofObject? (names : List String) : List (Option String × Document) → Option Members
  | [] => some []
  | (none, _) :: _ => none
  | (some name, d) :: rest => do
    let members ← ofObject? names rest
    if !names.contains name then return members
    else if (members.lookup name).isSome then none
    else return (name, d) :: members

/-- The members of a record with these names, and the levels left inside it. -/
def ofDocument? (names : List String) : Nat → Document → Option (Nat × Members)
  | levels + 1, .object members => do return (levels, ← ofObject? names members)
  | levels + 1, .array items =>
    if items.length ≤ names.length then some (levels, names.zip items) else none
  | _, _ => none

/-- A member that has to be there. -/
def required {α : Type} (read : Reader α) (name : String) (levels : Nat) (m : Members) :
    Option α := do
  read levels (← m.lookup name)

/-- A member with a default. -/
def withDefault {α : Type} (read : Reader α) (default : α) (name : String) (levels : Nat)
    (m : Members) : Option α :=
  match m.lookup name with
  | none => some default
  | some d => read levels d

end Members

open Members

namespace Param

/-- Reads a parameter.  Each nested parameter takes two levels, one for the list of components and
one for its record; `fuel` is at least the number of levels. -/
def read (fuel : Nat) : Reader Param := fun levels d =>
  match fuel with
  | 0 => none
  | fuel + 1 => do
    let (levels, m) ← ofDocument? ["name", "type", "components", "init"] levels d
    return {
      name := ← required Reader.string "name" levels m
      type := ← required Reader.string "type" levels m
      components :=
        ← withDefault (Reader.optional (Reader.list (read fuel))) none "components" levels m
      init := ← withDefault (Reader.optional Reader.bool) none "init" levels m }

/-- Reads a parameter with all levels that are left. -/
def reader : Reader Param := fun levels d => read levels levels d

end Param

/-- A member that is a list of parameters. -/
def paramsMember (name : String) (levels : Nat) (m : Members) : Option (List Param) :=
  withDefault (Reader.list Param.reader) [] name levels m

/-- A member that is a text or null. -/
def textMember (name : String) (levels : Nat) (m : Members) : Option (Option String) :=
  withDefault (Reader.optional Reader.string) none name levels m

def Function.reader : Reader Function := fun levels d => do
  let (levels, m) ← ofDocument? ["name", "inputs", "outputs", "id"] levels d
  return {
    name := ← required Reader.string "name" levels m
    inputs := ← paramsMember "inputs" levels m
    outputs := ← paramsMember "outputs" levels m
    id := ← textMember "id" levels m }

def Getter.reader : Reader Getter := fun levels d => do
  let (levels, m) ← ofDocument? ["name", "inputs", "outputs"] levels d
  return {
    name := ← required Reader.string "name" levels m
    inputs := ← paramsMember "inputs" levels m
    outputs := ← paramsMember "outputs" levels m }

def Event.reader : Reader Event := fun levels d => do
  let (levels, m) ← ofDocument? ["name", "inputs", "id"] levels d
  return {
    name := ← required Reader.string "name" levels m
    inputs := ← paramsMember "inputs" levels m
    id := ← textMember "id" levels m }

namespace Contract

def reader : Reader Contract := fun levels d => do
  let (levels, m) ← ofDocument? ["ABI version", "abi_version", "version", "header", "functions",
    "getters", "events", "fields"] levels d
  return {
    legacyVersion := ← withDefault (Reader.optional Reader.nat32) none "ABI version" levels m
    abiVersion := ← withDefault (Reader.optional Reader.nat32) none "abi_version" levels m
    version := ← textMember "version" levels m
    header := ← withDefault (Reader.list Reader.string) [] "header" levels m
    functions := ← withDefault (Reader.list Function.reader) [] "functions" levels m
    getters := ← withDefault (Reader.list Getter.reader) [] "getters" levels m
    events := ← withDefault (Reader.list Event.reader) [] "events" levels m
    fields := ← paramsMember "fields" levels m }

/-- Reads a schema from its JSON text. -/
def ofText (text : String) : Except AbiError Contract :=
  match (Document.parse? text).bind (reader Document.maxNesting) with
  | some c => .ok c
  | none => .error .schema

end Contract

/-! ## Writing -/

/-- A member that is left out when absent. -/
def optionalMember {α : Type} (name : String) (write : α → Json) (value : Option α) :
    List (String × Json) :=
  match value with
  | none => []
  | some a => [(name, write a)]

namespace Param

mutual

def toJson : Param → Json
  | ⟨name, type, components, init⟩ =>
    .ofMembers ([("name", .string name), ("type", .string type)] ++
      componentsMember components ++ optionalMember "init" .bool init)

def componentsMember : Option (List Param) → List (String × Json)
  | none => []
  | some ps => [("components", .array (toJsons ps))]

def toJsons : List Param → List Json
  | [] => []
  | p :: ps => toJson p :: toJsons ps

end

end Param

/-- A list of parameters. -/
def paramsJson (ps : List Param) : Json := .array (Param.toJsons ps)

def Function.toJson (f : Function) : Json :=
  .ofMembers ([("name", .string f.name), ("inputs", paramsJson f.inputs),
    ("outputs", paramsJson f.outputs)] ++ optionalMember "id" .string f.id)

def Getter.toJson (g : Getter) : Json :=
  .ofMembers [("name", .string g.name), ("inputs", paramsJson g.inputs),
    ("outputs", paramsJson g.outputs)]

def Event.toJson (e : Event) : Json :=
  .ofMembers ([("name", .string e.name), ("inputs", paramsJson e.inputs)] ++
    optionalMember "id" .string e.id)

def Contract.toJson (c : Contract) : Json :=
  .ofMembers (
    optionalMember "ABI version" (fun n => .integer (n : Nat)) c.legacyVersion ++
    optionalMember "abi_version" (fun n => .integer (n : Nat)) c.abiVersion ++
    optionalMember "version" .string c.version ++
    [("header", .array (c.header.map .string)),
      ("functions", .array (c.functions.map Function.toJson)),
      ("getters", .array (c.getters.map Getter.toJson)),
      ("events", .array (c.events.map Event.toJson)),
      ("fields", paramsJson c.fields)])

end CellAbi
