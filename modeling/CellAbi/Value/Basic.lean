import CellAbi.AbiType.Descriptor
import CellAbi.Cell.Basic

/-!
# Values

Dynamic values of ABI types.  `null` is both an absent optional and a null address.  The entries of
a map keep their order but do not depend on it: two maps are equal if they have equally many
entries and every entry of the first has an equal one in the second.  The fields of a tuple are
sorted by name.
-/

namespace CellAbi

inductive Value where
  | null
  | int (value : Int)
  | bool (value : Bool)
  | string (text : String)
  | bytes (bytes : List UInt8)
  | cell (cell : Cell)
  | address (address : Address)
  | array (items : List Value)
  | map (entries : List (Value × Value))
  | tuple (fields : List (String × Value))

namespace Value

instance : Inhabited Value := ⟨null⟩

/-- The word for the value in messages. -/
def kind : Value → String
  | null => "null"
  | int _ => "int"
  | bool _ => "bool"
  | string _ => "string"
  | bytes _ => "bytes"
  | cell _ => "cell"
  | address _ => "address"
  | array _ => "array"
  | map _ => "map"
  | tuple _ => "tuple"

def isNull : Value → Bool
  | null => true
  | _ => false

/-- A field of a tuple. -/
def field? (name : String) : Value → Option Value
  | tuple fields => Sorted.lookup name fields
  | _ => none

/-! ## Equality -/

theorem sizeOf_key_lt {entries : List (Value × Value)} {e : Value × Value} (h : e ∈ entries) :
    sizeOf e.1 < sizeOf entries := by
  have := List.sizeOf_lt_of_mem h
  have : sizeOf e.1 < sizeOf e := by cases e; simp +arith only [Prod.mk.sizeOf_spec]
  omega

theorem sizeOf_value_lt {entries : List (Value × Value)} {e : Value × Value} (h : e ∈ entries) :
    sizeOf e.2 < sizeOf entries := by
  have := List.sizeOf_lt_of_mem h
  have : sizeOf e.2 < sizeOf e := by cases e; simp +arith only [Prod.mk.sizeOf_spec]
  omega

mutual

/-- Equality of values. -/
def equal : Value → Value → Bool
  | null, null => true
  | int a, int b => a == b
  | bool a, bool b => a == b
  | string a, string b => a == b
  | bytes a, bytes b => a == b
  | cell a, cell b => a == b
  | address a, address b => a == b
  | array a, array b => equalItems a b
  | tuple a, tuple b => equalFields a b
  | map a, map b =>
    a.length == b.length &&
      a.attach.all fun ⟨e, he⟩ => b.attach.any fun ⟨f, hf⟩ =>
        have := sizeOf_key_lt he
        have := sizeOf_key_lt hf
        have := sizeOf_value_lt he
        have := sizeOf_value_lt hf
        equal f.1 e.1 && equal f.2 e.2
  | _, _ => false
termination_by a b => sizeOf a + sizeOf b

def equalItems : List Value → List Value → Bool
  | [], [] => true
  | a :: as, b :: bs => equal a b && equalItems as bs
  | _, _ => false
termination_by as bs => sizeOf as + sizeOf bs

def equalFields : List (String × Value) → List (String × Value) → Bool
  | [], [] => true
  | (name, a) :: as, (name', b) :: bs => name == name' && equal a b && equalFields as bs
  | _, _ => false
termination_by as bs => sizeOf as + sizeOf bs

end

/-- Some entry of the list equals the given one. -/
def hasEntry (entries : List (Value × Value)) (e : Value × Value) : Bool :=
  entries.any fun f => equal f.1 e.1 && equal f.2 e.2

theorem equal_map (a b : List (Value × Value)) :
    equal (map a) (map b) = (a.length == b.length && a.all (hasEntry b)) := by
  rw [equal]
  congr 1
  rw [Bool.eq_iff_iff]
  simp only [List.all_eq_true, List.any_eq_true, List.mem_attach, true_and, forall_const,
    Subtype.forall, Subtype.exists, hasEntry, exists_prop]

/-! ## Conformance -/

/-- The error for a value of another kind. -/
def kindMismatch (type : AbiType) (value : Value) : AbiError :=
  .mismatch type.toText value.kind

/-- The error for a tuple without a component's field. -/
def missingField (name : String) : AbiError := .mismatch s!"tuple field '{name}'" "nothing"

mutual

/-- Checks that a value has the shape of a type and that its integers are in range. -/
def conforms : AbiType → Value → Except AbiError Unit
  | .optional _, null => .ok ()
  | .optional inner, value => conforms inner value
  | .address _, null => .ok ()
  | .integer signed width, int i => AbiType.checkInteger (.integer signed width) i
  | .bool, bool _ => .ok ()
  | .string, string _ => .ok ()
  | .cell, cell _ => .ok ()
  | .bytes none, bytes _ => .ok ()
  | .bytes (some length), bytes b =>
    if b.length = length then .ok ()
    else .error (.mismatch (AbiType.toText (.bytes (some length))) s!"{b.length} bytes")
  | .address strict, address a =>
    if strict && a.standard?.isNone then
      .error (.mismatch (AbiType.toText (.address strict)) "external address")
    else .ok ()
  | .array element, array items => items.forM (conforms element)
  | .map keyType valueType, map entries =>
    entries.forM fun (k, v) => do
      if k.isNull then throw (.mismatch keyType.toText "null")
      conforms keyType k
      conforms valueType v
  | .tuple components, tuple fields => conformsAll components fields
  | type, value => .error (kindMismatch type value)

/-- Checks the fields that the components name, in their order. -/
def conformsAll : List (String × AbiType) → List (String × Value) → Except AbiError Unit
  | [], _ => .ok ()
  | (name, type) :: rest, fields => do
    match Sorted.lookup name fields with
    | none => throw (missingField name)
    | some value => conforms type value
    conformsAll rest fields

end

end Value

end CellAbi
