import CellAbi.Proofs.Sorted
import CellAbi.Value.Basic

/-!
# Parts of values

What stands in a value at any depth.  A value is regular if all its parts are: cells are in normal
form and written in 32 bits, no map has two equal keys, and the fields of tuples ascend.  It is
distinct if this holds of its maps and tuples, whatever the cells.

    Part u v → Part v w → Part u w                                                 (`Part.trans`)
    Regular v → Part w v → Regular w                                             (`Regular.part`)
-/

namespace CellAbi.Value

/-- The first value is the second one or stands in it, be it as a key. -/
inductive Part : Value → Value → Prop
  | self (v : Value) : Part v v
  | item {w item : Value} {items : List Value} (h : item ∈ items) (hw : Part w item) :
    Part w (array items)
  | key {w : Value} {e : Value × Value} {entries : List (Value × Value)} (h : e ∈ entries)
    (hw : Part w e.1) : Part w (map entries)
  | value {w : Value} {e : Value × Value} {entries : List (Value × Value)} (h : e ∈ entries)
    (hw : Part w e.2) : Part w (map entries)
  | field {w : Value} {e : String × Value} {fields : List (String × Value)} (h : e ∈ fields)
    (hw : Part w e.2) : Part w (tuple fields)

variable {u v w : Value}

theorem sizeOf_field_lt {fields : List (String × Value)} {e : String × Value} (h : e ∈ fields) :
    sizeOf e.2 < sizeOf fields := by
  have := List.sizeOf_lt_of_mem h
  have : sizeOf e.2 < sizeOf e := by cases e; simp +arith only [Prod.mk.sizeOf_spec]
  omega

theorem Part.trans (huv : Part u v) (hvw : Part v w) : Part u w := by
  induction hvw with
  | self => exact huv
  | item h _ ih => exact .item h ih
  | key h _ ih => exact .key h ih
  | value h _ ih => exact .value h ih
  | field h _ ih => exact .field h ih

/-- All parts are such that they are read back when they are written. -/
structure Regular (v : Value) : Prop where
  cell : ∀ c, Part (cell c) v → c.Normal ∧ c.size < 2 ^ 32
  keys : ∀ entries, Part (map entries) v → entries.Pairwise fun e f => equal e.1 f.1 = false
  fields : ∀ fields, Part (tuple fields) v → Sorted.Ascending fields

theorem Regular.part (h : Regular v) (hw : Part w v) : Regular w where
  cell c hc := h.cell c (hc.trans hw)
  keys entries he := h.keys entries (he.trans hw)
  fields fields hf := h.fields fields (hf.trans hw)

/-- At any depth, no two keys of a map are equal, and the fields of a tuple ascend. -/
structure Distinct (v : Value) : Prop where
  keys : ∀ entries, Part (map entries) v → entries.Pairwise fun e f => equal e.1 f.1 = false
  fields : ∀ fields, Part (tuple fields) v → Sorted.Ascending fields

theorem Regular.distinct (h : Regular v) : Distinct v := ⟨h.keys, h.fields⟩

theorem Distinct.part (h : Distinct v) (hw : Part w v) : Distinct w where
  keys entries he := h.keys entries (he.trans hw)
  fields fields hf := h.fields fields (hf.trans hw)

end CellAbi.Value
