import CellAbi.Proofs.Value.Conformance

/-!
# Proper values of a type

A value is declared by a type if its tuples have the fields that the type names and no others.  A
regular and declared value that conforms to a type is proper of it; `Proper` says so by the
constructors of the type.  Values of contract calls are sound: they are regular, and their arrays
are counted in 32 bits.

    conforms type v = .ok () → Declared type v → Regular v → Proper type v  (`proper_of_conforms`)
    Sound v → Regular v                                                          (`Sound.regular`)
-/

namespace CellAbi.Value

/-! ## Soundness -/

mutual

/-- What holds of every value that can be written, at any depth. -/
def Sound : Value → Prop
  | cell c => c.Normal ∧ c.size < 2 ^ 32
  | array items => items.length < 2 ^ 32 ∧ SoundItems items
  | map entries => entries.Pairwise (fun e f => equal e.1 f.1 = false) ∧ SoundEntries entries
  | tuple fields => Sorted.Ascending fields ∧ SoundFields fields
  | _ => True

def SoundItems : List Value → Prop
  | [] => True
  | item :: rest => Sound item ∧ SoundItems rest

def SoundEntries : List (Value × Value) → Prop
  | [] => True
  | (k, v) :: rest => Sound k ∧ Sound v ∧ SoundEntries rest

def SoundFields : List (String × Value) → Prop
  | [] => True
  | (_, v) :: rest => Sound v ∧ SoundFields rest

end

theorem soundItems_iff {items : List Value} : SoundItems items ↔ ∀ item ∈ items, Sound item := by
  induction items with
  | nil => simp [SoundItems]
  | cons item rest ih => simp [SoundItems, ih]

theorem soundEntries_iff {entries : List (Value × Value)} :
    SoundEntries entries ↔ ∀ e ∈ entries, Sound e.1 ∧ Sound e.2 := by
  induction entries with
  | nil => simp [SoundEntries]
  | cons e rest ih => simp [SoundEntries, ih, and_assoc]

theorem soundFields_iff {fields : List (String × Value)} :
    SoundFields fields ↔ ∀ e ∈ fields, Sound e.2 := by
  induction fields with
  | nil => simp [SoundFields]
  | cons e rest ih => simp [SoundFields, ih]

theorem Sound.part {v w : Value} (h : Sound v) (hw : Part w v) : Sound w := by
  induction hw with
  | self => exact h
  | item hmem _ ih => exact ih (soundItems_iff.1 h.2 _ hmem)
  | key hmem _ ih => exact ih (soundEntries_iff.1 h.2 _ hmem).1
  | value hmem _ ih => exact ih (soundEntries_iff.1 h.2 _ hmem).2
  | field hmem _ ih => exact ih (soundFields_iff.1 h.2 _ hmem)

theorem Sound.regular {v : Value} (h : Sound v) : Regular v where
  cell _ hc := h.part hc
  keys _ he := (h.part he).1
  fields _ hf := (h.part hf).1

/-! ## Declared fields -/

mutual

/-- Every tuple of the value has exactly the fields that its type names. -/
def Declared : AbiType → Value → Prop
  | .optional inner, v => Declared inner v
  | .array element, array items => ∀ item ∈ items, Declared element item
  | .map key value, map entries => ∀ e ∈ entries, Declared key e.1 ∧ Declared value e.2
  | .tuple components, tuple fields =>
    (∀ name, name ∈ fields.map Prod.fst ↔ name ∈ components.map Prod.fst) ∧
      DeclaredAll components fields
  | _, _ => True

def DeclaredAll : List (String × AbiType) → List (String × Value) → Prop
  | [], _ => True
  | (name, type) :: rest, fields =>
    (∀ v, (name, v) ∈ fields → Declared type v) ∧ DeclaredAll rest fields

end

theorem declaredAll_iff {components : List (String × AbiType)} {fields : List (String × Value)} :
    DeclaredAll components fields ↔
      ∀ c ∈ components, ∀ v, (c.1, v) ∈ fields → Declared c.2 v := by
  induction components with
  | nil => simp [DeclaredAll]
  | cons c rest ih => simp [DeclaredAll, ih]

/-- The typed parts of a declared value are declared. -/
theorem Typed.declared {type U : AbiType} {v w : Value} (h : Typed U w type v) : Declared type v → Declared U w := by
  induction h with
  | self => exact id
  | inner _ _ ih => exact ih
  | item hitem _ ih => exact fun hv => ih (hv _ hitem)
  | key he _ ih => exact fun hv => ih (hv _ he).1
  | value he _ ih => exact fun hv => ih (hv _ he).2
  | field hc hlookup _ ih =>
    exact fun hv => ih (declaredAll_iff.1 hv.2 _ hc _ (Sorted.mem_of_lookup hlookup))

/-! ## Proper values -/

/-- The values that a type is for. -/
inductive Proper : AbiType → Value → Prop
  | absent {inner : AbiType} : Proper (.optional inner) null
  | present {inner : AbiType} {v : Value} (hne : v ≠ null) (h : Proper inner v) :
    Proper (.optional inner) v
  | int {signed : Bool} {width : IntWidth} {i : Int}
    (h : AbiType.checkInteger (.integer signed width) i = .ok ()) :
    Proper (.integer signed width) (int i)
  | bool (b : Bool) : Proper .bool (bool b)
  | string (s : String) : Proper .string (string s)
  | bytes {length : Option Nat} {b : List UInt8} (h : ∀ n, length = some n → b.length = n) :
    Proper (.bytes length) (bytes b)
  | cell {c : Cell} (h : c.Normal) (hsize : c.size < 2 ^ 32) : Proper .cell (cell c)
  | noAddress (strict : Bool) : Proper (.address strict) null
  | address {strict : Bool} {a : Address} (h : strict = true → a.standard?.isSome = true) :
    Proper (.address strict) (address a)
  | array {element : AbiType} {items : List Value} (h : ∀ item ∈ items, Proper element item) :
    Proper (.array element) (array items)
  | map {key value : AbiType} {entries : List (Value × Value)}
    (hdistinct : entries.Pairwise fun e f => equal e.1 f.1 = false)
    (hnull : ∀ e ∈ entries, e.1 ≠ null) (hkey : ∀ e ∈ entries, Proper key e.1)
    (hvalue : ∀ e ∈ entries, Proper value e.2) : Proper (.map key value) (map entries)
  | tuple {components : List (String × AbiType)} {fields : List (String × Value)}
    (hascending : Sorted.Ascending fields)
    (hnames : ∀ name, name ∈ fields.map Prod.fst ↔ name ∈ components.map Prod.fst)
    (h : ∀ name type v, (name, type) ∈ components → (name, v) ∈ fields → Proper type v) :
    Proper (.tuple components) (tuple fields)

mutual

theorem proper_of_conforms : ∀ {type : AbiType} {v : Value}, conforms type v = .ok () →
    Declared type v → Regular v → Proper type v
  | .optional inner, v, hc, hd, hr => by
    by_cases hne : v = null
    · subst hne
      exact .absent
    · rw [conforms_optional hne] at hc
      exact .present hne (proper_of_conforms hc hd hr)
  | .integer signed width, v, hc, _, _ => by
    cases v <;> simp only [conforms, reduceCtorEq] at hc
    exact .int hc
  | .bool, v, hc, _, _ => by
    cases v <;> simp only [conforms, reduceCtorEq] at hc
    exact .bool _
  | .string, v, hc, _, _ => by
    cases v <;> simp only [conforms, reduceCtorEq] at hc
    exact .string _
  | .bytes length, v, hc, _, _ => by
    cases v with
    | bytes b => exact .bytes (conforms_bytes.1 hc)
    | _ => simp only [conforms, reduceCtorEq] at hc
  | .cell, v, hc, _, hr => by
    cases v <;> simp only [conforms, reduceCtorEq] at hc
    exact .cell (hr.cell _ (.self _)).1 (hr.cell _ (.self _)).2
  | .address strict, v, hc, _, _ => by
    cases v with
    | null => exact .noAddress strict
    | address a => exact .address (conforms_address.1 hc)
    | _ => simp only [conforms, reduceCtorEq] at hc
  | .array element, v, hc, hd, hr => by
    cases v with
    | array items =>
      exact .array fun item hi => proper_of_conforms (conforms_array.1 hc item hi) (hd item hi)
        (hr.part (.item hi (.self item)))
    | _ => simp only [conforms, reduceCtorEq] at hc
  | .map key value, v, hc, hd, hr => by
    cases v with
    | map entries =>
      have hentry := conforms_map.1 hc
      exact .map (hr.keys _ (.self _)) (fun e he => (hentry e he).1)
        (fun e he => proper_of_conforms (hentry e he).2.1 (hd e he).1 (hr.part (.key he (.self _))))
        (fun e he => proper_of_conforms (hentry e he).2.2 (hd e he).2
          (hr.part (.value he (.self _))))
    | _ => simp only [conforms, reduceCtorEq] at hc
  | .tuple components, v, hc, hd, hr => by
    cases v with
    | tuple fields =>
      have ha := hr.fields _ (.self _)
      exact .tuple ha hd.1 (proper_of_components ha (conforms_tuple.1 hc) hd.2
        fun e he => hr.part (.field he (.self _)))
    | _ => simp only [conforms, reduceCtorEq] at hc

theorem proper_of_components : ∀ {components : List (String × AbiType)}
    {fields : List (String × Value)}, Sorted.Ascending fields →
    (∀ c ∈ components, ∃ v, Sorted.lookup c.1 fields = some v ∧ conforms c.2 v = .ok ()) →
    DeclaredAll components fields → (∀ e ∈ fields, Regular e.2) →
    ∀ name type v, (name, type) ∈ components → (name, v) ∈ fields → Proper type v
  | [], _, _, _, _, _ => fun _ _ _ hmem _ => absurd hmem List.not_mem_nil
  | (name, type) :: rest, fields, ha, hc, hd, hr => by
    intro n t v ht hv
    obtain ⟨hhead, hrest⟩ := List.forall_mem_cons.1 hc
    rcases List.mem_cons.1 ht with heq | ht
    · obtain ⟨rfl, rfl⟩ := Prod.mk.inj heq
      obtain ⟨w, hw, hconforms⟩ := hhead
      obtain rfl := Option.some.inj (hw.symm.trans ((Sorted.lookup_eq_some ha).2 hv))
      exact proper_of_conforms hconforms (hd.1 _ hv) (hr _ hv)
    · exact proper_of_components ha hrest hd.2 hr n t v ht hv

end

end CellAbi.Value
