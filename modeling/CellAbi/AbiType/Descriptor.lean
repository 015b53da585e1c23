import CellAbi.Error
import CellAbi.Text.Blank
import CellAbi.Text.Numeral

/-!
# Descriptors

Reading a type from its descriptor and the components that belong to the innermost tuple.  The
outermost level of a descriptor is recognized first (`Form`); its parts are shorter descriptors.
-/

namespace CellAbi

/-- What a descriptor says at its outermost level. -/
inductive Form where
  | array (element : List Char)
  | optional (inner : List Char)
  | map (key value : List Char)
  | tuple
  /-- A type without parts. -/
  | plain (type : AbiType)
  | refused (cause : AbiError)

namespace Form

/-- Splits at the first comma outside of parentheses.  A parenthesis that closes nothing is passed
over. -/
def splitComma (depth : Nat) : List Char → Option (List Char × List Char)
  | [] => none
  | c :: rest =>
    if c = ',' ∧ depth = 0 then some ([], rest)
    else
      let depth := if c = '(' then depth + 1 else if c = ')' then depth - 1 else depth
      (splitComma depth rest).map fun (front, back) => (c :: front, back)

/-- The integer families: word, signedness, whether the width is variable. -/
def integerFamilies : List (String × Bool × Bool) :=
  [("varuint", false, true), ("varint", true, true), ("uint", false, false), ("int", true, false)]

/-- The widths of an integer family. -/
def integerWidth? (signed var : Bool) (n : Nat) : Option IntWidth :=
  if var then if n = 16 ∨ n = 32 then some (.var n) else none
  else if 1 ≤ n ∧ n ≤ (if signed then 257 else 256) then some (.fixed n)
  else none

/-- The first family whose word the descriptor starts with, and what follows the word. -/
def integerFamily? (d : List Char) : Option (Bool × Bool × List Char) :=
  integerFamilies.findSome? fun (word, signed, var) =>
    (word.toList.isPrefixOf? d).map fun digits => (signed, var, digits)

/-- An integer type, if the descriptor starts with the word of a family. -/
def integer? (d : List Char) : Option Form :=
  (integerFamily? d).map fun (signed, var, digits) =>
    match (Text.natural? digits).bind (integerWidth? signed var) with
    | some width => plain (.integer signed width)
    | none => refused (.unsupportedType (String.ofList d))

/-- The types that a word alone denotes. -/
def words : List (String × AbiType) :=
  [("bool", .bool), ("string", .string), ("cell", .cell), ("address", .address false),
    ("address_std", .address true), ("bytes", .bytes none)]

def word? (d : List Char) : Option Form := (words.lookup (String.ofList d)).map plain

/-- Byte strings of 1 to 32 bytes. -/
def fixedBytes? (d : List Char) : Option Form :=
  ("fixedbytes".toList.isPrefixOf? d).map fun digits =>
    match Text.natural? digits with
    | some n =>
      if 1 ≤ n ∧ n ≤ 32 then plain (.bytes (some n))
      else refused (.unsupportedType (String.ofList d))
    | none => refused (.unsupportedType (String.ofList d))

def array? (d : List Char) : Option Form := ("[]".toList.isSuffixOf? d).map array

def optional? (d : List Char) : Option Form :=
  ("optional(".toList.isPrefixOf? d).map fun rest =>
    match [')'].isSuffixOf? rest with
    | some inner => optional inner
    | none => refused (.unsupportedType (String.ofList d))

def map? (d : List Char) : Option Form :=
  ("map(".toList.isPrefixOf? d).map fun rest =>
    match ([')'].isSuffixOf? rest).bind (splitComma 0) with
    | some (key, value) => map key value
    | none => refused (.malformedMap (String.ofList d))

def tuple? (d : List Char) : Option Form := if d = "tuple".toList then some tuple else none

/-- The outermost level of a trimmed descriptor. -/
def of (d : List Char) : Form :=
  (array? d <|> optional? d <|> integer? d <|> word? d <|> fixedBytes? d <|> map? d <|>
    tuple? d).getD (refused (.unsupportedType (String.ofList d)))

/-! ## Parts are shorter -/

theorem length_of_isPrefixOf? {p d rest : List Char} (h : p.isPrefixOf? d = some rest) :
    d.length = p.length + rest.length := by
  induction p generalizing d with
  | nil =>
    obtain rfl : d = rest := Option.some.inj h
    exact (Nat.zero_add _).symm
  | cons c p ih =>
    cases d with
    | nil => cases h
    | cons x d =>
      have hc : (if c == x then p.isPrefixOf? d else none) = some rest := h
      split at hc
      · have := ih hc
        simp only [List.length_cons]
        omega
      · cases hc

theorem length_of_isSuffixOf? {p d rest : List Char} (h : p.isSuffixOf? d = some rest) :
    d.length = p.length + rest.length := by
  have hback : (p.reverse.isPrefixOf? d.reverse).map List.reverse = some rest := h
  obtain ⟨r, hr, rfl⟩ := Option.map_eq_some_iff.1 hback
  simpa using length_of_isPrefixOf? hr

theorem length_of_splitComma {d front back : List Char} :
    ∀ {depth}, splitComma depth d = some (front, back) →
      d.length = front.length + back.length + 1 := by
  induction d generalizing front back with
  | nil => intro depth h; simp [splitComma] at h
  | cons c d ih =>
    intro depth h
    simp only [splitComma] at h
    split at h
    · simp only [Option.some.injEq, Prod.mk.injEq] at h
      obtain ⟨rfl, rfl⟩ := h
      simp
    · simp only [Option.map_eq_some_iff, Prod.mk.injEq, Prod.exists] at h
      obtain ⟨f, b, h, rfl, rfl⟩ := h
      have := ih h
      simp only [List.length_cons]
      omega

/-- The sum of the lengths of the parts is below the length of the descriptor. -/
def partsLength : Form → Nat
  | array element => element.length + 1
  | optional inner => inner.length + 1
  | map key value => key.length + value.length + 1
  | _ => 0

/-- Every form that `o` may yield has parts that are shorter than `d`. -/
def Bounded (d : List Char) (o : Option Form) : Prop :=
  ∀ f, o = some f → f.partsLength ≤ d.length

theorem Bounded.orElse {d : List Char} {o p : Option Form} (ho : Bounded d o) (hp : Bounded d p) :
    Bounded d (o <|> p) := by
  intro f h
  cases o with
  | some g => exact ho f h
  | none => exact hp f h

theorem bounded_array? (d : List Char) : Bounded d (array? d) := by
  intro f hf
  obtain ⟨rest, h, rfl⟩ := Option.map_eq_some_iff.1 hf
  have := length_of_isSuffixOf? h
  simp [partsLength] at *
  omega

theorem bounded_optional? (d : List Char) : Bounded d (optional? d) := by
  intro f hf
  obtain ⟨rest, h, rfl⟩ := Option.map_eq_some_iff.1 hf
  have := length_of_isPrefixOf? h
  split
  · next h =>
    have := length_of_isSuffixOf? h
    simp [partsLength] at *
    omega
  · exact Nat.zero_le _

theorem bounded_integer? (d : List Char) : Bounded d (integer? d) := by
  intro f hf
  obtain ⟨⟨signed, var, digits⟩, _, rfl⟩ := Option.map_eq_some_iff.1 hf
  simp only
  split <;> exact Nat.zero_le _

theorem bounded_word? (d : List Char) : Bounded d (word? d) := by
  intro f hf
  obtain ⟨_, _, rfl⟩ := Option.map_eq_some_iff.1 hf
  exact Nat.zero_le _

theorem bounded_fixedBytes? (d : List Char) : Bounded d (fixedBytes? d) := by
  intro f hf
  obtain ⟨_, _, rfl⟩ := Option.map_eq_some_iff.1 hf
  split
  · split <;> exact Nat.zero_le _
  · exact Nat.zero_le _

theorem bounded_map? (d : List Char) : Bounded d (map? d) := by
  intro f hf
  obtain ⟨rest, h, rfl⟩ := Option.map_eq_some_iff.1 hf
  have := length_of_isPrefixOf? h
  split
  · next h =>
    obtain ⟨inner, hs, hc⟩ := Option.bind_eq_some_iff.1 h
    have := length_of_isSuffixOf? hs
    have := length_of_splitComma hc
    simp [partsLength] at *
    omega
  · exact Nat.zero_le _

theorem bounded_tuple? (d : List Char) : Bounded d (tuple? d) := by
  intro f h
  simp only [tuple?] at h
  split at h
  · obtain rfl := Option.some.inj h
    exact Nat.zero_le _
  · simp at h

theorem partsLength_of (d : List Char) : (of d).partsLength ≤ d.length := by
  have h := (bounded_array? d).orElse ((bounded_optional? d).orElse ((bounded_integer? d).orElse
    ((bounded_word? d).orElse ((bounded_fixedBytes? d).orElse ((bounded_map? d).orElse
      (bounded_tuple? d))))))
  unfold of
  generalize (array? d <|> optional? d <|> integer? d <|> word? d <|> fixedBytes? d <|> map? d <|>
    tuple? d) = o at h
  cases o with
  | some f => exact h f rfl
  | none => exact Nat.zero_le _

theorem length_trim_le (d : List Char) : (Text.trim d).length ≤ d.length := by
  have h := ((d.dropWhile Text.isBlank).reverse.dropWhile_suffix Text.isBlank).length_le
  have h' := (d.dropWhile_suffix Text.isBlank).length_le
  simp only [List.length_reverse] at h
  simp only [Text.trim, List.length_reverse]
  omega

end Form

namespace AbiType

mutual

/-- Reads a descriptor.  Keys of maps have no components; the value of a map takes those of the
map. -/
def ofDescriptor (d : List Char) (components : Option (List Param)) : Except AbiError AbiType :=
  have hlen := Nat.le_trans (Form.partsLength_of (Text.trim d)) (Form.length_trim_le d)
  match hd : Form.of (Text.trim d) with
  | .array element => do
    have : element.length < d.length := by simp [hd, Form.partsLength] at hlen; omega
    return array (← ofDescriptor element components)
  | .optional inner => do
    have : inner.length < d.length := by simp [hd, Form.partsLength] at hlen; omega
    return optional (← ofDescriptor inner components)
  | .map key value => do
    have : key.length < d.length := by simp [hd, Form.partsLength] at hlen; omega
    have : value.length < d.length := by simp [hd, Form.partsLength] at hlen; omega
    let key ← ofDescriptor key none
    if !key.isScalarKey then throw (.unsupportedMapKey key.toText)
    return map key (← ofDescriptor value components)
  | .tuple =>
    match components with
    | none | some [] => throw (.missingComponents (String.ofList (Text.trim d)))
    | some (p :: ps) => return tuple (← ofParams (p :: ps))
  | .plain type => return type
  | .refused cause => throw cause
termination_by (sizeOf components, d.length)
decreasing_by
  all_goals simp_wf
  · omega
  · omega
  · rcases components with _ | cs
    · exact .right _ (by omega)
    · have : 0 < sizeOf cs := by cases cs <;> simp +arith
      exact .left _ _ (by simp; omega)
  · omega
  · exact .left _ _ (by omega)

/-- Reads the components of a tuple. -/
def ofParams : List Param → Except AbiError (List (String × AbiType))
  | [] => return []
  | p :: ps => do
    let type ← ofDescriptor p.type.toList p.components
    return (p.name, type) :: (← ofParams ps)
termination_by ps => (sizeOf ps, 0)
decreasing_by
  all_goals simp_wf
  · have : sizeOf p.components < sizeOf p := by cases p; simp; omega
    exact .left _ _ (by omega)
  · exact .left _ _ (by omega)

end

/-- Reads a type from its descriptor and the components of its innermost tuple. -/
def parse (descriptor : String) (components : Option (List Param)) : Except AbiError AbiType :=
  ofDescriptor descriptor.toList components

end AbiType

/-- The type of a parameter. -/
def Param.abiType (p : Param) : Except AbiError AbiType := AbiType.parse p.type p.components

end CellAbi
