import CellAbi.AbiType.Descriptor
import CellAbi.Proofs.Text.Affix
import CellAbi.Proofs.Text.Integer

/-!
# The grammar of descriptors

A descriptor is a type text with blanks around it, and so is every descriptor inside of it:

    D ::= blank* T blank*
    T ::= D '[]' | 'optional(' D ')' | 'map(' K ',' D ')' | scalar | 'tuple'
    K ::= blank* key-scalar blank*

The components of the word `tuple` stand beside the text.  The rules say which type a descriptor
denotes (`Denotes`).  At the outermost level, the form of a descriptor is that of its rule.  The
search for the comma behind a key passes over whole descriptors.

    (Form.of d).Describes d                                                         (`describes_of`)
    Form.of (d ++ "[]".toList) = .array d                                         (`of_array`, …)
    Denotes components d type → Form.Passes 0 d                                   (`Denotes.passes`)
-/

namespace CellAbi

open Text

namespace Grammar

/-- A non-empty run of decimal digits with the value `n`, with leading zeros or without. -/
def Numeral (digits : List Char) (n : Nat) : Prop :=
  digits ≠ [] ∧ (∀ c ∈ digits, c.isDigit = true) ∧ Nat.ofDigitChars 10 digits 0 = n

/-- The types without parts. -/
inductive Scalar : List Char → AbiType → Prop
  | int {digits : List Char} {n : Nat} (hn : Numeral digits n) (h : 1 ≤ n ∧ n ≤ 257) :
    Scalar ("int".toList ++ digits) (.integer true (.fixed n))
  | uint {digits : List Char} {n : Nat} (hn : Numeral digits n) (h : 1 ≤ n ∧ n ≤ 256) :
    Scalar ("uint".toList ++ digits) (.integer false (.fixed n))
  | varint {digits : List Char} {n : Nat} (hn : Numeral digits n) (h : n = 16 ∨ n = 32) :
    Scalar ("varint".toList ++ digits) (.integer true (.var n))
  | varuint {digits : List Char} {n : Nat} (hn : Numeral digits n) (h : n = 16 ∨ n = 32) :
    Scalar ("varuint".toList ++ digits) (.integer false (.var n))
  | fixedBytes {digits : List Char} {n : Nat} (hn : Numeral digits n) (h : 1 ≤ n ∧ n ≤ 32) :
    Scalar ("fixedbytes".toList ++ digits) (.bytes (some n))
  | bool : Scalar "bool".toList .bool
  | string : Scalar "string".toList .string
  | cell : Scalar "cell".toList .cell
  | address : Scalar "address".toList (.address false)
  | standardAddress : Scalar "address_std".toList (.address true)
  | bytes : Scalar "bytes".toList (.bytes none)

/-- Keys of maps: scalars other than cells, with blanks around them. -/
inductive Key : List Char → AbiType → Prop
  | padded {front core back : List Char} {key : AbiType} (hfront : Blank front)
    (hback : Blank back) (h : Scalar core key) (hcell : key ≠ .cell) :
    Key (front ++ core ++ back) key

mutual

/-- The descriptor is one of the type, with these components for the word `tuple`. -/
inductive Denotes : Option (List Param) → List Char → AbiType → Prop
  | padded {components : Option (List Param)} {front core back : List Char} {type : AbiType}
    (hfront : Blank front) (hback : Blank back) (h : Bare components core type) :
    Denotes components (front ++ core ++ back) type

/-- The text is one of the type, without the blanks of the outermost level. -/
inductive Bare : Option (List Param) → List Char → AbiType → Prop
  | array {components : Option (List Param)} {d : List Char} {element : AbiType}
    (h : Denotes components d element) : Bare components (d ++ "[]".toList) (.array element)
  | optional {components : Option (List Param)} {d : List Char} {inner : AbiType}
    (h : Denotes components d inner) :
    Bare components ("optional(".toList ++ d ++ ")".toList) (.optional inner)
  | map {components : Option (List Param)} {k d : List Char} {key value : AbiType}
    (hkey : Key k key) (hvalue : Denotes components d value) :
    Bare components ("map(".toList ++ (k ++ ",".toList ++ d) ++ ")".toList) (.map key value)
  | scalar {components : Option (List Param)} {d : List Char} {type : AbiType} (h : Scalar d type) :
    Bare components d type
  | tuple {p : Param} {ps : List Param} {components : List (String × AbiType)}
    (h : Components (p :: ps) components) :
    Bare (some (p :: ps)) "tuple".toList (.tuple components)

/-- The descriptors of the parameters, each with components of its own, are those of the types. -/
inductive Components : List Param → List (String × AbiType) → Prop
  | nil : Components [] []
  | cons {p : Param} {ps : List Param} {type : AbiType} {rest : List (String × AbiType)}
    (h : Denotes p.components p.type.toList type) (hrest : Components ps rest) :
    Components (p :: ps) ((p.name, type) :: rest)

end

end Grammar

open Grammar

/-! ## What the outermost level says -/

namespace Form

variable {d : List Char}

theorem eq_of_splitComma {front back : List Char} :
    ∀ {depth}, splitComma depth d = some (front, back) → d = front ++ ",".toList ++ back := by
  induction d generalizing front back with
  | nil => intro depth h; cases h
  | cons c d ih =>
    intro depth h
    rw [splitComma] at h
    split at h
    · next hc =>
      cases h
      rw [hc.1]
      rfl
    · obtain ⟨⟨f, b⟩, hsplit, h⟩ := Option.map_eq_some_iff.1 h
      cases h
      rw [ih hsplit]
      rfl

/-- At this depth and at greater ones, the search for a comma passes over the text. -/
def Passes (least : Nat) (d : List Char) : Prop :=
  ∀ depth rest, least ≤ depth → splitComma depth (d ++ rest) =
    (splitComma depth rest).map fun (front, back) => (d ++ front, back)

theorem Passes.append {least : Nat} {d' : List Char} (h : Passes least d) (h' : Passes least d') :
    Passes least (d ++ d') := by
  intro depth rest hdepth
  rw [List.append_assoc, h depth _ hdepth, h' depth rest hdepth, Option.map_map]
  refine congrArg (Option.map · (splitComma depth rest)) (funext fun parts => ?_)
  exact congrArg (·, parts.2) (List.append_assoc d d' parts.1).symm

theorem Passes.mono {least more : Nat} (h : Passes least d) (hle : least ≤ more) : Passes more d :=
  fun depth rest hdepth => h depth rest (Nat.le_trans hle hdepth)

theorem passes_of_plain {least : Nat} (h : ∀ c ∈ d, c ≠ '(' ∧ c ≠ ')' ∧ c ≠ ',') :
    Passes least d := by
  intro depth rest hdepth
  induction d with
  | nil => exact Option.map_id'.symm
  | cons c d ih =>
    obtain ⟨⟨hopen, hclose, hcomma⟩, hrest⟩ := List.forall_mem_cons.1 h
    rw [List.cons_append, splitComma, if_neg fun hc => hcomma hc.1]
    simp only [if_neg hopen, if_neg hclose, ih hrest, Option.map_map]
    rfl

/-- Commas inside of parentheses are passed over. -/
theorem passes_comma : Passes 1 ",".toList := by
  intro depth rest hdepth
  show splitComma depth (',' :: rest) = _
  rw [splitComma, if_neg fun hc => Nat.ne_of_gt hdepth hc.2]
  rfl

theorem Passes.enclosed (h : Passes 1 d) : Passes 0 ("(".toList ++ d ++ ")".toList) := by
  intro depth rest _
  rw [List.append_assoc, List.append_assoc]
  show splitComma depth ('(' :: (d ++ (')' :: rest))) = _
  rw [splitComma, if_neg fun hc => absurd hc.1 (by decide)]
  show (splitComma (depth + 1) (d ++ (')' :: rest))).map _ = _
  rw [h (depth + 1) _ (Nat.le_add_left 1 depth), splitComma,
    if_neg fun hc => absurd hc.1 (by decide)]
  show (((splitComma depth rest).map _).map _).map _ = _
  rw [Option.map_map, Option.map_map]
  refine congrArg (Option.map · (splitComma depth rest)) (funext fun parts => ?_)
  show _ = ('(' :: ((d ++ [')']) ++ parts.1), parts.2)
  rw [List.append_assoc]
  rfl

/-- A comma behind a text that is passed over splits right there. -/
theorem Passes.splitComma_eq (h : Passes 0 d) (back : List Char) :
    splitComma 0 (d ++ ",".toList ++ back) = some (d, back) := by
  rw [List.append_assoc, h 0 _ (Nat.le_refl 0)]
  show some (d ++ [], back) = _
  rw [List.append_nil]

/-- What a form says of the descriptor that it was read from. -/
def Describes (d : List Char) : Form → Prop
  | array element => d = element ++ "[]".toList
  | optional inner => d = "optional(".toList ++ inner ++ ")".toList
  | map key value => d = "map(".toList ++ (key ++ ",".toList ++ value) ++ ")".toList
  | tuple => d = "tuple".toList
  | plain type => Scalar d type
  | refused cause => cause.isDescriptorError = true

/-- Every form that `o` may yield describes `d`. -/
def Sound (d : List Char) (o : Option Form) : Prop := ∀ f, o = some f → f.Describes d

theorem Sound.orElse {o p : Option Form} (ho : Sound d o) (hp : Sound d p) : Sound d (o <|> p) := by
  intro f h
  cases o with
  | some g => exact ho f h
  | none => exact hp f h

theorem numeral_iff {digits : List Char} {n : Nat} :
    natural? digits = some n ↔ Numeral digits n := by
  unfold natural? Numeral
  rw [Option.ite_none_right_eq_some, Option.some.injEq, List.all_eq_true, and_assoc]

theorem sound_array? (d : List Char) : Sound d (array? d) := by
  intro f hf
  obtain ⟨rest, h, rfl⟩ := Option.map_eq_some_iff.1 hf
  exact isSuffixOf?_eq_some.1 h

theorem sound_optional? (d : List Char) : Sound d (optional? d) := by
  intro f hf
  obtain ⟨rest, h, rfl⟩ := Option.map_eq_some_iff.1 hf
  split
  · next inner hinner =>
    show d = _
    rw [isPrefixOf?_eq_some.1 h, isSuffixOf?_eq_some.1 hinner, List.append_assoc]
    rfl
  · rfl

theorem integerWidth?_var {signed : Bool} {n : Nat} {width : IntWidth} :
    integerWidth? signed true n = some width ↔ (n = 16 ∨ n = 32) ∧ .var n = width := by
  rw [integerWidth?, if_pos rfl, Option.ite_none_right_eq_some, Option.some_inj]

theorem integerWidth?_fixed {signed : Bool} {n : Nat} {width : IntWidth} :
    integerWidth? signed false n = some width ↔
      (1 ≤ n ∧ n ≤ if signed then 257 else 256) ∧ .fixed n = width := by
  rw [integerWidth?, if_neg Bool.false_ne_true, Option.ite_none_right_eq_some, Option.some_inj]

/-- The four families, each with its widths. -/
theorem scalar_of_integerFamily? {signed var : Bool} {digits : List Char} {n : Nat}
    {width : IntWidth} (hfamily : integerFamily? d = some (signed, var, digits))
    (hn : Numeral digits n) (hwidth : integerWidth? signed var n = some width) :
    Scalar d (.integer signed width) := by
  obtain ⟨⟨word, s, v⟩, hmem, h⟩ := List.exists_of_findSome?_eq_some hfamily
  obtain ⟨rest, hprefix, h⟩ := Option.map_eq_some_iff.1 h
  cases h
  rw [isPrefixOf?_eq_some.1 hprefix]
  simp only [integerFamilies, List.mem_cons, Prod.mk.injEq, List.not_mem_nil, or_false] at hmem
  rcases hmem with ⟨rfl, rfl, rfl⟩ | ⟨rfl, rfl, rfl⟩ | ⟨rfl, rfl, rfl⟩ | ⟨rfl, rfl, rfl⟩
  · obtain ⟨hn', rfl⟩ := integerWidth?_var.1 hwidth
    exact .varuint hn hn'
  · obtain ⟨hn', rfl⟩ := integerWidth?_var.1 hwidth
    exact .varint hn hn'
  · obtain ⟨hn', rfl⟩ := integerWidth?_fixed.1 hwidth
    exact .uint hn hn'
  · obtain ⟨hn', rfl⟩ := integerWidth?_fixed.1 hwidth
    exact .int hn hn'

theorem sound_integer? (d : List Char) : Sound d (integer? d) := by
  intro f hf
  obtain ⟨⟨signed, var, digits⟩, hfamily, rfl⟩ := Option.map_eq_some_iff.1 hf
  simp only
  split
  · next width hwidth =>
    obtain ⟨n, hn, hwidth⟩ := Option.bind_eq_some_iff.1 hwidth
    exact scalar_of_integerFamily? hfamily (numeral_iff.1 hn) hwidth
  · rfl

theorem sound_word? (d : List Char) : Sound d (word? d) := by
  intro f hf
  obtain ⟨type, hword, rfl⟩ := Option.map_eq_some_iff.1 hf
  obtain ⟨before, behind, hwords, -⟩ := List.lookup_eq_some_iff.1 hword
  have hmem : (String.ofList d, type) ∈ words := by
    rw [hwords]
    exact List.mem_append_right _ List.mem_cons_self
  show Scalar d type
  rw [← String.toList_ofList (l := d)]
  generalize String.ofList d = word at hmem
  simp only [words, List.mem_cons, Prod.mk.injEq, List.not_mem_nil, or_false] at hmem
  rcases hmem with ⟨rfl, rfl⟩ | ⟨rfl, rfl⟩ | ⟨rfl, rfl⟩ | ⟨rfl, rfl⟩ | ⟨rfl, rfl⟩ | ⟨rfl, rfl⟩
  · exact .bool
  · exact .string
  · exact .cell
  · exact .address
  · exact .standardAddress
  · exact .bytes

theorem sound_fixedBytes? (d : List Char) : Sound d (fixedBytes? d) := by
  intro f hf
  obtain ⟨digits, h, rfl⟩ := Option.map_eq_some_iff.1 hf
  split
  · next n hn =>
    split
    · next hrange =>
      show Scalar d _
      rw [isPrefixOf?_eq_some.1 h]
      exact .fixedBytes (numeral_iff.1 hn) hrange
    · rfl
  · rfl

theorem sound_map? (d : List Char) : Sound d (map? d) := by
  intro f hf
  obtain ⟨rest, h, rfl⟩ := Option.map_eq_some_iff.1 hf
  split
  · next key value hparts =>
    obtain ⟨inner, hinner, hsplit⟩ := Option.bind_eq_some_iff.1 hparts
    show d = _
    rw [isPrefixOf?_eq_some.1 h, isSuffixOf?_eq_some.1 hinner, eq_of_splitComma hsplit]
    simp only [List.append_assoc]
    rfl
  · rfl

theorem sound_tuple? (d : List Char) : Sound d (tuple? d) := by
  intro f h
  obtain ⟨hd, h⟩ := Option.ite_none_right_eq_some.1 h
  cases h
  exact hd

theorem describes_of (d : List Char) : (of d).Describes d := by
  have h := (sound_array? d).orElse ((sound_optional? d).orElse ((sound_integer? d).orElse
    ((sound_word? d).orElse ((sound_fixedBytes? d).orElse ((sound_map? d).orElse
      (sound_tuple? d))))))
  unfold of
  generalize (array? d <|> optional? d <|> integer? d <|> word? d <|> fixedBytes? d <|> map? d <|>
    tuple? d) = o at h
  cases o with
  | some f => exact h f rfl
  | none => rfl

end Form

/-! ## What the grammar derives is recognized -/

namespace Grammar

/-- A character that is neither blank nor one of those that hold descriptors together. -/
def isSolid (c : Char) : Bool := !isBlank c && c != '(' && c != ')' && c != ',' && c != ']'

theorem isSolid_iff {c : Char} :
    isSolid c = true ↔ isBlank c = false ∧ c ≠ '(' ∧ c ≠ ')' ∧ c ≠ ',' ∧ c ≠ ']' := by
  simp only [isSolid, Bool.and_eq_true, Bool.not_eq_true', bne_iff_ne, and_assoc]

theorem isSolid_of_isDigit {c : Char} (h : c.isDigit = true) : isSolid c = true :=
  isSolid_iff.2 ⟨not_isBlank_of_isDigit h, ne_of_isDigit h rfl, ne_of_isDigit h rfl,
    ne_of_isDigit h rfl, ne_of_isDigit h rfl⟩

variable {d : List Char} {type : AbiType}

theorem Numeral.solid_append {word digits : List Char} {n : Nat} (hn : Numeral digits n)
    (hword : word.all isSolid = true) : ∀ c ∈ word ++ digits, isSolid c = true :=
  List.forall_mem_append.2 ⟨List.all_eq_true.1 hword, fun c hc => isSolid_of_isDigit (hn.2.1 c hc)⟩

theorem Scalar.solid (h : Scalar d type) : ∀ c ∈ d, isSolid c = true := by
  cases h with
  | int hn => exact hn.solid_append rfl
  | uint hn => exact hn.solid_append rfl
  | varint hn => exact hn.solid_append rfl
  | varuint hn => exact hn.solid_append rfl
  | fixedBytes hn => exact hn.solid_append rfl
  | bool => exact List.all_eq_true.1 rfl
  | string => exact List.all_eq_true.1 rfl
  | cell => exact List.all_eq_true.1 rfl
  | address => exact List.all_eq_true.1 rfl
  | standardAddress => exact List.all_eq_true.1 rfl
  | bytes => exact List.all_eq_true.1 rfl

theorem Scalar.trim_eq (h : Scalar d type) : trim d = d :=
  trim_eq_self fun c hc => (isSolid_iff.1 (h.solid c hc)).1

theorem Scalar.isScalarKey (h : Scalar d type) (hcell : type ≠ .cell) :
    type.isScalarKey = true := by
  cases h with
  | cell => exact absurd rfl hcell
  | _ => rfl

theorem passes_of_blank {least : Nat} (h : Blank d) : Form.Passes least d := by
  refine Form.passes_of_plain fun c hc => ?_
  have hblank := h c hc
  refine ⟨?_, ?_, ?_⟩ <;> rintro rfl <;> revert hblank <;> decide

theorem Scalar.passes {least : Nat} (h : Scalar d type) : Form.Passes least d := by
  refine Form.passes_of_plain fun c hc => ?_
  obtain ⟨-, hopen, hclose, hcomma, -⟩ := isSolid_iff.1 (h.solid c hc)
  exact ⟨hopen, hclose, hcomma⟩

theorem Key.passes {least : Nat} {k : List Char} {key : AbiType} (h : Key k key) :
    Form.Passes least k := by
  cases h with
  | padded hfront hback h =>
    exact ((passes_of_blank hfront).append h.passes).append (passes_of_blank hback)

mutual

/-- No comma of a descriptor stands outside of parentheses. -/
theorem Denotes.passes : ∀ {components d type}, Denotes components d type → Form.Passes 0 d
  | _, _, _, .padded hfront hback h =>
    ((passes_of_blank hfront).append h.passes).append (passes_of_blank hback)

theorem Bare.passes : ∀ {components d type}, Bare components d type → Form.Passes 0 d
  | _, _, _, .array h => h.passes.append (Form.passes_of_plain (by decide))
  | _, _, _, .optional (d := d) h => by
    have hword : Form.Passes 0 "optional".toList := Form.passes_of_plain (by decide)
    exact hword.append (h.passes.mono (Nat.zero_le 1)).enclosed
  | _, _, _, .map hkey hvalue => by
    have hword : Form.Passes 0 "map".toList := Form.passes_of_plain (by decide)
    have hvalue := hvalue.passes.mono (Nat.zero_le 1)
    exact hword.append ((hkey.passes.append Form.passes_comma).append hvalue).enclosed
  | _, _, _, .scalar h => h.passes
  | _, _, _, .tuple _ => Form.passes_of_plain (by decide)

end

end Grammar

namespace Form

variable {d : List Char}

theorem array?_eq_none {c : Char} (h : d.getLast? = some c) (hc : c ≠ ']') : array? d = none := by
  rw [array?, isSuffixOf?_eq_none h (show "[]".toList.getLast? = some ']' by decide) hc]
  rfl

theorem word?_eq_none {c : Char} (h : d.head? = some c)
    (hc : ∀ e ∈ words, e.1.toList.head? ≠ some c) : word? d = none := by
  rw [word?, List.lookup_eq_none_iff.2]
  · rfl
  · intro e he
    refine bne_iff_ne.2 fun heq => hc e he ?_
    rw [← heq, String.toList_ofList, h]

theorem of_array (d : List Char) : of (d ++ "[]".toList) = array d := by
  have harray : array? (d ++ "[]".toList) = some (array d) := by
    rw [array?, isSuffixOf?_eq_some.2 rfl]
    rfl
  rw [of, harray]
  rfl

theorem of_optional (inner : List Char) :
    of ("optional(".toList ++ inner ++ ")".toList) = optional inner := by
  have harray : array? ("optional(".toList ++ inner ++ ")".toList) = none :=
    array?_eq_none (c := ')') (by rw [List.getLast?_append]; rfl) (by decide)
  have hoptional : optional? ("optional(".toList ++ inner ++ ")".toList) =
      some (optional inner) := by
    have hsuffix : [')'].isSuffixOf? (inner ++ ")".toList) = some inner :=
      isSuffixOf?_eq_some.2 rfl
    rw [optional?, List.append_assoc, isPrefixOf?_eq_some.2 rfl, Option.map_some, hsuffix]
  rw [of, harray, hoptional]
  rfl

theorem of_map {k : List Char} (hk : Passes 0 k) (value : List Char) :
    of ("map(".toList ++ (k ++ ",".toList ++ value) ++ ")".toList) = map k value := by
  generalize hinner : k ++ ",".toList ++ value = inner
  have harray : array? ("map(".toList ++ inner ++ ")".toList) = none :=
    array?_eq_none (c := ')') (by rw [List.getLast?_append]; rfl) (by decide)
  have hword : word? ("map(".toList ++ inner ++ ")".toList) = none :=
    word?_eq_none (c := 'm') rfl (by decide)
  have hmap : map? ("map(".toList ++ inner ++ ")".toList) = some (map k value) := by
    have hsuffix : [')'].isSuffixOf? (inner ++ ")".toList) = some inner :=
      isSuffixOf?_eq_some.2 rfl
    rw [map?, List.append_assoc, isPrefixOf?_eq_some.2 rfl, Option.map_some, hsuffix,
      Option.bind_some, ← hinner, hk.splitComma_eq]
  rw [of, harray, hword, hmap]
  rfl

theorem integer?_eq {signed var : Bool} {digits : List Char} {n : Nat} {width : IntWidth}
    (hfamily : integerFamily? d = some (signed, var, digits)) (hn : Numeral digits n)
    (hwidth : integerWidth? signed var n = some width) :
    integer? d = some (plain (.integer signed width)) := by
  rw [integer?, hfamily, Option.map_some]
  dsimp only
  rw [numeral_iff.2 hn, Option.bind_some, hwidth]

theorem of_integer {signed var : Bool} {digits : List Char} {n : Nat} {width : IntWidth}
    (harray : array? d = none) (hoptional : optional? d = none)
    (hfamily : integerFamily? d = some (signed, var, digits)) (hn : Numeral digits n)
    (hwidth : integerWidth? signed var n = some width) :
    of d = plain (.integer signed width) := by
  rw [of, harray, hoptional, integer?_eq hfamily hn hwidth]
  rfl

theorem of_scalar {type : AbiType} (h : Scalar d type) : of d = plain type := by
  have harray : array? d = none := by
    cases hlast : d.getLast? with
    | none =>
      rw [List.getLast?_eq_none_iff.1 hlast]
      rfl
    | some c =>
      obtain ⟨-, -, -, -, hc⟩ := isSolid_iff.1 (h.solid c (List.mem_of_getLast? hlast))
      exact array?_eq_none hlast hc
  cases h with
  | int hn h => exact of_integer harray rfl rfl hn (integerWidth?_fixed.2 ⟨h, rfl⟩)
  | uint hn h => exact of_integer harray rfl rfl hn (integerWidth?_fixed.2 ⟨h, rfl⟩)
  | varint hn h => exact of_integer harray rfl rfl hn (integerWidth?_var.2 ⟨h, rfl⟩)
  | varuint hn h => exact of_integer harray rfl rfl hn (integerWidth?_var.2 ⟨h, rfl⟩)
  | @fixedBytes digits n hn h =>
    have hword : word? ("fixedbytes".toList ++ digits) = none :=
      word?_eq_none (c := 'f') rfl (by decide)
    have hbytes : fixedBytes? ("fixedbytes".toList ++ digits) = some (plain (.bytes (some n))) := by
      rw [fixedBytes?, isPrefixOf?_eq_some.2 rfl, Option.map_some, numeral_iff.2 hn]
      exact congrArg some (if_pos h)
    rw [of, harray, hword, hbytes]
    rfl
  | bool => rfl
  | string => rfl
  | cell => rfl
  | address => rfl
  | standardAddress => rfl
  | bytes => rfl

end Form

end CellAbi
