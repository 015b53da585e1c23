import CellAbi.Json.Document
import CellAbi.Json.Printer
import CellAbi.Proofs.Text.Numeral

/-!
# Reading what was printed

A value without doubles is printed as a text from which the same parts are read again, one for one.
Numbers need what follows them to end them; every other value ends by itself.

    value? (fuel + 1) ((toString i).toList ++ rest) = some (.number (some (.integer i)), rest)
                                         for integers of 64 bits                 (`value?_toString`)
    string? (text.toList.flatMap Json.escape ++ '"' :: rest) = some (some text, rest)
                                                                                (`string?_quoted`)
    parse? j.compact = some j.toDocument    for exact values                     (`parse?_compact`)
-/

namespace CellAbi

/-- An integer of 64 bits, with a sign or without. -/
def IsWord64 (i : Int) : Prop := -2 ^ 63 ≤ i ∧ i < 2 ^ 64

namespace Json

mutual

/-- The document that the value is printed as. -/
def toDocument : Json → Document
  | null => .null
  | bool value => .bool value
  | number value => .number (some value)
  | string text => .string (some text)
  | array items => .array (itemsToDocuments items)
  | object members => .object (membersToDocuments members)

def itemsToDocuments : List Json → List Document
  | [] => []
  | item :: rest => toDocument item :: itemsToDocuments rest

def membersToDocuments : List (String × Json) → List (Option String × Document)
  | [] => []
  | (name, value) :: rest => (some name, toDocument value) :: membersToDocuments rest

end

/-- All numbers are integers of 64 bits, and members are in order. -/
inductive IsExact : Json → Prop where
  | null : IsExact null
  | bool (value : Bool) : IsExact (bool value)
  | integer {value : Int} (h : IsWord64 value) : IsExact (number (.integer value))
  | string (text : String) : IsExact (string text)
  | array {items : List Json} (h : ∀ item ∈ items, IsExact item) : IsExact (array items)
  | object {members : List (String × Json)} (hascending : Sorted.Ascending members)
    (h : ∀ m ∈ members, IsExact m.2) : IsExact (object members)

end Json

namespace Document

open Text

/-! ## Numbers -/

theorem le_ofDigitChars (n : Nat) (digits : List Char) : n ≤ Nat.ofDigitChars 10 digits n := by
  induction digits generalizing n with
  | nil => exact Nat.le_of_eq Nat.ofDigitChars_nil.symm
  | cons c digits ih =>
    rw [Nat.ofDigitChars_cons]
    exact Nat.le_trans (by omega) (ih _)

/-- Digits that 64 bits can hold are all counted. -/
theorem integerDigits_eq {digits : List Char} {n : Nat}
    (h : Nat.ofDigitChars 10 digits n < wordLimit) :
    integerDigits n digits = (Nat.ofDigitChars 10 digits n, none) := by
  induction digits generalizing n with
  | nil => rw [integerDigits, Nat.ofDigitChars_nil]
  | cons c digits ih =>
    rw [Nat.ofDigitChars_cons] at h ⊢
    have hvalue : n * 10 + digitValue c = 10 * n + (c.toNat - '0'.toNat) := by
      rw [Nat.mul_comm]
      rfl
    rw [integerDigits, hvalue, if_pos (Nat.lt_of_le_of_lt (le_ofDigitChars _ _) h), ih h]

/-- No digit, point or exponent goes on from a number into the text. -/
def EndsNumber (rest : List Char) : Prop :=
  ∀ c ∈ rest.head?, c.isDigit = false ∧ c ≠ '.' ∧ c ≠ 'e' ∧ c ≠ 'E'

theorem digits?_append {digits rest : List Char} (hne : digits ≠ [])
    (hdigit : ∀ c ∈ digits, c.isDigit = true) (hrest : EndsNumber rest) :
    digits? (digits ++ rest) = some (digits, rest) := by
  have hstop : rest.takeWhile Char.isDigit = [] ∧ rest.dropWhile Char.isDigit = rest := by
    cases rest with
    | nil => exact ⟨rfl, rfl⟩
    | cons c rest =>
      have hc := (hrest c rfl).1
      exact ⟨List.takeWhile_cons_of_neg (by rw [hc]; exact Bool.false_ne_true),
        List.dropWhile_cons_of_neg (by rw [hc]; exact Bool.false_ne_true)⟩
  have htake : (digits ++ rest).takeWhile Char.isDigit = digits := by
    rw [List.takeWhile_append_of_pos hdigit, hstop.1, List.append_nil]
  have hdrop : (digits ++ rest).dropWhile Char.isDigit = rest := by
    rw [List.dropWhile_append_of_pos hdigit, hstop.2]
  rw [digits?, htake, hdrop]
  cases digits with
  | nil => exact absurd rfl hne
  | cons c digits => rfl

theorem fraction?_of_ends {rest : List Char} (hrest : EndsNumber rest) :
    fraction? rest = some (none, rest) := by
  unfold fraction?
  split
  · exact absurd rfl (hrest '.' rfl).2.1
  · rfl

theorem exponent?_of_ends {rest : List Char} (hrest : EndsNumber rest) :
    exponent? rest = some (none, rest) := by
  cases rest with
  | nil => rfl
  | cons c rest =>
    obtain ⟨-, -, he, hE⟩ := hrest c rfl
    exact if_neg (not_or.2 ⟨he, hE⟩)

/-- The digits of a number are read as the number. -/
theorem unsigned?_toDigits (negative : Bool) {n : Nat} (hn : n < wordLimit) {rest : List Char}
    (hrest : EndsNumber rest) :
    unsigned? negative (Nat.toDigits 10 n ++ rest) =
      some (.number (numberOfParts negative (Nat.toDigits 10 n) none none), rest) := by
  have hzero : ¬ ((Nat.toDigits 10 n).head? = some '0' ∧ (Nat.toDigits 10 n).length > 1) := by
    rintro ⟨hhead, hlength⟩
    obtain rfl | hpos := Nat.eq_zero_or_pos n
    · exact absurd hlength (by decide)
    · exact head_toDigits_ne hpos hhead
  rw [unsigned?, digits?_append Nat.toDigits_ne_nil (fun c hc => isDigit_of_mem hc) hrest]
  simp only [Option.bind_eq_bind, Option.bind_some, if_neg hzero, fraction?_of_ends hrest,
    exponent?_of_ends hrest]
  rfl

theorem exists_digit (n : Nat) :
    ∃ c digits, Nat.toDigits 10 n = c :: digits ∧ c.isDigit = true := by
  cases h : Nat.toDigits 10 n with
  | nil => exact absurd h Nat.toDigits_ne_nil
  | cons c digits => exact ⟨c, digits, rfl, isDigit_of_mem (h ▸ List.mem_cons_self)⟩

theorem value?_of_isDigit {c : Char} (hc : c.isDigit = true) (fuel : Nat) (rest : List Char) :
    value? (fuel + 1) (c :: rest) = unsigned? false (c :: rest) := by
  have hskip : skipBlanks (c :: rest) = c :: rest := by
    refine List.dropWhile_cons_of_neg ?_
    simp [ne_of_isDigit hc]
  rw [value?, hskip]
  split
  all_goals first
    | rfl
    | next h =>
      obtain ⟨rfl, -⟩ := List.cons.inj h
      exact absurd hc (by decide)

theorem value?_minus (fuel : Nat) (rest : List Char) :
    value? (fuel + 1) ('-' :: rest) = unsigned? true rest := rfl

theorem value?_toString {i : Int} (hi : IsWord64 i) (fuel : Nat) {rest : List Char}
    (hrest : EndsNumber rest) :
    value? (fuel + 1) ((toString i).toList ++ rest) =
      some (.number (some (.integer i)), rest) := by
  obtain ⟨hmin, hmax⟩ := hi
  cases i with
  | ofNat n =>
    have hn : n < wordLimit := by
      rw [wordLimit]
      exact Int.ofNat_lt.1 hmax
    have hparts : numberOfParts false (Nat.toDigits 10 n) none none = some (.integer n) := by
      rw [numberOfParts, integerDigits_eq (by rwa [Nat.ofDigitChars_ten_toDigits]),
        Nat.ofDigitChars_ten_toDigits]
      rfl
    rw [toList_toString_ofNat]
    obtain ⟨c, digits, hcons, hc⟩ := exists_digit n
    rw [hcons, List.cons_append, value?_of_isDigit hc, ← List.cons_append, ← hcons,
      unsigned?_toDigits false hn hrest, hparts]
    rfl
  | negSucc n =>
    have hn : n + 1 ≤ 2 ^ 63 := by omega
    have hparts : numberOfParts true (Nat.toDigits 10 (n + 1)) none none =
        some (.integer (Int.negSucc n)) := by
      have hlt : n + 1 < wordLimit := Nat.lt_of_le_of_lt hn (by decide)
      rw [numberOfParts, integerDigits_eq (by rwa [Nat.ofDigitChars_ten_toDigits]),
        Nat.ofDigitChars_ten_toDigits]
      have hsmall : ¬ (n + 1 = 0 ∨ n + 1 > 2 ^ 63) := by omega
      simp only [Bool.not_true, Bool.false_eq_true, if_false, if_neg hsmall]
      rfl
    rw [toList_toString_negSucc, List.cons_append, value?_minus,
      unsigned?_toDigits true (Nat.lt_of_le_of_lt hn (by decide)) hrest, hparts]

/-! ## Strings -/

theorem pieces?_shortEscape {e c : Char} (h : shortEscape? e = some c) (rest : List Char) :
    pieces? ('\\' :: e :: rest) = (pieces? rest).map fun p => (.char c :: p.1, p.2) := by
  have hne : e ≠ 'u' := by
    rintro rfl
    cases h
  rw [pieces?, h]
  · cases pieces? rest <;> rfl
  · exact fun _ _ _ _ _ heq => absurd heq hne

theorem pieces?_unicodeEscape {n : Nat} (h : n < 0x20) (rest : List Char) :
    pieces? ('\\' :: 'u' :: '0' :: '0' :: (n / 16).digitChar :: (n % 16).digitChar :: rest) =
      (pieces? rest).map fun p => (.unit n :: p.1, p.2) := by
  have hall : ∀ n < 0x20, hexUnit? '0' '0' (n / 16).digitChar (n % 16).digitChar = some n := by
    decide
  rw [pieces?, hall n h]
  cases pieces? rest <;> rfl

theorem pieces?_plain {c : Char} (hquote : c ≠ '"') (hslash : c ≠ '\\')
    (hcontrol : ¬ c.toNat < 0x20) (rest : List Char) :
    pieces? (c :: rest) = (pieces? rest).map fun p => (.char c :: p.1, p.2) := by
  rw [pieces?, if_neg (not_or.2 ⟨hcontrol, hslash⟩)]
  · exact fun h => absurd h hquote
  · exact fun _ _ _ _ _ h => absurd h hslash
  · exact fun _ _ h => absurd h hslash

theorem joinPieces?_unit {code : Nat} (h : code < 0x20) (ps : List Piece) :
    joinPieces? (.unit code :: ps) = (joinPieces? ps).map (Char.ofNat code :: ·) := by
  have hhigh : isHighSurrogate code = false := by
    rw [isHighSurrogate, Bool.and_eq_false_iff, decide_eq_false_iff_not]
    omega
  have hlow : isLowSurrogate code = false := by
    rw [isLowSurrogate, Bool.and_eq_false_iff, decide_eq_false_iff_not]
    omega
  match ps with
  | [] => simp [joinPieces?, hhigh, hlow]
  | .char c :: ps => simp [joinPieces?, hhigh, hlow]
  | .unit low :: ps => simp [joinPieces?, hhigh, hlow]

/-- A character is printed as one part of a string, which stands for it. -/
theorem exists_piece (c : Char) :
    ∃ piece, (∀ rest, pieces? (Json.escape c ++ rest) =
        (pieces? rest).map fun p => (piece :: p.1, p.2)) ∧
      ∀ ps, joinPieces? (piece :: ps) = (joinPieces? ps).map (c :: ·) := by
  have hshort {e : Char} (he : shortEscape? e = some c) (hescape : Json.escape c = ['\\', e]) :
      ∃ piece, (∀ rest, pieces? (Json.escape c ++ rest) =
          (pieces? rest).map fun p => (piece :: p.1, p.2)) ∧
        ∀ ps, joinPieces? (piece :: ps) = (joinPieces? ps).map (c :: ·) :=
    ⟨.char c, fun rest => hescape ▸ pieces?_shortEscape he rest, fun _ => by rw [joinPieces?]⟩
  by_cases hc : c ∈ ['"', '\\', '\x08', '\x0c', '\n', '\r', '\t']
  · simp only [List.mem_cons, List.not_mem_nil, or_false] at hc
    obtain rfl | rfl | rfl | rfl | rfl | rfl | rfl := hc
    · exact hshort (e := '"') rfl rfl
    · exact hshort (e := '\\') rfl rfl
    · exact hshort (e := 'b') rfl rfl
    · exact hshort (e := 'f') rfl rfl
    · exact hshort (e := 'n') rfl rfl
    · exact hshort (e := 'r') rfl rfl
    · exact hshort (e := 't') rfl rfl
  simp only [List.mem_cons, List.not_mem_nil, or_false, not_or] at hc
  obtain ⟨hquote, hslash, hback, hform, hline, hreturn, htab⟩ := hc
  unfold Json.escape
  rw [if_neg (not_or.2 ⟨hquote, hslash⟩), if_neg hback, if_neg hform, if_neg hline,
    if_neg hreturn, if_neg htab]
  split
  · next hcontrol =>
    refine ⟨.unit c.toNat, fun rest => pieces?_unicodeEscape hcontrol rest, fun ps => ?_⟩
    rw [joinPieces?_unit hcontrol, Char.ofNat_toNat]
  · next hcontrol =>
    exact ⟨.char c, fun rest => pieces?_plain hquote hslash hcontrol rest,
      fun _ => by rw [joinPieces?]⟩

theorem exists_pieces (cs rest : List Char) :
    ∃ ps, pieces? (cs.flatMap Json.escape ++ '"' :: rest) = some (ps, rest) ∧
      joinPieces? ps = some cs := by
  induction cs with
  | nil => exact ⟨[], rfl, rfl⟩
  | cons c cs ih =>
    obtain ⟨ps, hps, hjoin⟩ := ih
    obtain ⟨piece, hpiece, hstands⟩ := exists_piece c
    refine ⟨piece :: ps, ?_, ?_⟩
    · rw [List.flatMap_cons, List.append_assoc, hpiece, hps]
      rfl
    · rw [hstands, hjoin]
      rfl

theorem string?_quoted (text : String) (rest : List Char) :
    string? (text.toList.flatMap Json.escape ++ '"' :: rest) = some (some text, rest) := by
  obtain ⟨ps, hps, hjoin⟩ := exists_pieces text.toList rest
  rw [string?, hps]
  show some ((joinPieces? ps).map String.ofList, rest) = _
  rw [hjoin, Option.map_some, String.ofList_toList]

/-! ## Steps of reading -/

section
variable {fuel : Nat} {text rest : List Char}

theorem value?_array {c : Char} (hc : c ∉ [' ', '\n', '\r', '\t', ']']) (fuel : Nat)
    (text : List Char) :
    value? (fuel + 1) ('[' :: c :: text) =
      (items? fuel (c :: text)).map fun p => (.array p.1, p.2) := by
  simp only [List.mem_cons, List.not_mem_nil, or_false, not_or] at hc
  obtain ⟨hspace, hline, hreturn, htab, hclose⟩ := hc
  have hskip : skipBlanks (c :: text) = c :: text :=
    List.dropWhile_cons_of_neg (by simp [hspace, hline, hreturn, htab])
  have hopen : skipBlanks ('[' :: c :: text) = '[' :: c :: text := rfl
  simp only [value?, hopen, hskip]
  split
  · next h => exact absurd (List.cons.inj h).1 hclose
  · rfl

theorem value?_object (fuel : Nat) (text : List Char) :
    value? (fuel + 1) ('\x7b' :: '"' :: text) =
      (members? fuel ('"' :: text)).map fun p => (.object p.1, p.2) := rfl

theorem items?_last {item : Document} (h : value? fuel text = some (item, ']' :: rest)) :
    items? (fuel + 1) text = some ([item], rest) := by
  rw [items?, h]
  rfl

theorem items?_next {item : Document} (h : value? fuel text = some (item, ',' :: rest)) :
    items? (fuel + 1) text = (items? fuel rest).map fun p => (item :: p.1, p.2) := by
  rw [items?, h]
  rfl

theorem members?_last {name : Option String} {value : Document} {after : List Char}
    (hname : string? text = some (name, ':' :: after))
    (h : value? fuel after = some (value, '\x7d' :: rest)) :
    members? (fuel + 1) ('"' :: text) = some ([(name, value)], rest) := by
  have hopen : skipBlanks ('"' :: text) = '"' :: text := rfl
  have hcolon : skipBlanks (':' :: after) = ':' :: after := rfl
  have hclose : skipBlanks ('\x7d' :: rest) = '\x7d' :: rest := rfl
  simp only [members?, hopen, hname, hcolon, h, hclose]

theorem members?_next {name : Option String} {value : Document} {after : List Char}
    (hname : string? text = some (name, ':' :: after))
    (h : value? fuel after = some (value, ',' :: rest)) :
    members? (fuel + 1) ('"' :: text) =
      (members? fuel rest).map fun p => ((name, value) :: p.1, p.2) := by
  have hopen : skipBlanks ('"' :: text) = '"' :: text := rfl
  have hcolon : skipBlanks (':' :: after) = ':' :: after := rfl
  have hcomma : skipBlanks (',' :: rest) = ',' :: rest := rfl
  simp only [members?, hopen, hname, hcolon, h, hcomma]

end

/-! ## Printed values -/

theorem toList_quote (text : String) :
    (Json.quote text).toList = '"' :: text.toList.flatMap Json.escape ++ ['"'] := by
  rw [Json.quote, String.toList_ofList]

theorem toList_compact_array (items : List Json) :
    (Json.array items).compact.toList = '[' :: (Json.compactItems items).toList ++ [']'] := by
  rw [Json.compact, String.toList_append, String.toList_append]
  rfl

theorem toList_compact_object (members : List (String × Json)) :
    (Json.object members).compact.toList =
      '\x7b' :: (Json.compactMembers members).toList ++ ['\x7d'] := by
  rw [Json.compact, String.toList_append, String.toList_append]
  rfl

/-- A printed value begins with what is neither a blank nor the end of a list. -/
theorem exists_head_compact {j : Json} (h : j.IsExact) :
    ∃ c cs, j.compact.toList = c :: cs ∧ c ∉ [' ', '\n', '\r', '\t', ']'] := by
  cases h with
  | null => exact ⟨_, _, rfl, by decide⟩
  | bool value => cases value <;> exact ⟨_, _, rfl, by decide⟩
  | integer =>
    rename_i i _
    cases i with
    | ofNat n =>
      obtain ⟨c, digits, hcons, hc⟩ := exists_digit n
      refine ⟨c, digits, (toList_toString_ofNat n).trans hcons, fun hmem => ?_⟩
      have hall : ∀ c ∈ [' ', '\n', '\r', '\t', ']'], c.isDigit = false := by decide
      rw [hall c hmem] at hc
      cases hc
    | negSucc n => exact ⟨_, _, toList_toString_negSucc n, by decide⟩
  | string text => exact ⟨_, _, toList_quote text, by decide⟩
  | array => exact ⟨_, _, toList_compact_array _, by decide⟩
  | object => exact ⟨_, _, toList_compact_object _, by decide⟩

theorem toList_compactItems (item next : Json) (rest : List Json) :
    (Json.compactItems (item :: next :: rest)).toList =
      item.compact.toList ++ ',' :: (Json.compactItems (next :: rest)).toList := by
  rw [Json.compactItems, String.toList_append, String.toList_append, List.append_assoc]
  · rfl
  · nofun

/-- A member is printed as its name behind a quote, a quote, a colon and its value. -/
theorem toList_compactMembers_last (name : String) (value : Json) :
    (Json.compactMembers [(name, value)]).toList =
      '"' :: name.toList.flatMap Json.escape ++ '"' :: ':' :: value.compact.toList := by
  rw [Json.compactMembers, String.toList_append, String.toList_append, toList_quote]
  simp

theorem toList_compactMembers_next (name : String) (value : Json) (next : String × Json)
    (rest : List (String × Json)) :
    (Json.compactMembers ((name, value) :: next :: rest)).toList =
      '"' :: name.toList.flatMap Json.escape ++ '"' :: ':' :: value.compact.toList ++
        ',' :: (Json.compactMembers (next :: rest)).toList := by
  rw [Json.compactMembers, String.toList_append, String.toList_append, String.toList_append,
    String.toList_append, toList_quote]
  · simp
  · nofun

theorem exists_head_compactItems {item : Json} (rest : List Json) (h : item.IsExact) :
    ∃ c cs, (Json.compactItems (item :: rest)).toList = c :: cs ∧
      c ∉ [' ', '\n', '\r', '\t', ']'] := by
  obtain ⟨c, cs, hcons, hc⟩ := exists_head_compact h
  cases rest with
  | nil => exact ⟨c, cs, hcons, hc⟩
  | cons next rest => exact ⟨c, _, by rw [toList_compactItems, hcons, List.cons_append], hc⟩

theorem exists_head_compactMembers (name : String) (value : Json) (rest : List (String × Json)) :
    ∃ cs, (Json.compactMembers ((name, value) :: rest)).toList = '"' :: cs := by
  cases rest with
  | nil => exact ⟨_, by rw [toList_compactMembers_last, List.cons_append]⟩
  | cons next rest =>
    exact ⟨_, by rw [toList_compactMembers_next, List.cons_append, List.cons_append]⟩

/-! ## Round trip -/

theorem endsNumber_cons {c : Char} (h : c ∈ [',', ']', '\x7d']) (rest : List Char) :
    EndsNumber (c :: rest) := by
  have hall : ∀ c ∈ [',', ']', '\x7d'], c.isDigit = false ∧ c ≠ '.' ∧ c ≠ 'e' ∧ c ≠ 'E' := by decide
  rintro d ⟨⟩
  exact hall c h

section
variable {fuel : Nat} {rest : List Char}

theorem value?_compact_string (text : String) (fuel : Nat) (rest : List Char) :
    value? (fuel + 1) ((Json.string text).compact.toList ++ rest) =
      some (.string (some text), rest) := by
  have htext : (Json.string text).compact.toList ++ rest =
      '"' :: (text.toList.flatMap Json.escape ++ '"' :: rest) := by
    rw [Json.compact, toList_quote, List.append_assoc]
    rfl
  rw [htext]
  show (string? (text.toList.flatMap Json.escape ++ '"' :: rest)).map _ = _
  rw [string?_quoted]
  rfl

theorem value?_compact_array {item : Json} {items : List Json} {docs : List Document}
    (hitem : item.IsExact)
    (h : items? fuel ((Json.compactItems (item :: items)).toList ++ ']' :: rest) =
      some (docs, rest)) :
    value? (fuel + 1) ((Json.array (item :: items)).compact.toList ++ rest) =
      some (.array docs, rest) := by
  obtain ⟨c, cs, hcons, hc⟩ := exists_head_compactItems items hitem
  rw [toList_compact_array, List.append_assoc, List.cons_append, List.singleton_append]
  rw [hcons, List.cons_append] at h ⊢
  rw [value?_array hc, h]
  rfl

theorem value?_compact_object {name : String} {value : Json} {members : List (String × Json)}
    {docs : List (Option String × Document)}
    (h : members? fuel ((Json.compactMembers ((name, value) :: members)).toList ++ '\x7d' :: rest) =
      some (docs, rest)) :
    value? (fuel + 1) ((Json.object ((name, value) :: members)).compact.toList ++ rest) =
      some (.object docs, rest) := by
  obtain ⟨cs, hcons⟩ := exists_head_compactMembers name value members
  rw [toList_compact_object, List.append_assoc, List.cons_append, List.singleton_append]
  rw [hcons, List.cons_append] at h ⊢
  rw [value?_object, h]
  rfl

theorem members?_compactMembers_last {name : String} {value : Json} {doc : Document}
    (h : value? fuel (value.compact.toList ++ '\x7d' :: rest) = some (doc, '\x7d' :: rest)) :
    members? (fuel + 1) ((Json.compactMembers [(name, value)]).toList ++ '\x7d' :: rest) =
      some ([(some name, doc)], rest) := by
  have hname := string?_quoted name (':' :: (value.compact.toList ++ '\x7d' :: rest))
  rw [toList_compactMembers_last, List.append_assoc, List.cons_append, List.cons_append,
    List.cons_append]
  exact members?_last hname h

theorem members?_compactMembers_next {name : String} {value : Json} {next : String × Json}
    {members : List (String × Json)} {doc : Document} {docs : List (Option String × Document)}
    (h : value? fuel (value.compact.toList ++
        ',' :: ((Json.compactMembers (next :: members)).toList ++ '\x7d' :: rest)) =
      some (doc, ',' :: ((Json.compactMembers (next :: members)).toList ++ '\x7d' :: rest)))
    (hrest : members? fuel ((Json.compactMembers (next :: members)).toList ++ '\x7d' :: rest) =
      some (docs, rest)) :
    members? (fuel + 1)
        ((Json.compactMembers ((name, value) :: next :: members)).toList ++ '\x7d' :: rest) =
      some ((some name, doc) :: docs, rest) := by
  have hname := string?_quoted name (':' :: (value.compact.toList ++
    ',' :: ((Json.compactMembers (next :: members)).toList ++ '\x7d' :: rest)))
  rw [toList_compactMembers_next]
  simp only [List.append_assoc, List.cons_append]
  rw [members?_next hname h, hrest]
  rfl

end

/-- What the value is printed as is read up to what follows, with as much fuel as there are
characters. -/
def ReadsBack (j : Json) : Prop :=
  ∀ fuel rest, j.compact.toList.length ≤ fuel → EndsNumber rest →
    value? (fuel + 1) (j.compact.toList ++ rest) = some (j.toDocument, rest)

theorem items?_compactItems {items : List Json} (hne : items ≠ [])
    (h : ∀ item ∈ items, ReadsBack item) {fuel : Nat}
    (hfuel : (Json.compactItems items).toList.length ≤ fuel) (rest : List Char) :
    items? (fuel + 2) ((Json.compactItems items).toList ++ ']' :: rest) =
      some (Json.itemsToDocuments items, rest) := by
  induction items generalizing fuel with
  | nil => exact absurd rfl hne
  | cons item items ih =>
    obtain ⟨hitem, hitems⟩ := List.forall_mem_cons.1 h
    cases items with
    | nil => exact items?_last (hitem fuel _ hfuel (endsNumber_cons (by decide) rest))
    | cons next items =>
      rw [toList_compactItems, List.length_append, List.length_cons] at hfuel
      -- The comma is a character that no item needs, and pays for the step.
      have hread := hitem fuel (',' :: ((Json.compactItems (next :: items)).toList ++ ']' :: rest))
        (by omega) (endsNumber_cons (by decide) _)
      obtain ⟨fuel, rfl⟩ : ∃ k, fuel = k + 1 := ⟨fuel - 1, by omega⟩
      rw [toList_compactItems, List.append_assoc, List.cons_append, items?_next hread,
        ih (List.cons_ne_nil _ _) hitems (by omega)]
      rfl

theorem members?_compactMembers {members : List (String × Json)} (hne : members ≠ [])
    (h : ∀ m ∈ members, ReadsBack m.2) {fuel : Nat}
    (hfuel : (Json.compactMembers members).toList.length ≤ fuel) (rest : List Char) :
    members? (fuel + 2) ((Json.compactMembers members).toList ++ '\x7d' :: rest) =
      some (Json.membersToDocuments members, rest) := by
  induction members generalizing fuel with
  | nil => exact absurd rfl hne
  | cons m members ih =>
    obtain ⟨name, value⟩ := m
    obtain ⟨hvalue, hmembers⟩ := List.forall_mem_cons.1 h
    have hvalue : ReadsBack value := hvalue
    cases members with
    | nil =>
      rw [toList_compactMembers_last, List.length_append, List.length_cons, List.length_cons,
        List.length_cons] at hfuel
      exact members?_compactMembers_last
        (hvalue fuel _ (by omega) (endsNumber_cons (by decide) rest))
    | cons next members =>
      rw [toList_compactMembers_next, List.length_append, List.length_append, List.length_cons,
        List.length_cons, List.length_cons, List.length_cons] at hfuel
      have hread := hvalue fuel
        (',' :: ((Json.compactMembers (next :: members)).toList ++ '\x7d' :: rest)) (by omega)
        (endsNumber_cons (by decide) _)
      obtain ⟨fuel, rfl⟩ : ∃ k, fuel = k + 1 := ⟨fuel - 1, by omega⟩
      exact members?_compactMembers_next hread (ih (List.cons_ne_nil _ _) hmembers (by omega))

theorem readsBack_of_isExact {j : Json} (h : j.IsExact) : ReadsBack j := by
  induction h with
  | null => exact fun _ _ _ _ => rfl
  | bool value => cases value <;> exact fun _ _ _ _ => rfl
  | integer hi => exact fun fuel _ _ hrest => value?_toString hi fuel hrest
  | string text => exact fun fuel rest _ _ => value?_compact_string text fuel rest
  | @array items hitems ih =>
    intro fuel rest hfuel _
    cases items with
    | nil => rfl
    | cons item items =>
      rw [toList_compact_array, List.length_append, List.length_cons,
        List.length_singleton] at hfuel
      obtain ⟨fuel, rfl⟩ : ∃ k, fuel = k + 2 := ⟨fuel - 2, by omega⟩
      exact value?_compact_array (hitems item List.mem_cons_self)
        (items?_compactItems (List.cons_ne_nil _ _) ih (by omega) rest)
  | @object members _ _ ih =>
    intro fuel rest hfuel _
    cases members with
    | nil => rfl
    | cons m members =>
      rw [toList_compact_object, List.length_append, List.length_cons,
        List.length_singleton] at hfuel
      obtain ⟨fuel, rfl⟩ : ∃ k, fuel = k + 2 := ⟨fuel - 2, by omega⟩
      exact value?_compact_object
        (members?_compactMembers (List.cons_ne_nil _ _) ih (by omega) rest)

/-- The printed text is one of the document that the value is printed as. -/
theorem parse?_compact {j : Json} (h : j.IsExact) : parse? j.compact = some j.toDocument := by
  have hread := readsBack_of_isExact h j.compact.toList.length [] (Nat.le_refl _) nofun
  rw [List.append_nil] at hread
  unfold parse?
  dsimp only
  rw [hread]
  rfl

end Document

end CellAbi
