import Mathlib.Data.Nat.Digits.Defs
import CellAbi.Proofs.AbiType.Range
import CellAbi.Proofs.Outcome
import CellAbi.Proofs.Text.Words
import CellAbi.Value.Json

/-!
# Texts of integers

Decimal digits, or hexadecimal ones behind `0x`, with a minus before them or without, denote a
number.  More is read than that: behind the mark the digits may have a sign of their own, a plus or
one more minus, and underscores between and behind them.

    magnitude base text = .ok n ↔ Numeral base text n                      (`magnitude_eq_ok_iff`)
    signedMagnitude base text = .ok i ↔ SignedNumeral base text i     (`signedMagnitude_eq_ok_iff`)
    integerOfText text = .ok i ↔ Spells text i                          (`integerOfText_eq_ok_iff`)
    Denotes text i ↔ Spells text i ∧ Bare text                                       (`denotes_iff`)
-/

namespace CellAbi.Value

open Text

variable {base n m : Nat} {text digits : List Char} {c : Char} {i : Int}

/-! ## Numerals -/

def numerals : List Char :=
  ['0', '1', '2', '3', '4', '5', '6', '7', '8', '9', 'a', 'b', 'c', 'd', 'e', 'f']

/-- The place of a character among the numerals, in either case; 16 if it is none of them. -/
def numeralPlace (c : Char) : Nat := numerals.idxOf c.toLower

/-- The number that digits denote, the greatest place first. -/
def numberOf (base : Nat) (digits : List Char) : Nat :=
  Nat.ofDigits base (digits.map numeralPlace).reverse

/-- A sign and what it makes of a number. -/
def minusSigns : List (List Char × Int) := [([], 1), (['-'], -1)]

def signs : List (List Char × Int) := (['+'], 1) :: minusSigns

/-- What stands before digits, and the base that it tells. -/
def marks : List (List Char × Nat) := [([], 10), (['0', 'x'], 16), (['0', 'X'], 16)]

/-- The text is an optional minus, a mark and digits, and the number is the one they denote. -/
def Denotes (text : List Char) (i : Int) : Prop :=
  ∃ sign ∈ minusSigns, ∃ mark ∈ marks, ∃ digits, digits ≠ [] ∧
    (∀ c ∈ digits, numeralPlace c < mark.2) ∧
    text = sign.1 ++ (mark.1 ++ digits) ∧ i = sign.2 * numberOf mark.2 digits

/-- Digits, with underscores anywhere. -/
def Separated (base : Nat) (text : List Char) : Prop := ∀ c ∈ text, c = '_' ∨ numeralPlace c < base

/-- The text without its underscores. -/
def joined (text : List Char) : List Char := text.filter (· ≠ '_')

/-- The text is digits, with underscores behind the first one. -/
def Numeral (base : Nat) (text : List Char) (n : Nat) : Prop :=
  ∃ first rest, text = first :: rest ∧ numeralPlace first < base ∧ Separated base rest ∧
    n = numberOf base (joined text)

/-- The text is a numeral with an optional sign. -/
def SignedNumeral (base : Nat) (text : List Char) (i : Int) : Prop :=
  ∃ sign ∈ signs, ∃ digits n, text = sign.1 ++ digits ∧ Numeral base digits n ∧ i = sign.2 * n

/-- The text is a mark and a signed numeral of its base. -/
def Marked (text : List Char) (i : Int) : Prop :=
  ∃ mark ∈ marks, ∃ rest, text = mark.1 ++ rest ∧ SignedNumeral mark.2 rest i

/-- The text is an optional minus, a mark, an optional sign and digits that underscores may part. -/
def Spells (text : List Char) (i : Int) : Prop :=
  ∃ sign ∈ minusSigns, ∃ rest j, text = sign.1 ++ rest ∧ Marked rest j ∧ i = sign.2 * j

/-- No plus, no underscore, and no minus but at the front. -/
def Bare (text : List Char) : Prop := '+' ∉ text ∧ '_' ∉ text ∧ '-' ∉ text.tail

/-! ## Digits -/

theorem digitValue?_eq_none (hc : ¬ c.toNat < 0x80) : digitValue? c = none := by
  have hle : ∀ last : Char, last.toNat < 0x80 → ∀ first : Char, ¬ (first ≤ c ∧ c ≤ last) :=
    fun last hlast first h => hc (Nat.lt_of_le_of_lt (show c.toNat ≤ last.toNat from h.2) hlast)
  rw [digitValue?, if_neg (hle _ (by decide) _), if_neg (hle _ (by decide) _),
    if_neg (hle _ (by decide) _)]

theorem numeralPlace_eq (hc : ¬ c.toNat < 0x80) : numeralPlace c = 16 := by
  have hmem : c ∉ numerals := fun h =>
    hc ((by decide : ∀ c ∈ numerals, c.toNat < 0x80) c h)
  rw [numeralPlace, toLower_eq_self hc, List.idxOf_eq_length hmem]
  rfl

/-- Of the letters that have a value, those beyond `f` are no digits. -/
theorem numeralPlace_of_digitValue? {d : Nat} (h : digitValue? c = some d) (hd : d < 16) :
    numeralPlace c = d := by
  have hascii : c.toNat < 0x80 := by
    by_contra hc
    rw [digitValue?_eq_none hc] at h
    cases h
  exact forall_ascii (P := fun c => ∀ d ∈ digitValue? c, d < 16 → numeralPlace c = d) (by decide)
    hascii d h hd

theorem digitValue?_of_lt (h : numeralPlace c < 16) : digitValue? c = some (numeralPlace c) := by
  have hascii : c.toNat < 0x80 := by
    by_contra hc
    rw [numeralPlace_eq hc] at h
    exact Nat.lt_irrefl 16 h
  exact forall_ascii
    (P := fun c => numeralPlace c < 16 → digitValue? c = some (numeralPlace c)) (by decide) hascii h

theorem numberOf_cons (base : Nat) (c : Char) (digits : List Char) :
    numberOf base (c :: digits) = base ^ digits.length * numeralPlace c + numberOf base digits := by
  rw [numberOf, List.map_cons, Nat.ofDigits_reverse_cons, List.length_map, Nat.add_comm, numberOf]

theorem joined_cons (hc : c ≠ '_') : joined (c :: text) = c :: joined text :=
  List.filter_cons_of_pos (decide_eq_true hc)

theorem joined_eq_self (h : '_' ∉ text) : joined text = text :=
  List.filter_eq_self.2 fun _ hc => decide_eq_true fun heq => h (heq ▸ hc)

theorem appendDigits_cons (hbase : base ≤ 16) (hc : c ≠ '_') :
    appendDigits base n (c :: text) =
      if numeralPlace c < base then appendDigits base (base * n + numeralPlace c) text
      else .error .invalidDigit := by
  rw [appendDigits]
  · by_cases hlt : numeralPlace c < base
    · rw [digitValue?_of_lt (hlt.trans_le hbase)]
    · rw [if_neg hlt]
      cases hvalue : digitValue? c with
      | none => rfl
      | some d =>
        refine if_neg fun hd => hlt ?_
        rwa [numeralPlace_of_digitValue? hvalue (hd.trans_le hbase)]
  · exact hc

/-- By the text, which appends its digits to the number one by one. -/
theorem appendDigits_eq_ok_iff (hbase : base ≤ 16) : appendDigits base n text = .ok m ↔
    Separated base text ∧ m = base ^ (joined text).length * n + numberOf base (joined text) := by
  induction text generalizing n with
  | nil =>
    rw [appendDigits, Except.ok.injEq]
    show n = m ↔ Separated base [] ∧ m = base ^ 0 * n + 0
    rw [pow_zero, one_mul, add_zero]
    exact ⟨fun h => ⟨nofun, h.symm⟩, fun h => h.2.symm⟩
  | cons c text ih =>
    have hdigits : Separated base (c :: text) ↔
        (c = '_' ∨ numeralPlace c < base) ∧ Separated base text := List.forall_mem_cons
    by_cases hc : c = '_'
    · subst hc
      rw [appendDigits, ih, hdigits, and_iff_right (Or.inl rfl)]
      rfl
    · rw [appendDigits_cons hbase hc, hdigits, or_iff_right hc]
      split
      · next hlt =>
        rw [ih, and_iff_right hlt, joined_cons hc, numberOf_cons, List.length_cons, pow_succ,
          mul_add, ← mul_assoc, add_assoc]
      · next hlt => exact iff_of_false nofun fun h => hlt h.1.1

/-! ## Signs and marks -/

theorem magnitude_eq_ok_iff (hbase : base ≤ 16) :
    magnitude base text = .ok n ↔ Numeral base text n := by
  unfold magnitude
  split
  · exact iff_of_false nofun nofun
  · refine iff_of_false nofun ?_
    rintro ⟨first, rest, h, hfirst, -⟩
    obtain ⟨rfl, rfl⟩ := List.cons.inj h
    exact Nat.not_lt.2 hbase hfirst
  · next hnil hunderscore =>
    rw [appendDigits_eq_ok_iff hbase, mul_zero, zero_add]
    constructor
    · rintro ⟨hdigits, rfl⟩
      cases text with
      | nil => exact absurd rfl hnil
      | cons first rest =>
        obtain ⟨hfirst, hrest⟩ := List.forall_mem_cons.1 hdigits
        refine ⟨first, rest, rfl, hfirst.resolve_left ?_, hrest, rfl⟩
        rintro rfl
        exact hunderscore rest rfl
    · rintro ⟨first, rest, rfl, hfirst, hrest, rfl⟩
      exact ⟨List.forall_mem_cons.2 ⟨.inr hfirst, hrest⟩, rfl⟩

/-- Numerals begin with a digit. -/
theorem Numeral.ne_cons (hbase : base ≤ 16) {rest : List Char} (h : Numeral base text n)
    (hc : numeralPlace c = 16) : text ≠ c :: rest := by
  rintro rfl
  obtain ⟨first, _, heq, hfirst, -⟩ := h
  obtain ⟨rfl, -⟩ := List.cons.inj heq
  rw [hc] at hfirst
  exact Nat.not_lt.2 hbase hfirst

theorem plusMagnitude_eq_ok_iff (hbase : base ≤ 16) : plusMagnitude base text = .ok n ↔
    Numeral base text n ∨ ∃ digits, text = '+' :: digits ∧ Numeral base digits n := by
  have hplus : ∀ {rest}, ¬ Numeral base ('+' :: rest) n := fun h =>
    h.ne_cons hbase (by decide) rfl
  unfold plusMagnitude
  split
  · rw [magnitude_eq_ok_iff hbase]
    refine (or_iff_left ?_).symm
    rintro ⟨_, heq, h⟩
    obtain ⟨-, rfl⟩ := List.cons.inj heq
    exact hplus h
  · rw [magnitude_eq_ok_iff hbase, or_iff_right hplus]
    simp
  · next _ hne =>
    rw [magnitude_eq_ok_iff hbase]
    refine (or_iff_left ?_).symm
    rintro ⟨digits, rfl, -⟩
    exact hne digits rfl

theorem exists_mem_signs {P : List Char × Int → Prop} :
    (∃ sign ∈ signs, P sign) ↔ P (['+'], 1) ∨ P ([], 1) ∨ P (['-'], -1) := by
  simp [signs, minusSigns]

theorem exists_mem_marks {P : List Char × Nat → Prop} :
    (∃ mark ∈ marks, P mark) ↔ P ([], 10) ∨ P (['0', 'x'], 16) ∨ P (['0', 'X'], 16) := by
  simp [marks]

theorem signedMagnitude_of_numeral (hbase : base ≤ 16) (h : Numeral base digits n) :
    signedMagnitude base digits = .ok (n : Int) ∧
      signedMagnitude base ('+' :: digits) = .ok (n : Int) ∧
      signedMagnitude base ('-' :: digits) = .ok (-n : Int) := by
  have hplain := (plusMagnitude_eq_ok_iff hbase).2 (.inl h)
  have hplus := (plusMagnitude_eq_ok_iff hbase).2 (.inr ⟨digits, rfl, h⟩)
  refine ⟨?_, ?_, ?_⟩
  · unfold signedMagnitude
    split
    · exact absurd rfl (h.ne_cons hbase (by decide))
    · exact absurd rfl (h.ne_cons hbase (by decide))
    · rw [hplain]
      rfl
  · rw [signedMagnitude, hplus]
    · rfl
    · nofun
    · nofun
  · rw [signedMagnitude, hplain]
    · rfl
    · exact fun rest => h.ne_cons hbase (by decide)

/-- No plus is read behind a minus, though the other signs are. -/
theorem signedMagnitude_eq_ok_iff (hbase : base ≤ 16) :
    signedMagnitude base text = .ok i ↔ SignedNumeral base text i := by
  constructor
  · intro h
    rw [SignedNumeral, exists_mem_signs]
    unfold signedMagnitude at h
    split at h
    · obtain ⟨_, hj, -⟩ := Outcome.map_eq_ok.1 h
      obtain ⟨n, hn, -⟩ := Outcome.bind_pure_eq_ok.1 hj
      obtain hnumeral | ⟨_, heq, -⟩ := (plusMagnitude_eq_ok_iff hbase).1 hn
      · exact absurd rfl (hnumeral.ne_cons hbase (by decide))
      · cases heq
    · next digits hne =>
      obtain ⟨_, hj, rfl⟩ := Outcome.map_eq_ok.1 h
      obtain ⟨n, hn, rfl⟩ := Outcome.bind_pure_eq_ok.1 hj
      obtain hnumeral | ⟨rest, rfl, -⟩ := (plusMagnitude_eq_ok_iff hbase).1 hn
      · exact .inr (.inr ⟨digits, n, rfl, hnumeral, (Int.neg_one_mul _).symm⟩)
      · exact absurd rfl (hne rest)
    · obtain ⟨n, hn, rfl⟩ := Outcome.map_eq_ok.1 h
      obtain hnumeral | ⟨digits, rfl, hnumeral⟩ := (plusMagnitude_eq_ok_iff hbase).1 hn
      · exact .inr (.inl ⟨text, n, rfl, hnumeral, (Int.one_mul _).symm⟩)
      · exact .inl ⟨digits, n, rfl, hnumeral, (Int.one_mul _).symm⟩
  · rw [SignedNumeral, exists_mem_signs]
    rintro (⟨digits, n, rfl, h, rfl⟩ | ⟨digits, n, rfl, h, rfl⟩ | ⟨digits, n, rfl, h, rfl⟩)
    · rw [Int.one_mul]
      exact (signedMagnitude_of_numeral hbase h).2.1
    · rw [Int.one_mul]
      exact (signedMagnitude_of_numeral hbase h).1
    · rw [Int.neg_one_mul]
      exact (signedMagnitude_of_numeral hbase h).2.2

theorem Numeral.separated (h : Numeral base text n) : Separated base text := by
  obtain ⟨first, rest, rfl, hfirst, hrest, -⟩ := h
  exact List.forall_mem_cons.2 ⟨.inr hfirst, hrest⟩

theorem SignedNumeral.mem (h : SignedNumeral base text i) (hc : c ∈ text) :
    c ∈ ['+', '-', '_'] ∨ numeralPlace c < base := by
  obtain ⟨sign, hsign, digits, n, rfl, hdigits, -⟩ := h
  rcases List.mem_append.1 hc with hc | hc
  · have hall : ∀ sign ∈ signs, ∀ c ∈ sign.1, c ∈ ['+', '-', '_'] := by decide
    exact .inl (hall sign hsign c hc)
  · refine (hdigits.separated c hc).imp_left ?_
    rintro rfl
    decide

/-- What is read behind a minus: a mark, and digits that may have a sign of their own. -/
def marked (text : List Char) : Except IntegerTextError Int :=
  match text with
  | '0' :: 'x' :: rest | '0' :: 'X' :: rest => signedMagnitude 16 rest
  | rest => signedMagnitude 10 rest

/-- No unmarked text begins as a marked one does: the letter of a mark is no decimal digit. -/
theorem marked_eq_ok_iff : marked text = .ok i ↔ Marked text i := by
  rw [Marked, exists_mem_marks]
  constructor
  · intro h
    unfold marked at h
    split at h
    · exact .inr (.inl ⟨_, rfl, (signedMagnitude_eq_ok_iff le_rfl).1 h⟩)
    · exact .inr (.inr ⟨_, rfl, (signedMagnitude_eq_ok_iff le_rfl).1 h⟩)
    · exact .inl ⟨text, rfl, (signedMagnitude_eq_ok_iff (by decide)).1 h⟩
  · rintro (⟨rest, rfl, h⟩ | ⟨rest, rfl, h⟩ | ⟨rest, rfl, h⟩)
    · show marked _ = _
      unfold marked
      split
      -- An unmarked numeral is decimal, so that no `x` stands in it.
      · exact absurd (h.mem (List.mem_cons_of_mem _ List.mem_cons_self)) (by decide)
      · exact absurd (h.mem (List.mem_cons_of_mem _ List.mem_cons_self)) (by decide)
      · exact (signedMagnitude_eq_ok_iff (by decide)).2 h
    · exact (signedMagnitude_eq_ok_iff le_rfl).2 h
    · exact (signedMagnitude_eq_ok_iff le_rfl).2 h

theorem integerOfText_minus (text : List Char) :
    integerOfText ('-' :: text) = (marked text).map fun i => -i := rfl

theorem integerOfText_of_head (h : ∀ rest, text ≠ '-' :: rest) :
    integerOfText text = marked text := by
  unfold integerOfText
  split
  next negative rest hsplit =>
  split at hsplit
  · exact absurd rfl (h _)
  · cases hsplit
    show (marked text).map _ = _
    cases marked text <;> rfl

theorem SignedNumeral.of_minus (hbase : base ≤ 16) (h : SignedNumeral base ('-' :: text) i) :
    SignedNumeral base text (-i) := by
  rw [SignedNumeral, exists_mem_signs] at h ⊢
  obtain ⟨_, _, heq, -⟩ | ⟨_, n, rfl, h, -⟩ | ⟨_, n, heq, h, rfl⟩ := h
  · cases heq
  · exact absurd rfl (h.ne_cons hbase (by decide))
  · cases heq
    exact .inr (.inl ⟨_, n, rfl, h, by ring⟩)

/-- Without a mark, the only minus is the first sign as well as the second. -/
theorem Marked.of_minus (h : Marked ('-' :: text) i) : Marked text (-i) := by
  rw [Marked, exists_mem_marks] at h ⊢
  obtain ⟨rest, rfl, h⟩ | ⟨rest, heq, -⟩ | ⟨rest, heq, -⟩ := h
  · exact .inl ⟨text, rfl, h.of_minus (by decide)⟩
  · cases heq
  · cases heq

theorem exists_mem_minusSigns {P : List Char × Int → Prop} :
    (∃ sign ∈ minusSigns, P sign) ↔ P ([], 1) ∨ P (['-'], -1) := by
  simp [minusSigns]

theorem integerOfText_minus_eq_ok_iff :
    integerOfText ('-' :: text) = .ok i ↔ Marked text (-i) := by
  rw [integerOfText_minus, Outcome.map_eq_ok]
  constructor
  · rintro ⟨j, hj, rfl⟩
    rw [neg_neg]
    exact marked_eq_ok_iff.1 hj
  · exact fun h => ⟨-i, marked_eq_ok_iff.2 h, (neg_neg i).symm⟩

theorem integerOfText_eq_ok_iff : integerOfText text = .ok i ↔ Spells text i := by
  rw [Spells, exists_mem_minusSigns]
  constructor
  · intro h
    by_cases hminus : ∃ rest, text = '-' :: rest
    · obtain ⟨rest, rfl⟩ := hminus
      exact .inr ⟨rest, -i, rfl, integerOfText_minus_eq_ok_iff.1 h, by ring⟩
    · rw [integerOfText_of_head fun rest h => hminus ⟨rest, h⟩] at h
      exact .inl ⟨text, i, rfl, marked_eq_ok_iff.1 h, (Int.one_mul i).symm⟩
  · rintro (⟨_, j, rfl, h, rfl⟩ | ⟨rest, j, rfl, h, rfl⟩)
    · rw [Int.one_mul]
      -- Without an outer sign the text may still begin with a minus, which is then the inner one.
      by_cases hminus : ∃ more, text = '-' :: more
      · obtain ⟨more, rfl⟩ := hminus
        exact integerOfText_minus_eq_ok_iff.2 h.of_minus
      · rw [integerOfText_of_head fun more h => hminus ⟨more, h⟩]
        exact marked_eq_ok_iff.2 h
    · refine integerOfText_minus_eq_ok_iff.2 ?_
      rwa [Int.neg_one_mul, neg_neg]

example : integerOfText ['0', 'X', '+', '1', '_', 'f', '_'] = .ok 31 := rfl

/-! ## What is denoted and what is read -/

theorem le_of_mem_marks : ∀ mark ∈ marks, mark.2 ≤ 16 := by decide

theorem numeral_of_digits (hne : digits ≠ []) (h : ∀ c ∈ digits, numeralPlace c < base)
    (hbase : base ≤ 16) : Numeral base digits (numberOf base digits) := by
  have hunderscore : '_' ∉ digits := fun hmem => Nat.not_lt.2 hbase (h _ hmem)
  cases digits with
  | nil => exact absurd rfl hne
  | cons first rest =>
    exact ⟨first, rest, rfl, h _ List.mem_cons_self,
      fun c hc => .inr (h c (List.mem_cons_of_mem _ hc)), by rw [joined_eq_self hunderscore]⟩

theorem Numeral.places (h : Numeral base text n) (hunderscore : '_' ∉ text) :
    text ≠ [] ∧ (∀ c ∈ text, numeralPlace c < base) ∧ n = numberOf base text := by
  have hdigits := h.separated
  obtain ⟨first, rest, rfl, -, -, rfl⟩ := h
  refine ⟨List.cons_ne_nil _ _, fun c hc => (hdigits c hc).resolve_left ?_, ?_⟩
  · rintro rfl
    exact hunderscore hc
  · rw [joined_eq_self hunderscore]

theorem Denotes.bare (h : Denotes text i) : Bare text := by
  obtain ⟨sign, hsign, mark, hmark, digits, -, hdigits, rfl, -⟩ := h
  have hrest : ∀ c ∈ ['+', '-', '_'], c ∉ mark.1 ++ digits := by
    intro c hc hmem
    rcases List.mem_append.1 hmem with hmem | hmem
    · have hmarks : ∀ mark ∈ marks, ∀ c ∈ ['+', '-', '_'], c ∉ mark.1 := by decide
      exact hmarks mark hmark c hc hmem
    · have hplace : ∀ c ∈ ['+', '-', '_'], numeralPlace c = 16 := by decide
      have hlt := hdigits c hmem
      rw [hplace c hc] at hlt
      exact Nat.not_lt.2 (le_of_mem_marks mark hmark) hlt
  have hplus := hrest '+' (by decide)
  have hminus := hrest '-' (by decide)
  have hunderscore := hrest '_' (by decide)
  rcases List.mem_cons.1 hsign with rfl | hsign
  · exact ⟨hplus, hunderscore, fun h => hminus (List.mem_of_mem_tail h)⟩
  · rw [List.mem_singleton.1 hsign]
    exact ⟨List.not_mem_cons_of_ne_of_not_mem (by decide) hplus,
      List.not_mem_cons_of_ne_of_not_mem (by decide) hunderscore, hminus⟩

theorem Denotes.spells (h : Denotes text i) : Spells text i := by
  obtain ⟨sign, hsign, mark, hmark, digits, hne, hdigits, rfl, rfl⟩ := h
  exact ⟨sign, hsign, _, _, rfl, ⟨mark, hmark, digits, rfl, ([], 1), by decide, digits, _, rfl,
    numeral_of_digits hne hdigits (le_of_mem_marks mark hmark), (Int.one_mul _).symm⟩, rfl⟩

/-- The sign behind the mark is the only one if there is no mark and no sign before it. -/
theorem denotes_of_spells (h : Spells text i) (hbare : Bare text) : Denotes text i := by
  obtain ⟨sign, hsign, _, _, rfl, ⟨mark, hmark, _, rfl, inner, hinner, digits, n, rfl, hdigits,
    rfl⟩, rfl⟩ := h
  obtain ⟨hplus, hunderscore, hminus⟩ := hbare
  obtain ⟨hne, hplace, rfl⟩ := hdigits.places fun h => hunderscore (by simp [h])
  rw [← List.append_assoc] at hminus
  rcases List.mem_cons.1 hinner with rfl | hinner
  · exact absurd (by simp) hplus
  rcases List.mem_cons.1 hinner with rfl | hinner
  · exact ⟨sign, hsign, mark, hmark, digits, hne, hplace, rfl, by rw [Int.one_mul]⟩
  rw [List.mem_singleton.1 hinner] at hminus ⊢
  -- The inner sign is a minus, and a bare text has it at the front.
  have hfront : sign.1 ++ mark.1 = [] := by
    by_contra hfront
    rw [List.tail_append_of_ne_nil hfront] at hminus
    exact hminus (by simp)
  obtain ⟨hsign', hmark'⟩ := List.append_eq_nil_iff.1 hfront
  have hall : ∀ sign ∈ minusSigns, ∀ mark ∈ marks, sign.1 = [] → mark.1 = [] →
      sign = ([], 1) ∧ mark = ([], 10) := by decide
  obtain ⟨rfl, rfl⟩ := hall sign hsign mark hmark hsign' hmark'
  exact ⟨(['-'], -1), by decide, ([], 10), by decide, digits, hne, hplace, rfl, Int.one_mul _⟩

/-- What a text denotes is what it is read as, where it has no sign or separator to spare. -/
theorem denotes_iff : Denotes text i ↔ Spells text i ∧ Bare text :=
  ⟨fun h => ⟨h.spells, h.bare⟩, fun h => denotes_of_spells h.1 h.2⟩

/-- A text is read as an integer of the type iff what it spells, without the blanks around it, is in
range.  Of the texts that spell one, just those denote it that have no plus, no underscore and no
minus but at the front. -/
theorem ofJson_integer_text (signed : Bool) (width : IntWidth) (text : String) (v : Value) :
    (ofJson (.integer signed width) (.string text) = .ok v ↔
      ∃ i, v = int i ∧ AbiType.InRange signed width i ∧ Spells (trim text.toList) i) ∧
    ∀ i, Denotes (trim text.toList) i ↔
      Spells (trim text.toList) i ∧ Bare (trim text.toList) := by
  refine ⟨?_, fun i => denotes_iff⟩
  rw [ofJson, Outcome.bind_eq_ok]
  simp only [Outcome.bind_pure_eq_ok, integerOfJson, Outcome.mapError_eq_ok,
    integerOfText_eq_ok_iff]
  constructor
  · rintro ⟨i, hi, _, hrange, rfl⟩
    exact ⟨i, rfl, AbiType.checkInteger_iff.1 hrange, hi⟩
  · rintro ⟨i, rfl, hrange, hi⟩
    exact ⟨i, hi, (), AbiType.checkInteger_iff.2 hrange, rfl⟩

/-- A second minus, which takes the first one back. -/
theorem ofJson_doubled_minus :
    ofJson (.int 8) (.string "--5") = .ok (int 5) ∧ ¬ ∃ i, Denotes (trim "--5".toList) i := by
  refine ⟨rfl, ?_⟩
  rintro ⟨i, h⟩
  exact h.bare.2.2 (by decide)

end CellAbi.Value
