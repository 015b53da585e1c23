import CellAbi.Proofs.Address.Compact
import CellAbi.Proofs.Value.IntegerText

/-!
# Texts that stand for addresses

A raw text is a decimal workchain with a sign or without, a colon and the digits of the hash, in
either case.  These and the compact texts are all that is read as an address.

    integer? text = some i ↔ Decimal text i                               (`integer?_eq_some_iff`)
    ofRaw text = .ok a ↔ IsRaw text.toList a                                    (`ofRaw_eq_ok_iff`)
    ofText text = .ok a ↔ a.IsForm text.toList                                 (`ofText_eq_ok_iff`)
-/

namespace CellAbi

theorem Digest.ofBytes?_eq_some_iff {bytes : List UInt8} {d : Digest} :
    ofBytes? bytes = some d ↔ bytes = d.bytes := by
  constructor
  · intro h
    unfold ofBytes? at h
    split at h
    · rw [← Option.some.inj h]
    · cases h
  · rintro rfl
    exact ofBytes?_bytes d

/-! ## Decimals -/

namespace Text

open Value

variable {text digits : List Char} {c : Char} {n : Nat} {i : Int}

/-- The text is digits behind at most one sign, and the number is the one they denote. -/
def Decimal (text : List Char) (i : Int) : Prop :=
  ∃ sign ∈ signs, ∃ digits, digits ≠ [] ∧ (∀ c ∈ digits, numeralPlace c < 10) ∧
    text = sign.1 ++ digits ∧ i = sign.2 * numberOf 10 digits

theorem isDigit_iff_numeralPlace : c.isDigit = true ↔ numeralPlace c < 10 := by
  by_cases hc : c.toNat < 0x80
  · exact forall_ascii (P := fun c => c.isDigit = true ↔ numeralPlace c < 10) (by decide) hc
  · rw [numeralPlace_eq hc, isDigit_iff]
    omega

theorem ofDigitChars_eq_numberOf (h : ∀ c ∈ digits, c.isDigit = true) :
    Nat.ofDigitChars 10 digits 0 = numberOf 10 digits := by
  have hread := ((appendDigits_eq_ok_iff (by decide)).1 (appendDigits_of_isDigit h 0)).2
  have hunderscore : '_' ∉ digits := fun hmem => absurd (h _ hmem) (by decide)
  rwa [Nat.mul_zero, Nat.zero_add, joined_eq_self hunderscore] at hread

theorem natural?_eq_some_iff : natural? digits = some n ↔
    digits ≠ [] ∧ (∀ c ∈ digits, numeralPlace c < 10) ∧ n = numberOf 10 digits := by
  simp only [natural?, List.all_eq_true, Option.ite_none_right_eq_some, Option.some.injEq,
    ← isDigit_iff_numeralPlace, and_assoc]
  refine and_congr_right fun _ => and_congr_right fun h => ?_
  rw [ofDigitChars_eq_numberOf h, eq_comm]

theorem integer?_of_digits (hne : digits ≠ []) (h : ∀ c ∈ digits, numeralPlace c < 10) :
    integer? digits = some (numberOf 10 digits : Int) ∧
      integer? ('+' :: digits) = some (numberOf 10 digits : Int) ∧
      integer? ('-' :: digits) = some (-numberOf 10 digits : Int) := by
  have hread := natural?_eq_some_iff.2 ⟨hne, h, rfl⟩
  refine ⟨?_, ?_, ?_⟩
  · unfold integer?
    split
    · exact absurd (h '-' List.mem_cons_self) (by decide)
    · exact absurd (h '+' List.mem_cons_self) (by decide)
    · rw [hread]
      rfl
  · rw [integer?, hread]
    rfl
  · rw [integer?, hread]
    rfl

theorem integer?_eq_some_iff : integer? text = some i ↔ Decimal text i := by
  rw [Decimal, exists_mem_signs]
  constructor
  · intro h
    unfold integer? at h
    split at h
    · obtain ⟨_, hj, rfl⟩ := Option.map_eq_some_iff.1 h
      obtain ⟨n, hn, hj⟩ := Option.bind_eq_some_iff.1 hj
      obtain rfl := Option.some.inj hj
      obtain ⟨hne, hdigits, rfl⟩ := natural?_eq_some_iff.1 hn
      exact .inr (.inr ⟨_, hne, hdigits, rfl, (Int.neg_one_mul _).symm⟩)
    · obtain ⟨n, hn, rfl⟩ := Option.map_eq_some_iff.1 h
      obtain ⟨hne, hdigits, rfl⟩ := natural?_eq_some_iff.1 hn
      exact .inl ⟨_, hne, hdigits, rfl, (Int.one_mul _).symm⟩
    · obtain ⟨n, hn, rfl⟩ := Option.map_eq_some_iff.1 h
      obtain ⟨hne, hdigits, rfl⟩ := natural?_eq_some_iff.1 hn
      exact .inr (.inl ⟨_, hne, hdigits, rfl, (Int.one_mul _).symm⟩)
  · rintro (⟨digits, hne, h, rfl, rfl⟩ | ⟨digits, hne, h, rfl, rfl⟩ | ⟨digits, hne, h, rfl, rfl⟩)
    · rw [Int.one_mul]
      exact (integer?_of_digits hne h).2.1
    · rw [Int.one_mul]
      exact (integer?_of_digits hne h).1
    · rw [Int.neg_one_mul]
      exact (integer?_of_digits hne h).2.2

/-- A sign or a digit is no colon. -/
theorem Decimal.colon_not_mem (h : Decimal text i) : ':' ∉ text := by
  obtain ⟨sign, hsign, digits, -, hdigits, rfl, -⟩ := h
  have hsigns : ∀ sign ∈ signs, ':' ∉ sign.1 := by decide
  rw [List.mem_append, not_or]
  exact ⟨hsigns sign hsign, fun hmem => absurd (hdigits _ hmem) (by decide)⟩

end Text

/-! ## Raw texts -/

namespace StandardAddress

open Text

variable {a : StandardAddress}

/-- A raw text and the address that it stands for. -/
def IsRaw (text : List Char) (a : StandardAddress) : Prop :=
  ∃ front back, text = front ++ ':' :: back ∧ Decimal front a.workchain.toInt ∧
    back.map Char.toLower = Hex.encodeChars a.hash.bytes

theorem eq_of_splitColon? {text front back : List Char}
    (h : splitColon? text = some (front, back)) : text = front ++ ':' :: back := by
  induction text generalizing front with
  | nil => cases h
  | cons c text ih =>
    rw [splitColon?] at h
    split at h
    · next hc =>
      cases h
      rw [hc]
      rfl
    · obtain ⟨⟨front, back⟩, hsplit, heq⟩ := Option.map_eq_some_iff.1 h
      cases heq
      rw [ih hsplit]
      rfl

theorem workchain?_eq_some_iff {text : List Char} {w : Int32} :
    workchain? text = some w ↔ Decimal text w.toInt := by
  simp only [workchain?, Option.bind_eq_some_iff, integer?_eq_some_iff,
    Option.ite_none_right_eq_some, Option.some.injEq]
  constructor
  · rintro ⟨i, hi, hrange, rfl⟩
    rwa [Int32.toInt_ofInt_of_le hrange.1 hrange.2]
  · intro h
    exact ⟨w.toInt, h, ⟨w.le_toInt, w.toInt_lt⟩, Int32.ofInt_toInt w⟩

theorem ofRawChars?_eq_some_iff {text : List Char} :
    ofRawChars? text = some a ↔ IsRaw text a := by
  simp only [ofRawChars?, Option.bind_eq_bind, Option.bind_eq_some_iff, workchain?_eq_some_iff,
    Outcome.toOption_eq_some, Hex.decodeChars_iff, Digest.ofBytes?_eq_some_iff, Option.pure_def,
    Option.some.injEq]
  constructor
  · rintro ⟨⟨front, back⟩, hsplit, w, hw, bytes, hbytes, hash, rfl, rfl⟩
    exact ⟨front, back, eq_of_splitColon? hsplit, hw, hbytes⟩
  · rintro ⟨front, back, rfl, hw, hhash⟩
    exact ⟨(front, back), splitColon?_append hw.colon_not_mem back, _, hw, _, hhash, _, rfl, rfl⟩

theorem ofRaw_eq_ok_iff {text : String} : ofRaw text = .ok a ↔ IsRaw text.toList a := by
  rw [← ofRawChars?_eq_some_iff, ofRaw]
  cases ofRawChars? text.toList with
  | none =>
    constructor
    · intro h
      cases h
    · intro h
      cases h
  | some b => rw [Except.ok.injEq, Option.some.injEq]

/-- A raw text begins with a sign or a digit. -/
theorem IsRaw.head {text : List Char} (h : IsRaw text a) :
    ∃ c rest, text = c :: rest ∧ c ≠ ':' := by
  obtain ⟨front, back, rfl, hw, -⟩ := h
  have hcolon := hw.colon_not_mem
  cases front with
  | nil =>
    obtain ⟨_, -, _, hne, -, h, -⟩ := hw
    exact absurd (List.append_eq_nil_iff.1 h.symm).2 hne
  | cons c front => exact ⟨c, _, rfl, fun hc => hcolon (hc ▸ List.mem_cons_self)⟩

end StandardAddress

/-! ## Both forms -/

namespace Address

/-- The text is a raw or a compact text that stands for the address. -/
def IsForm (text : List Char) : Address → Prop
  | standard a => StandardAddress.IsRaw text a
  | external a => ExternalAddress.IsCompact text a.bitString

variable {text : String} {a : Address}

theorem head_of_isCompact {text : List Char} {bits : List Bool}
    (h : ExternalAddress.IsCompact text bits) : text = [] ∨ ∃ body, text = ':' :: body := by
  cases h with
  | empty => exact .inl rfl
  | colon | whole | filled => exact .inr ⟨_, rfl⟩

theorem ofText_of_compact (h : text.toList = [] ∨ ∃ body, text.toList = ':' :: body) :
    ofText text = (ExternalAddress.ofCompact text).map external := by
  unfold ofText
  obtain h | ⟨body, h⟩ := h
  · rw [h]
  · rw [h]
    rfl

theorem ofText_of_raw {c : Char} {rest : List Char} (h : text.toList = c :: rest) (hc : c ≠ ':') :
    ofText text = (StandardAddress.ofRaw text).map standard := by
  unfold ofText
  split
  · next hnil => cases h.symm.trans hnil
  · next hcolon =>
    cases h.symm.trans hcolon
    exact absurd rfl hc
  · rfl

theorem ofText_eq_ok_iff : ofText text = .ok a ↔ IsForm text.toList a := by
  by_cases hcompact : text.toList = [] ∨ ∃ body, text.toList = ':' :: body
  · rw [ofText_of_compact hcompact, Outcome.map_eq_ok]
    cases a with
    | standard a =>
      refine iff_of_false nofun fun h => ?_
      obtain ⟨c, rest, hhead, hc⟩ := StandardAddress.IsRaw.head h
      rw [hhead] at hcompact
      obtain h | ⟨body, h⟩ := hcompact
      · cases h
      · exact hc (List.cons.inj h).1
    | external a =>
      simp only [external.injEq, exists_eq_right', IsForm, ExternalAddress.ofCompact_eq_ok_iff]
  · obtain ⟨c, rest, hhead⟩ := List.exists_cons_of_ne_nil fun h => hcompact (.inl h)
    have hc : c ≠ ':' := fun hc => hcompact (.inr ⟨rest, hc ▸ hhead⟩)
    rw [ofText_of_raw hhead hc, Outcome.map_eq_ok]
    cases a with
    | standard a =>
      simp only [standard.injEq, exists_eq_right', IsForm, StandardAddress.ofRaw_eq_ok_iff]
    | external a =>
      refine iff_of_false nofun fun h => ?_
      exact hcompact (head_of_isCompact h)

end Address

end CellAbi
