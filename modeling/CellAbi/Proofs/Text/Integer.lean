import CellAbi.Value.Json
import CellAbi.Proofs.Text.Base64

/-!
# Decimal texts round trip

    integerOfText (trim (toString i).toList) = .ok i                   (`integerOfText_trim_toString`)
    integer? (toString i).toList = some i                                       (`integer?_toString`)
-/

namespace CellAbi

namespace Text

/-! ## Decimal digits -/

theorem toList_toString_nat (n : Nat) : (toString n).toList = Nat.toDigits 10 n := Nat.toList_repr

theorem toList_toString_ofNat (n : Nat) :
    (toString (Int.ofNat n)).toList = Nat.toDigits 10 n := Nat.toList_repr

theorem toList_toString_negSucc (n : Nat) :
    (toString (Int.negSucc n)).toList = '-' :: Nat.toDigits 10 (n + 1) := by
  show ("-" ++ (n + 1).repr).toList = _
  rw [String.toList_append, Nat.toList_repr]
  rfl

theorem isDigit_of_mem {n : Nat} {c : Char} (h : c ∈ Nat.toDigits 10 n) : c.isDigit = true :=
  Nat.isDigit_of_mem_toDigits (by decide) (by decide) h

theorem ne_of_isDigit {c d : Char} (hc : c.isDigit = true) (hd : d.isDigit = false) : c ≠ d := by
  rintro rfl
  rw [hc] at hd
  cases hd

theorem isDigit_iff {c : Char} : c.isDigit = true ↔ 48 ≤ c.toNat ∧ c.toNat ≤ 57 :=
  Char.isDigit_iff_toNat

theorem not_isBlank_of_isDigit {c : Char} (h : c.isDigit = true) : isBlank c = false := by
  rw [isDigit_iff] at h
  simp only [isBlank, Bool.or_eq_false_iff, Bool.and_eq_false_iff, decide_eq_false_iff_not,
    beq_eq_false_iff_ne]
  omega

theorem not_isBlank_of_mem_toString (i : Int) :
    ∀ c ∈ (toString i).toList, isBlank c = false := by
  cases i with
  | ofNat n =>
    rw [toList_toString_ofNat]
    exact fun c hc => not_isBlank_of_isDigit (isDigit_of_mem hc)
  | negSucc n =>
    rw [toList_toString_negSucc, List.forall_mem_cons]
    exact ⟨by decide, fun c hc => not_isBlank_of_isDigit (isDigit_of_mem hc)⟩

theorem integer?_toString (i : Int) : integer? (toString i).toList = some i := by
  cases i with
  | ofNat n =>
    rw [toList_toString_ofNat]
    have hdigits := natural?_toDigits n
    unfold integer?
    split
    · next rest h =>
      have hc := isDigit_of_mem (c := '-') (h ▸ List.mem_cons_self)
      exact absurd hc (by decide)
    · next rest h =>
      have hc := isDigit_of_mem (c := '+') (h ▸ List.mem_cons_self)
      exact absurd hc (by decide)
    · rw [hdigits]
      rfl
  | negSucc n =>
    rw [toList_toString_negSucc]
    rw [integer?, natural?_toDigits]
    rfl

end Text

namespace Value

open Text

/-! ## Integer texts -/

theorem digitValue?_of_isDigit {c : Char} (h : c.isDigit = true) :
    digitValue? c = some (c.toNat - 48) ∧ c.toNat - 48 < 10 := by
  rw [isDigit_iff] at h
  have hrange : '0' ≤ c ∧ c ≤ '9' := by
    rw [Char.le_def, Char.le_def, UInt32.le_iff_toNat_le, UInt32.le_iff_toNat_le]
    exact h
  exact ⟨if_pos hrange, by omega⟩

theorem appendDigits_of_isDigit {text : List Char} (h : ∀ c ∈ text, c.isDigit = true) (n : Nat) :
    appendDigits 10 n text = .ok (Nat.ofDigitChars 10 text n) := by
  induction text generalizing n with
  | nil => rw [appendDigits, Nat.ofDigitChars_nil]
  | cons c text ih =>
    have hc := h c List.mem_cons_self
    obtain ⟨hvalue, hlt⟩ := digitValue?_of_isDigit hc
    rw [appendDigits, hvalue]
    · show (if c.toNat - 48 < 10 then _ else _) = _
      rw [if_pos hlt, ih (fun c hc => h c (List.mem_cons_of_mem _ hc)), Nat.ofDigitChars_cons]
      rfl
    · exact ne_of_isDigit hc (by decide)

section
variable {text : List Char} (hdigit : ∀ c ∈ text, c.isDigit = true)
include hdigit

theorem head_isDigit {c : Char} {rest : List Char} (h : text = c :: rest) : c.isDigit = true :=
  hdigit c (h ▸ List.mem_cons_self)

theorem magnitude_of_isDigit (hne : text ≠ []) :
    magnitude 10 text = .ok (Nat.ofDigitChars 10 text 0) := by
  unfold magnitude
  split
  · exact absurd rfl hne
  · next rest => exact absurd (head_isDigit hdigit rfl) (by decide)
  · exact appendDigits_of_isDigit hdigit 0

theorem plusMagnitude_of_isDigit (hne : text ≠ []) :
    plusMagnitude 10 text = .ok (Nat.ofDigitChars 10 text 0) := by
  unfold plusMagnitude
  split
  · next rest => exact absurd (head_isDigit hdigit rfl) (by decide)
  · next rest _ => exact absurd (head_isDigit hdigit rfl) (by decide)
  · exact magnitude_of_isDigit hdigit hne

theorem signedMagnitude_of_isDigit (hne : text ≠ []) :
    signedMagnitude 10 text = .ok (Nat.ofDigitChars 10 text 0 : Int) := by
  unfold signedMagnitude
  split
  · next rest => exact absurd (head_isDigit hdigit rfl) (by decide)
  · next rest _ => exact absurd (head_isDigit hdigit rfl) (by decide)
  · rw [plusMagnitude_of_isDigit hdigit hne]
    rfl

/-- Digits are decimal, whatever the first two of them are, with a minus before them or without. -/
theorem integerOfText_of_isDigit (hne : text ≠ []) :
    integerOfText text = .ok (Nat.ofDigitChars 10 text 0 : Int) ∧
      integerOfText ('-' :: text) = .ok (-(Nat.ofDigitChars 10 text 0 : Int)) := by
  have hvalue := signedMagnitude_of_isDigit hdigit hne
  constructor
  · unfold integerOfText
    split
    next negative rest hsplit =>
    have hplain : negative = false ∧ rest = text := by
      split at hsplit
      · exact absurd (head_isDigit hdigit rfl) (by decide)
      · cases hsplit
        exact ⟨rfl, rfl⟩
    obtain ⟨rfl, rfl⟩ := hplain
    simp only [Bool.false_eq_true, if_false]
    split
    · next rest => exact absurd (hdigit 'x' (by simp)) (by decide)
    · next rest => exact absurd (hdigit 'X' (by simp)) (by decide)
    · rw [hvalue]
      rfl
  · unfold integerOfText
    simp only [if_true]
    split
    · next rest => exact absurd (hdigit 'x' (by simp)) (by decide)
    · next rest => exact absurd (hdigit 'X' (by simp)) (by decide)
    · rw [hvalue]
      rfl

end

theorem integerOfText_toString (i : Int) : integerOfText (toString i).toList = .ok i := by
  have hdigit : ∀ n, ∀ c ∈ Nat.toDigits 10 n, c.isDigit = true := fun n c hc => isDigit_of_mem hc
  cases i with
  | ofNat n =>
    rw [toList_toString_ofNat, (integerOfText_of_isDigit (hdigit n) Nat.toDigits_ne_nil).1,
      Nat.ofDigitChars_ten_toDigits]
    rfl
  | negSucc n =>
    rw [toList_toString_negSucc,
      (integerOfText_of_isDigit (hdigit (n + 1)) Nat.toDigits_ne_nil).2,
      Nat.ofDigitChars_ten_toDigits]
    rfl

/-- Writing puts no blanks around an integer, and reading gives it back. -/
theorem integerOfText_trim_toString (i : Int) :
    integerOfText (trim (toString i).toList) = .ok i := by
  rw [trim_eq_self (not_isBlank_of_mem_toString i), integerOfText_toString]

end Value

end CellAbi
