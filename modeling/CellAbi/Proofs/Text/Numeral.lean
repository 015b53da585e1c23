import Mathlib.Data.List.Basic
import CellAbi.Proofs.Text.Integer

/-!
# Leading zeros

A numeral has a leading zero if a zero begins its run of digits; without one, it is what its value
is written as.

    LeadingZero (front ++ back) ↔ LeadingZero front ∨ LeadingZero back
      where no run of digits goes on from one into the other                  (`leadingZero_append`)
    Nat.toDigits 10 (Nat.ofDigitChars 10 digits 0) = digits
      for digits without a leading zero                                    (`toDigits_ofDigitChars`)
-/

namespace CellAbi.Text

variable {text front back digits : List Char}

/-- A zero begins a run of digits. -/
def LeadingZero (text : List Char) : Prop :=
  ∃ front back, text = front ++ '0' :: back ∧ front.getLast?.any Char.isDigit = false

theorem not_leadingZero (h : '0' ∉ text) : ¬ LeadingZero text := by
  rintro ⟨front, back, rfl, -⟩
  exact h (List.mem_append_right _ List.mem_cons_self)

theorem leadingZero_of_head (h : text.head? = some '0') : LeadingZero text := by
  cases text with
  | nil => cases h
  | cons c rest =>
    obtain rfl := Option.some.inj h
    exact ⟨[], rest, rfl, rfl⟩

/-- Where no run of digits goes on from one text into the next, the runs of both are apart. -/
theorem leadingZero_append
    (hapart : front.getLast?.any Char.isDigit = false ∨ back.head?.any Char.isDigit = false) :
    LeadingZero (front ++ back) ↔ LeadingZero front ∨ LeadingZero back := by
  constructor
  · rintro ⟨l, r, h, hlast⟩
    rcases List.append_eq_append_iff.1 h with ⟨m, rfl, hback⟩ | ⟨m, hfront, hm⟩
    · refine .inr ⟨m, r, hback, ?_⟩
      rw [List.getLast?_append] at hlast
      cases hl : m.getLast? with
      | none => rfl
      | some x => rwa [hl] at hlast
    · cases m with
      | nil => exact .inr (leadingZero_of_head (by rw [← List.nil_append back, ← hm]; rfl))
      | cons x m =>
        obtain ⟨rfl, -⟩ := List.cons.inj hm
        exact .inl ⟨l, m, hfront, hlast⟩
  · rintro (⟨l, r, rfl, hlast⟩ | ⟨l, r, rfl, hlast⟩)
    · exact ⟨l, r ++ back, List.append_assoc .., hlast⟩
    · refine ⟨front ++ l, r, (List.append_assoc ..).symm, ?_⟩
      rw [List.getLast?_append]
      cases l with
      | nil => exact hapart.resolve_right Bool.false_ne_true.symm
      | cons x l =>
        rw [List.getLast?_cons] at hlast ⊢
        exact hlast

/-- Among digits alone, only the first one can begin the run. -/
theorem head_of_leadingZero (hdigit : ∀ c ∈ digits, c.isDigit = true) (h : LeadingZero digits) :
    digits.head? = some '0' := by
  obtain ⟨l, r, rfl, hlast⟩ := h
  cases hl : l.getLast? with
  | none =>
    rw [List.getLast?_eq_none_iff.1 hl]
    rfl
  | some x =>
    have hx : x.isDigit = true := hdigit x (List.mem_append_left _ (List.mem_of_getLast? hl))
    rw [hl] at hlast
    exact absurd (hx.symm.trans hlast) Bool.false_ne_true.symm

theorem digitChar_toNat_sub {c : Char} (hc : c.isDigit = true) :
    c.toNat - 48 < 10 ∧ Nat.digitChar (c.toNat - 48) = c := by
  have hrange := isDigit_iff.1 hc
  have hall : ∀ n, n < 10 → Nat.digitChar n = Char.ofNat (n + 48) := by decide
  refine ⟨by omega, ?_⟩
  rw [hall _ (by omega), Nat.sub_add_cancel hrange.1, Char.ofNat_toNat]

/-- Digits behind a positive number are appended to it. -/
theorem toDigits_ofDigitChars_of_pos (hdigit : ∀ c ∈ digits, c.isDigit = true) {n : Nat}
    (hn : 0 < n) :
    Nat.toDigits 10 (Nat.ofDigitChars 10 digits n) = Nat.toDigits 10 n ++ digits := by
  induction digits generalizing n with
  | nil => rw [Nat.ofDigitChars_nil, List.append_nil]
  | cons c digits ih =>
    obtain ⟨hc, hrest⟩ := List.forall_mem_cons.1 hdigit
    obtain ⟨hlt, hchar⟩ := digitChar_toNat_sub hc
    calc Nat.toDigits 10 (Nat.ofDigitChars 10 (c :: digits) n)
      _ = Nat.toDigits 10 (10 * n + (c.toNat - 48)) ++ digits := by
        rw [Nat.ofDigitChars_cons]
        exact ih hrest (by omega)
      _ = Nat.toDigits 10 n ++ Nat.toDigits 10 (c.toNat - 48) ++ digits := by
        rw [Nat.toDigits_append_toDigits (by decide) hn hlt]
      _ = Nat.toDigits 10 n ++ c :: digits := by
        rw [Nat.toDigits_of_lt_base hlt, hchar, List.append_assoc, List.singleton_append]

/-- Digits without a leading zero are those of their value. -/
theorem toDigits_ofDigitChars (hne : digits ≠ []) (hdigit : ∀ c ∈ digits, c.isDigit = true)
    (hzero : digits.head? ≠ some '0') :
    Nat.toDigits 10 (Nat.ofDigitChars 10 digits 0) = digits := by
  cases digits with
  | nil => exact absurd rfl hne
  | cons c digits =>
    obtain ⟨hc, hrest⟩ := List.forall_mem_cons.1 hdigit
    obtain ⟨hlt, hchar⟩ := digitChar_toNat_sub hc
    have hpos : 0 < c.toNat - 48 := by
      refine Nat.pos_of_ne_zero fun h => hzero ?_
      rw [← hchar, h]
      rfl
    rw [Nat.ofDigitChars_cons]
    show Nat.toDigits 10 (Nat.ofDigitChars 10 digits (10 * 0 + (c.toNat - 48))) = _
    rw [Nat.mul_zero, Nat.zero_add, toDigits_ofDigitChars_of_pos hrest hpos,
      Nat.toDigits_of_lt_base hlt, hchar, List.singleton_append]

theorem head_toDigits_ne {n : Nat} (hn : 0 < n) : (Nat.toDigits 10 n).head? ≠ some '0' := by
  induction n using Nat.strongRecOn with
  | ind n ih =>
    by_cases hlt : n < 10
    · rw [Nat.toDigits_of_lt_base hlt]
      have hall : ∀ n, n < 10 → 0 < n → [Nat.digitChar n].head? ≠ some '0' := by decide
      exact hall n hlt hn
    · rw [Nat.toDigits_of_base_le (by decide) (Nat.not_lt.1 hlt),
        List.head?_append_of_ne_nil _ Nat.toDigits_ne_nil]
      exact ih (n / 10) (by omega) (by omega)

/-- Positive numbers are written without leading zeros. -/
theorem not_leadingZero_toDigits {n : Nat} (hn : 0 < n) : ¬ LeadingZero (Nat.toDigits 10 n) :=
  fun h => head_toDigits_ne hn (head_of_leadingZero (fun _ => isDigit_of_mem) h)

end CellAbi.Text
