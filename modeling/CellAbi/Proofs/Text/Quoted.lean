import CellAbi.Text.Quoted

/-!
# What a literal quotes

A string literal can be read in one way only: it tells where it ends, whatever follows it, and which
text it quotes.

    Nat.toDigits 16 m = Nat.toDigits 16 n → m = n                               (`toDigits_inj`)
    quoteChar '"' c ++ rest = quoteChar '"' d ++ rest' → c = d ∧ rest = rest'
                                                                     (`quoteChar_append_inj`)
    (quoted a).toList ++ rest = (quoted b).toList ++ rest' → a = b ∧ rest = rest'
                                                                        (`quoted_append_inj`)
-/

namespace CellAbi.Text

variable {rest rest' : List Char}

/-! ## Numbers of characters -/

theorem exists_digitChar_of_mem {n : Nat} {c : Char} (h : c ∈ Nat.toDigits 16 n) :
    ∃ d < 16, c = Nat.digitChar d := by
  induction n using Nat.strongRecOn with
  | ind n ih =>
    obtain hlt | hle := Nat.lt_or_ge n 16
    · rw [Nat.toDigits_of_lt_base hlt, List.mem_singleton] at h
      exact ⟨n, hlt, h⟩
    · rw [Nat.toDigits_of_base_le (by decide) hle, List.mem_append, List.mem_singleton] at h
      obtain h | h := h
      · exact ih (n / 16) (by omega) h
      · exact ⟨n % 16, by omega, h⟩

theorem toDigits_inj {m n : Nat} (h : Nat.toDigits 16 m = Nat.toDigits 16 n) : m = n := by
  have hdigit : ∀ m < 16, ∀ n < 16, Nat.digitChar m = Nat.digitChar n → m = n := by decide
  have hlast {k : Nat} (hk : 16 ≤ k) :
      Nat.toDigits 16 k = Nat.toDigits 16 (k / 16) ++ [Nat.digitChar (k % 16)] :=
    Nat.toDigits_of_base_le (by decide) hk
  have hone {j k : Nat} (hj : j < 16) (hk : 16 ≤ k) : Nat.toDigits 16 j ≠ Nat.toDigits 16 k := by
    intro h
    rw [Nat.toDigits_of_lt_base hj, hlast hk, ← List.nil_append [Nat.digitChar j]] at h
    exact Nat.toDigits_ne_nil (List.append_inj' h rfl).1.symm
  induction m using Nat.strongRecOn generalizing n with
  | ind m ih =>
    obtain hm | hm := Nat.lt_or_ge m 16 <;> obtain hn | hn := Nat.lt_or_ge n 16
    · rw [Nat.toDigits_of_lt_base hm, Nat.toDigits_of_lt_base hn] at h
      exact hdigit m hm n hn (List.singleton_inj.1 h)
    · exact absurd h (hone hm hn)
    · exact absurd h.symm (hone hn hm)
    · rw [hlast hm, hlast hn] at h
      obtain ⟨hfront, hback⟩ := List.append_inj' h rfl
      have hquot : m / 16 = n / 16 := ih (m / 16) (by omega) hfront
      have hrem : m % 16 = n % 16 :=
        hdigit _ (by omega) _ (by omega) (List.singleton_inj.1 hback)
      omega

theorem append_mark_inj {mark : Char} {front front' : List Char} (hfront : mark ∉ front)
    (hfront' : mark ∉ front') (h : front ++ mark :: rest = front' ++ mark :: rest') :
    front = front' ∧ rest = rest' := by
  obtain ⟨_ | ⟨c, between⟩, heq, hrest⟩ | ⟨_ | ⟨c, between⟩, heq, hrest⟩ :=
    List.append_eq_append_iff.1 h
  · exact ⟨by rw [heq, List.append_nil], (List.cons.inj hrest).2⟩
  · refine absurd ?_ hfront'
    rw [heq, (List.cons.inj hrest).1]
    exact List.mem_append_right _ List.mem_cons_self
  · exact ⟨by rw [heq, List.append_nil], (List.cons.inj hrest).2.symm⟩
  · refine absurd ?_ hfront
    rw [heq, (List.cons.inj hrest).1]
    exact List.mem_append_right _ List.mem_cons_self

/-- Up to the mark that ends it, a number is read in one way. -/
theorem toDigits_append_inj {m n : Nat}
    (h : Nat.toDigits 16 m ++ '\x7d' :: rest = Nat.toDigits 16 n ++ '\x7d' :: rest') :
    m = n ∧ rest = rest' := by
  have hmark (k : Nat) : '\x7d' ∉ Nat.toDigits 16 k := by
    intro hmem
    obtain ⟨d, hd, heq⟩ := exists_digitChar_of_mem hmem
    have hall : ∀ d < 16, '\x7d' ≠ Nat.digitChar d := by decide
    exact hall d hd heq
  obtain ⟨hdigits, hrest⟩ := append_mark_inj (hmark m) (hmark n) h
  exact ⟨toDigits_inj hdigits, hrest⟩

/-! ## Characters -/

/-- The character that stands behind a backslash for `c`. -/
def unescape (c : Char) : Char :=
  if c = '0' then '\x00' else if c = 't' then '\t' else if c = 'r' then '\r'
  else if c = 'n' then '\n' else c

/-- A character is written behind a backslash, by its number, or as itself. -/
theorem quoteChar_cases (c : Char) :
    (∃ x, x ≠ 'u' ∧ c = unescape x ∧ quoteChar '"' c = ['\\', x]) ∨
    quoteChar '"' c = '\\' :: 'u' :: '\x7b' :: (Nat.toDigits 16 c.toNat ++ ['\x7d']) ∨
    c ≠ '\\' ∧ c ≠ '"' ∧ quoteChar '"' c = [c] := by
  unfold quoteChar
  split
  · next h =>
    rw [Bool.or_eq_true, beq_iff_eq, beq_iff_eq] at h
    obtain rfl | rfl := h
    · exact .inl ⟨'"', by decide, rfl, rfl⟩
    · exact .inl ⟨'\\', by decide, rfl, rfl⟩
  next h =>
  rw [Bool.or_eq_true, beq_iff_eq, beq_iff_eq, not_or] at h
  split
  · next hc => exact .inl ⟨'0', by decide, beq_iff_eq.1 hc, rfl⟩
  split
  · next hc => exact .inl ⟨'t', by decide, beq_iff_eq.1 hc, rfl⟩
  split
  · next hc => exact .inl ⟨'r', by decide, beq_iff_eq.1 hc, rfl⟩
  split
  · next hc => exact .inl ⟨'n', by decide, beq_iff_eq.1 hc, rfl⟩
  split
  · exact .inr (.inl rfl)
  · exact .inr (.inr ⟨h.2, h.1, rfl⟩)

theorem quoteChar_append_inj {c d : Char}
    (h : quoteChar '"' c ++ rest = quoteChar '"' d ++ rest') : c = d ∧ rest = rest' := by
  obtain ⟨x, hx, hcx, hc⟩ | hc | ⟨hc', -, hc⟩ := quoteChar_cases c <;>
    obtain ⟨y, hy, hdy, hd⟩ | hd | ⟨hd', -, hd⟩ := quoteChar_cases d <;>
    rw [hc, hd] at h <;>
    simp only [List.cons_append, List.nil_append, List.append_assoc, List.cons.injEq, true_and] at h
  · exact ⟨by rw [hcx, hdy, h.1], h.2⟩
  · exact absurd h.1 hx
  · exact absurd h.1.symm hd'
  · exact absurd h.1.symm hy
  · obtain ⟨hnum, hrest⟩ := toDigits_append_inj h
    exact ⟨Char.toNat_inj.1 hnum, hrest⟩
  · exact absurd h.1.symm hd'
  · exact absurd h.1 hc'
  · exact absurd h.1 hc'
  · exact h

/-- The quote that ends a literal is not the form of a character. -/
theorem quoteChar_append_ne {c : Char} : quoteChar '"' c ++ rest ≠ '"' :: rest' := by
  obtain ⟨x, -, -, hc⟩ | hc | ⟨-, hne, hc⟩ := quoteChar_cases c <;> rw [hc] <;> intro h
  · cases h
  · cases h
  · exact hne (List.cons.inj h).1

/-! ## Literals -/

theorem flatMap_quoteChar_append_inj {cs ds : List Char}
    (h : cs.flatMap (quoteChar '"') ++ '"' :: rest = ds.flatMap (quoteChar '"') ++ '"' :: rest') :
    cs = ds ∧ rest = rest' := by
  induction cs generalizing ds with
  | nil =>
    cases ds with
    | nil => exact ⟨rfl, (List.cons.inj h).2⟩
    | cons d ds =>
      rw [List.flatMap_cons, List.append_assoc] at h
      exact absurd h.symm quoteChar_append_ne
  | cons c cs ih =>
    cases ds with
    | nil =>
      rw [List.flatMap_cons, List.append_assoc] at h
      exact absurd h quoteChar_append_ne
    | cons d ds =>
      rw [List.flatMap_cons, List.flatMap_cons, List.append_assoc, List.append_assoc] at h
      obtain ⟨rfl, htail⟩ := quoteChar_append_inj h
      obtain ⟨rfl, hrest⟩ := ih htail
      exact ⟨rfl, hrest⟩

theorem toList_quoted (text : String) :
    (quoted text).toList = '"' :: (text.toList.flatMap (quoteChar '"') ++ ['"']) := by
  rw [quoted, String.toList_ofList, List.cons_append]

theorem quoted_append_inj {a b : String}
    (h : (quoted a).toList ++ rest = (quoted b).toList ++ rest') : a = b ∧ rest = rest' := by
  rw [toList_quoted, toList_quoted, List.cons_append, List.cons_append, List.append_assoc,
    List.append_assoc] at h
  obtain ⟨htext, hrest⟩ := flatMap_quoteChar_append_inj (List.cons.inj h).2
  exact ⟨String.toList_inj.1 htext, hrest⟩

end CellAbi.Text
