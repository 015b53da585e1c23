import CellAbi.Proofs.Address.Text

/-!
# Text forms of all addresses

Every address has one text, which is read as that address.  An underscore ends the texts of the
external addresses whose bits do not end on a digit, and no others; and only the external address of
no bits has the empty text.

    ofText a.toText = .ok a ∧ (a.toText = b.toText ↔ a = b) ∧ …                (`toText_faithful`)
-/

namespace CellAbi

open Text

theorem mark_not_mem_encodeChars (bytes : List UInt8) : '_' ∉ Hex.encodeChars bytes := by
  have hdigit : ∀ d, d < 16 → Hex.digit d ≠ '_' := by decide
  intro h
  obtain ⟨b, -, hb⟩ := List.mem_flatMap.1 h
  have hlt := b.toNat_lt
  rw [Hex.encodeByte, List.mem_cons, List.mem_singleton] at hb
  rcases hb with hb | hb
  · exact hdigit (b.toNat / 16) (by omega) hb.symm
  · exact hdigit (b.toNat % 16) (by omega) hb.symm

/-- A raw text ends with its hash, or with the colon before it. -/
theorem StandardAddress.not_marked_toRaw (a : StandardAddress) :
    a.toRaw.toList.getLast? ≠ some '_' := by
  have hhash : '_' ∉ ':' :: Hex.encodeChars a.hash.bytes := by
    rw [List.mem_cons, not_or]
    exact ⟨by decide, mark_not_mem_encodeChars _⟩
  intro h
  rw [toList_toRaw, List.getLast?_append, List.getLast?_cons, Option.some_or,
    ← List.getLast?_cons] at h
  exact hhash (List.mem_of_getLast? h)

namespace ExternalAddress

/-- The addresses are those of at most 511 bits whose value fits them. -/
theorem exists_new_iff {value bits : Nat} :
    (∃ a, new value bits = .ok a ∧ a.value = value ∧ a.bits = bits) ↔
      bits ≤ 511 ∧ value < 2 ^ bits := by
  constructor
  · rintro ⟨a, -, rfl, rfl⟩
    exact ⟨a.bits_le, a.value_lt⟩
  · rintro ⟨hbits, hvalue⟩
    exact ⟨⟨value, bits, hbits, hvalue⟩, new_eq ⟨value, bits, hbits, hvalue⟩, rfl, rfl⟩

/-- A compact text is marked where the bits do not end on a digit. -/
theorem marked_toCompact_iff (a : ExternalAddress) :
    a.toCompactChars.getLast? = some '_' ↔ a.bits % 4 ≠ 0 := by
  rw [toCompactChars]
  split
  · next h => exact iff_of_false (by decide) fun hmod => hmod (by rw [h])
  split
  · next hmod =>
    refine iff_of_false (fun h => ?_) (not_not_intro hmod)
    rcases List.mem_cons.1 (List.mem_of_getLast? h) with h | h
    · exact absurd h (by decide)
    · exact mark_not_mem_digits _ _ h
  · next hmod => exact iff_of_true (by rw [List.getLast?_concat]) hmod

theorem toCompactChars_eq_nil_iff (a : ExternalAddress) : a.toCompactChars = [] ↔ a.bits = 0 := by
  rw [toCompactChars]
  split
  · next h => exact iff_of_true rfl h
  · next h =>
    refine iff_of_false ?_ h
    split
    · exact List.cons_ne_nil _ _
    · exact List.cons_ne_nil _ _

end ExternalAddress

namespace Address

theorem toText_inj {a b : Address} : a.toText = b.toText ↔ a = b := by
  refine ⟨fun h => ?_, congrArg toText⟩
  have ha := ofText_toText a
  rw [h, ofText_toText b] at ha
  exact (Except.ok.inj ha).symm

theorem marked_toText_iff (a : Address) :
    a.toText.toList.getLast? = some '_' ↔ ∃ e, a = external e ∧ e.bits % 4 ≠ 0 := by
  cases a with
  | standard a =>
    refine iff_of_false a.not_marked_toRaw ?_
    rintro ⟨e, h, -⟩
    cases h
  | external a =>
    rw [toText, ExternalAddress.toCompact, String.toList_ofList, a.marked_toCompact_iff]
    constructor
    · exact fun h => ⟨a, rfl, h⟩
    · rintro ⟨e, h, hbits⟩
      cases h
      exact hbits

theorem toText_eq_empty_iff (a : Address) : a.toText = "" ↔ ∃ e, a = external e ∧ e.bits = 0 := by
  rw [← String.toList_inj]
  cases a with
  | standard a =>
    obtain ⟨c, rest, htext, -⟩ := a.head_toRaw
    refine iff_of_false (fun h => ?_) ?_
    · rw [toText, htext] at h
      cases h
    · rintro ⟨e, h, -⟩
      cases h
  | external a =>
    show a.toCompact.toList = [] ↔ _
    rw [ExternalAddress.toCompact, String.toList_ofList, a.toCompactChars_eq_nil_iff]
    constructor
    · exact fun h => ⟨a, rfl, h⟩
    · rintro ⟨e, h, hbits⟩
      cases h
      exact hbits

/-- Every address, standard or external of at most 511 bits, is read back from its text, so that no
two addresses share one; the text ends with an underscore where the bits do not end on a digit, and
it is empty for the external address of no bits. -/
theorem toText_faithful :
    (∀ value bits, (∃ e, ExternalAddress.new value bits = .ok e ∧ e.value = value ∧ e.bits = bits) ↔
        bits ≤ 511 ∧ value < 2 ^ bits) ∧
      ∀ a : Address,
        ofText a.toText = .ok a ∧
        (∀ b : Address, a.toText = b.toText ↔ a = b) ∧
        (a.toText.toList.getLast? = some '_' ↔ ∃ e, a = external e ∧ e.bits % 4 ≠ 0) ∧
        (a.toText = "" ↔ ∃ e, a = external e ∧ e.bits = 0) :=
  ⟨fun _ _ => ExternalAddress.exists_new_iff, fun a =>
    ⟨a.ofText_toText, fun _ => toText_inj, a.marked_toText_iff, a.toText_eq_empty_iff⟩⟩

end Address

end CellAbi
