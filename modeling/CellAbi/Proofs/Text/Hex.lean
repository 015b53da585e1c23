import CellAbi.Proofs.Outcome
import CellAbi.Proofs.Text.Words
import CellAbi.Text.Hex

/-!
# Hexadecimal digits of either case

Pairs of digits are read as the bytes that are written as the same digits in lower case, and no
other text is read.

    digitValue? c = some d ↔ d < 16 ∧ c.toLower = digit d                        (`digitValue?_iff`)
    decodeChars text = .ok bytes ↔ text.map Char.toLower = encodeChars bytes     (`decodeChars_iff`)
-/

namespace CellAbi.Text.Hex

variable {c : Char} {d : Nat} {text : List Char} {bytes : List UInt8}

/-! ## Digits -/

theorem toNat_lt_of_digitValue? (h : digitValue? c = some d) : c.toNat < 0x80 := by
  have hbelow : ∀ last : Char, last.toNat < 0x80 → c ≤ last → c.toNat < 0x80 := fun _ hlast hc =>
    Nat.lt_of_le_of_lt (UInt32.le_iff_toNat_le.1 hc) hlast
  unfold digitValue? at h
  split at h
  · next hc => exact hbelow _ (by decide) hc.2
  split at h
  · next hc => exact hbelow _ (by decide) hc.2
  split at h
  · next hc => exact hbelow _ (by decide) hc.2
  · cases h

theorem digitValue?_iff : digitValue? c = some d ↔ d < 16 ∧ c.toLower = digit d := by
  constructor
  · intro h
    have hall : ∀ d ∈ digitValue? c, d < 16 ∧ c.toLower = digit d :=
      forall_ascii (P := fun c => ∀ d ∈ digitValue? c, d < 16 ∧ c.toLower = digit d) (by decide)
        (toNat_lt_of_digitValue? h)
    exact hall d h
  · rintro ⟨hd, hc⟩
    have hdigit : ∀ d < 16, (digit d).toNat < 0x80 := by decide
    have hascii : c.toNat < 0x80 := Decidable.byContradiction fun hbeyond => by
      rw [toLower_eq_self hbeyond] at hc
      exact hbeyond (hc ▸ hdigit d hd)
    have hall : ∀ d < 16, c.toLower = digit d → digitValue? c = some d :=
      forall_ascii (P := fun c => ∀ d < 16, c.toLower = digit d → digitValue? c = some d)
        (by decide) hascii
    exact hall d hd hc

/-! ## Pairs of digits -/

/-- Two digits in front of a text that is read. -/
theorem decodePairs_cons {c d : Char} {index high low : Nat} (hc : digitValue? c = some high)
    (hd : digitValue? d = some low) (h : decodePairs (index + 2) text = .ok bytes) :
    decodePairs index (c :: d :: text) = .ok (UInt8.ofNat (16 * high + low) :: bytes) := by
  rw [decodePairs, hc, hd]
  exact Outcome.bind_pure_eq_ok.2 ⟨bytes, h, rfl⟩

theorem encode_of_decodePairs {index : Nat} (h : decodePairs index text = .ok bytes) :
    text.map Char.toLower = encodeChars bytes := by
  fun_induction decodePairs index text generalizing bytes with
  | case1 =>
    obtain rfl := Except.ok.inj h
    rfl
  | case2 => cases h
  | case3 => cases h
  | case4 => cases h
  | case5 index c d rest high low hhigh hlow ih =>
    obtain ⟨more, hmore, rfl⟩ := Outcome.bind_pure_eq_ok.1 h
    obtain ⟨hhigh16, hc⟩ := digitValue?_iff.1 hhigh
    obtain ⟨hlow16, hd⟩ := digitValue?_iff.1 hlow
    have hbyte : (UInt8.ofNat (16 * high + low)).toNat = 16 * high + low :=
      UInt8.toNat_ofNat_of_lt' (show _ < 2 ^ 8 by omega)
    have hdiv : (16 * high + low) / 16 = high := by omega
    have hmod : (16 * high + low) % 16 = low := by omega
    rw [encodeChars, List.flatMap_cons, encodeByte, hbyte, hdiv, hmod, List.map_cons,
      List.map_cons, hc, hd, ih hmore]
    rfl

/-- By the bytes, each of which takes two digits. -/
theorem decodePairs_of_encode {index : Nat} (h : text.map Char.toLower = encodeChars bytes) :
    decodePairs index text = .ok bytes := by
  induction bytes generalizing index text with
  | nil =>
    obtain rfl := List.map_eq_nil_iff.1 h
    rfl
  | cons b bytes ih =>
    obtain ⟨c, rest, rfl, hc, hrest⟩ := List.map_eq_cons_iff.1 h
    obtain ⟨d, rest, rfl, hd, hrest⟩ := List.map_eq_cons_iff.1 hrest
    have hb := b.toNat_lt
    have hbyte : UInt8.ofNat (16 * (b.toNat / 16) + b.toNat % 16) = b := by
      rw [Nat.div_add_mod, UInt8.ofNat_toNat]
    rw [decodePairs_cons (digitValue?_iff.2 ⟨by omega, hc⟩) (digitValue?_iff.2 ⟨by omega, hd⟩)
      (ih hrest), hbyte]

/-- A letter takes as many bytes in either case. -/
theorem length_utf8_toLower (c : Char) :
    (String.utf8EncodeChar c.toLower).length = (String.utf8EncodeChar c).length := by
  by_cases hc : c.toNat < 0x80
  · exact forall_ascii (P := fun c => (String.utf8EncodeChar c.toLower).length =
      (String.utf8EncodeChar c).length) (by decide) hc
  · rw [toLower_eq_self hc]

theorem decodeChars_iff : decodeChars text = .ok bytes ↔
    text.map Char.toLower = encodeChars bytes := by
  unfold decodeChars
  split
  · next hodd =>
    refine iff_of_false nofun fun h => ?_
    have hlength := length_utf8_encodeChars bytes
    rw [← h, List.flatMap_map, List.length_flatMap] at hlength
    simp only [length_utf8_toLower] at hlength
    rw [List.length_flatMap, hlength] at hodd
    omega
  · exact ⟨encode_of_decodePairs, decodePairs_of_encode⟩

end CellAbi.Text.Hex
