import CellAbi.Cell.Bag
import CellAbi.Proofs.Packing

/-!
# Completion tags

Data whose bits do not fill whole bytes carries a completion tag, a set bit behind the last data
bit.  Stripping the tag finds the last set bit, clears it and counts the bits before it.

    Packed data n → n % 8 ≠ 0 → stripTag? (taggedData data n) = some (data, n)   (`stripTag?_taggedData`)

A tag may also stand alone in its byte.  The byte stays then, so the stripped data has one byte
more than its bits need (`length_of_stripTag?`).
-/

namespace CellAbi.Bag

open Bits

/-! ## The lowest set bit of a byte -/

theorem trailingZeros_spec {b : UInt8} (h : b ≠ 0) :
    trailingZeros b < 8 ∧ b.toNat.testBit (trailingZeros b) = true ∧
      ∀ i, i < trailingZeros b → b.toNat.testBit i = false := by
  unfold trailingZeros
  cases hf : (List.range 8).find? b.toNat.testBit with
  | some z =>
    rw [List.find?_range_eq_some] at hf
    obtain ⟨hz, hmem, hlow⟩ := hf
    refine ⟨List.mem_range.1 hmem, hz, fun i hi => ?_⟩
    have := hlow i hi
    simpa using this
  | none =>
    rw [List.find?_eq_none] at hf
    refine absurd (byte_ext fun i hi => ?_) h
    have := hf i (List.mem_range.2 hi)
    simpa using this

theorem testBit_unmask_all : ∀ z, z < 8 → ∀ i, i < 8 →
    (~~~((1 : UInt8) <<< UInt8.ofNat z)).toNat.testBit i = decide (i ≠ z) := by
  decide

theorem testBit_clear (b : UInt8) {z i : Nat} (hz : z < 8) (hi : i < 8) :
    (b &&& ~~~((1 : UInt8) <<< UInt8.ofNat z)).toNat.testBit i =
      (b.toNat.testBit i && decide (i ≠ z)) := by
  rw [UInt8.toNat_and, Nat.testBit_and, testBit_unmask_all z hz i hi]

/-! ## Stripping -/

/-- Only the last byte changes, in the bit of the tag. -/
theorem exists_of_stripTag? {data stripped : List UInt8} {n : Nat}
    (h : stripTag? data = some (stripped, n)) :
    ∃ front last, last ≠ 0 ∧ data = front ++ [last] ∧
      stripped = front ++ [last &&& ~~~((1 : UInt8) <<< UInt8.ofNat (trailingZeros last))] ∧
      n = (front.length + 1) * 8 - trailingZeros last - 1 := by
  unfold stripTag? at h
  cases hl : data.getLast? with
  | none => rw [hl] at h; cases h
  | some last =>
    obtain ⟨front, rfl⟩ := List.getLast?_eq_some_iff.1 hl
    rw [hl] at h
    simp only at h
    split at h
    · cases h
    · next hne =>
      simp only [List.dropLast_concat, List.length_append, List.length_singleton,
        Option.some.injEq, Prod.mk.injEq] at h
      exact ⟨front, last, hne, rfl, h.1.symm, h.2.symm⟩

/-- Bit `i` behind `front` is bit `7 - (i - 8 * front.length)` of the last byte. -/
theorem get_concat (front : List UInt8) (b : UInt8) {i : Nat} (h : 8 * front.length ≤ i)
    (hi : i < 8 * (front.length + 1)) :
    get (front ++ [b]) i = b.toNat.testBit (7 - (i - 8 * front.length)) := by
  rw [get_append, if_neg (by omega), get_cons, if_pos (by omega)]

theorem get_concat_of_le (front : List UInt8) (b : UInt8) {i : Nat}
    (h : 8 * (front.length + 1) ≤ i) : get (front ++ [b]) i = false := by
  apply get_of_length_le
  rwa [List.length_append, List.length_singleton]

/-- The tag is the last set bit; the stripped data has all bits but this one. -/
theorem stripTag?_spec {data stripped : List UInt8} {n : Nat}
    (h : stripTag? data = some (stripped, n)) :
    stripped.length = data.length ∧ n < 8 * data.length ∧ 8 * data.length ≤ n + 8 ∧
      get data n = true ∧ (∀ i, n < i → get data i = false) ∧
      ∀ i, get stripped i = (get data i && decide (i ≠ n)) := by
  obtain ⟨front, last, hne, rfl, rfl, rfl⟩ := exists_of_stripTag? h
  obtain ⟨hz, hset, hlow⟩ := trailingZeros_spec hne
  generalize trailingZeros last = z at hz hset hlow
  simp only [List.length_append, List.length_singleton]
  refine ⟨trivial, by omega, by omega, ?_, ?_, ?_⟩
  · rw [get_concat front last (by omega) (by omega)]
    rwa [show 7 - ((front.length + 1) * 8 - z - 1 - 8 * front.length) = z by omega]
  · intro i hi
    by_cases h2 : i < 8 * (front.length + 1)
    · rw [get_concat front last (by omega) h2]
      exact hlow _ (by omega)
    · exact get_concat_of_le front last (Nat.not_lt.1 h2)
  · intro i
    by_cases h1 : i < 8 * front.length
    · rw [get_append, if_pos h1, get_append, if_pos h1,
        decide_eq_true (show i ≠ (front.length + 1) * 8 - z - 1 by omega), Bool.and_true]
    · have h1 := Nat.not_lt.1 h1
      by_cases h2 : i < 8 * (front.length + 1)
      · rw [get_concat front _ h1 h2, get_concat front _ h1 h2, testBit_clear last hz (by omega)]
        congr 1
        rw [decide_eq_decide]
        omega
      · have h2 := Nat.not_lt.1 h2
        rw [get_concat_of_le front _ h2, get_concat_of_le front _ h2, Bool.false_and]

theorem stripTag?_isSome {data : List UInt8} {last : UInt8} (h : data.getLast? = some last)
    (hne : last ≠ 0) : (stripTag? data).isSome := by
  unfold stripTag?
  rw [h]
  simp [hne]

/-- Stripped data has the bytes that its bits need, or one byte more where the tag stood alone in
the last byte. -/
theorem length_of_stripTag? {data stripped : List UInt8} {n : Nat}
    (h : stripTag? data = some (stripped, n)) :
    stripped.length = byteCount n + (if data.getLast? = some 0x80 then 1 else 0) ∧
      (data.getLast? = some 0x80 → n % 8 = 0) := by
  obtain ⟨front, last, hne, rfl, rfl, rfl⟩ := exists_of_stripTag? h
  obtain ⟨hz, hset, hlow⟩ := trailingZeros_spec hne
  simp only [List.getLast?_concat, Option.some.injEq, List.length_append, List.length_singleton]
  by_cases h80 : last = 0x80
  · have hz7 : trailingZeros 0x80 = 7 := by decide
    simp only [h80, hz7, byteCount, if_true]
    omega
  · -- a byte other than `0x80` has a set bit below bit 7
    have hz7 : trailingZeros last ≠ 7 := fun e => h80 (byte_ext fun i hi => by
      rw [e] at hset hlow
      rcases Nat.lt_or_ge i 7 with h | h
      · rw [hlow i h]
        exact (show ∀ i, i < 7 → false = (0x80 : UInt8).toNat.testBit i by decide) i h
      · obtain rfl : i = 7 := by omega
        rw [hset]
        decide)
    simp only [byteCount, h80, if_false, false_implies, and_true]
    omega

/-! ## Writing and stripping -/

theorem get_taggedData {data : List UInt8} {n : Nat} (h : Packed data n) (hn : n % 8 ≠ 0) (i : Nat) :
    get (Cell.taggedData data n) i = (get data i || decide (i = n)) := by
  have hlen := h.1
  unfold byteCount at hlen
  rw [Cell.taggedData, if_neg hn, show data.length - 1 = n / 8 by omega]
  exact get_modify_mask (by omega) i

theorem length_taggedData (data : List UInt8) (n : Nat) :
    (Cell.taggedData data n).length = data.length := by
  unfold Cell.taggedData
  split
  · rfl
  · rw [List.length_modify]

/-- Stripping takes off the tag that was written. -/
theorem stripTag?_taggedData {data : List UInt8} {n : Nat} (h : Packed data n) (hn : n % 8 ≠ 0) :
    stripTag? (Cell.taggedData data n) = some (data, n) := by
  have hlen := h.1
  unfold byteCount at hlen
  have hget := get_taggedData h hn
  have htag : get (Cell.taggedData data n) n = true := by rw [hget, decide_eq_true rfl, Bool.or_true]
  have htop : ∀ i, n < i → get (Cell.taggedData data n) i = false := by
    intro i hi
    rw [hget, h.2 i (by omega), decide_eq_false (by omega), Bool.or_false]
  -- the tag lies in the last byte, which is therefore not zero
  have hsome : (stripTag? (Cell.taggedData data n)).isSome := by
    have hpos : 0 < (Cell.taggedData data n).length := by rw [length_taggedData]; omega
    obtain ⟨last, hlast⟩ : ∃ last, (Cell.taggedData data n).getLast? = some last :=
      ⟨_, List.getLast?_eq_some_getLast (List.length_pos_iff.1 hpos)⟩
    refine stripTag?_isSome hlast fun h0 => ?_
    subst h0
    have hbyte : (Cell.taggedData data n)[n / 8]? = some 0 := by
      rw [← hlast, List.getLast?_eq_getElem?, length_taggedData]
      congr 1
      omega
    rw [get_eq_testBit hbyte] at htag
    simp at htag
  obtain ⟨⟨stripped, m⟩, hstrip⟩ := Option.isSome_iff_exists.1 hsome
  obtain ⟨hslen, -, -, hset, hpast, hgets⟩ := stripTag?_spec hstrip
  have hm : m = n := by
    rcases Nat.lt_trichotomy m n with hlt | heq | hgt
    · rw [hpast n hlt] at htag
      cases htag
    · exact heq
    · rw [htop m hgt] at hset
      cases hset
  subst hm
  have hdata : stripped = data := by
    apply bytes_ext (by rw [hslen, length_taggedData])
    intro i _
    rw [hgets, hget]
    by_cases hi : i = m
    · simp [hi, h.2 m (Nat.le_refl m)]
    · simp [hi]
  rw [hstrip, hdata]

end CellAbi.Bag
