import CellAbi.Proofs.Address.Text
import CellAbi.Proofs.Exactness
import CellAbi.Proofs.Outcome
import CellAbi.Proofs.Packing
import CellAbi.Proofs.Text.Hex

/-!
# Texts of external addresses

A compact text stands for a bit string: the bits that its digits spell or, where an underscore
follows the digits, those in front of the last set one.  Digits may have either case, and any number
of zeros may fill the text behind the last set bit.  Reading gives the address of just these bits,
at most 511 of them, and counts them without leaving the range of its types.

    valueOfDigits? digits = some n ↔ ∃ bits, Spells digits bits ∧ n = Bits.toNat bits
                                                                    (`valueOfDigits?_eq_some_iff`)
    ofCompact text = .ok a ↔ IsCompact text.toList a.bitString              (`ofCompact_eq_ok_iff`)
    guardedOfCompact text = (ofCompact text).mapError .refused
      for texts of fewer than 2 ^ 30 bytes                                   (`guardedOfCompact_eq`)
-/

namespace CellAbi

/-! ## Numbers of bit strings -/

namespace Bits

theorem toNat_append (front back : List Bool) :
    toNat (front ++ back) = toNat front * 2 ^ back.length + toNat back := by
  induction front with
  | nil => rw [List.nil_append, show toNat [] = 0 from rfl, Nat.zero_mul, Nat.zero_add]
  | cons b front ih =>
    rw [List.cons_append, toNat_cons, toNat_cons, ih, List.length_append, Nat.pow_add,
      Nat.add_mul, Nat.mul_assoc, Nat.add_assoc]

theorem toNat_replicate_false (k : Nat) : toNat (List.replicate k false) = 0 := by
  induction k with
  | zero => rfl
  | succ k ih => rw [List.replicate_succ, toNat_cons, ih, Bool.toNat_false, Nat.zero_mul]

theorem eq_replicate_of_toNat_eq_zero {bits : List Bool} (h : toNat bits = 0) :
    bits = List.replicate bits.length false := by
  induction bits with
  | nil => rfl
  | cons b rest ih =>
    rw [toNat_cons] at h
    have hpow := Nat.two_pow_pos rest.length
    cases b with
    | false =>
      rw [List.length_cons, List.replicate_succ, ← ih (by omega)]
    | true =>
      rw [Bool.toNat_true] at h
      omega

/-- The bits up to the last set one, and the clear ones behind it. -/
theorem toNat_filled (front : List Bool) (k : Nat) :
    toNat (front ++ true :: List.replicate k false) = (2 * toNat front + 1) * 2 ^ k := by
  rw [toNat_append, toNat_cons, toNat_replicate_false, List.length_cons, List.length_replicate,
    Nat.pow_succ, Bool.toNat_true, Nat.mul_comm (2 ^ k), ← Nat.mul_assoc, Nat.mul_comm _ 2,
    Nat.add_zero, ← Nat.add_mul]

theorem exists_filled {bits : List Bool} (h : toNat bits ≠ 0) :
    ∃ front k, bits = front ++ true :: List.replicate k false := by
  induction bits with
  | nil => exact absurd rfl h
  | cons b rest ih =>
    by_cases hrest : toNat rest = 0
    · have hb : b = true := by
        rw [toNat_cons, hrest] at h
        cases b with
        | false => exact absurd (by simp) h
        | true => rfl
      exact ⟨[], rest.length, by rw [hb, List.nil_append, ← eq_replicate_of_toNat_eq_zero hrest]⟩
    · obtain ⟨front, k, rfl⟩ := ih hrest
      exact ⟨b :: front, k, rfl⟩

end Bits

namespace ExternalAddress

open Text

/-! ## Digits -/

/-- The character is the digit of this value, in lower or in upper case. -/
def IsDigit (c : Char) (d : Nat) : Prop := d < 16 ∧ (c = Hex.digit d ∨ c = digit d)

/-- The digits spell these bits, four each. -/
inductive Spells : List Char → List Bool → Prop
  | nil : Spells [] []
  | cons {c : Char} {d : Nat} {digits : List Char} {bits : List Bool} :
    IsDigit c d → Spells digits bits → Spells (c :: digits) (Bits.ofNat 4 d ++ bits)

variable {c : Char} {d n : Nat} {digits : List Char} {bits : List Bool}

theorem digitValue?_ofNat_all : ∀ n, n < 128 → ∀ d ∈ Hex.digitValue? (Char.ofNat n),
    d < 16 ∧ (Char.ofNat n = Hex.digit d ∨ Char.ofNat n = digit d) := by decide

theorem digitValue?_eq_some_iff : Hex.digitValue? c = some d ↔ IsDigit c d := by
  constructor
  · intro h
    have hc := digitValue?_ofNat_all c.toNat (Hex.toNat_lt_of_digitValue? h)
    rw [Char.ofNat_toNat] at hc
    exact hc d h
  · rintro ⟨hd, rfl | rfl⟩
    · exact Hex.digitValue?_digit hd
    · exact (digit_all d hd).1

theorem Spells.length_eq (h : Spells digits bits) : bits.length = 4 * digits.length := by
  induction h with
  | nil => rfl
  | cons _ _ ih =>
    rw [List.length_append, Bits.length_ofNat, ih, List.length_cons]
    omega

theorem Spells.mark_not_mem (h : Spells digits bits) : '_' ∉ digits := by
  induction h with
  | nil => exact List.not_mem_nil
  | cons hc _ ih =>
    rw [List.mem_cons, not_or]
    refine ⟨?_, ih⟩
    rintro rfl
    cases digitValue?_eq_some_iff.2 hc

/-- A digit behind a number `m`, and what follows the digit. -/
theorem value_digit_append (hd : d < 16) (m : Nat) (bits : List Bool) :
    m * 2 ^ (Bits.ofNat 4 d ++ bits).length + Bits.toNat (Bits.ofNat 4 d ++ bits) =
      (16 * m + d) * 2 ^ bits.length + Bits.toNat bits := by
  have hmod : d % 2 ^ 4 = d := Nat.mod_eq_of_lt hd
  have hpow : 2 ^ (4 + bits.length) = 16 * 2 ^ bits.length := Nat.pow_add ..
  rw [Bits.toNat_append, Bits.toNat_ofNat, hmod, List.length_append, Bits.length_ofNat, hpow,
    Nat.add_mul, Nat.mul_assoc 16, Nat.mul_left_comm m, Nat.add_assoc]

theorem foldl_none (digits : List Char) :
    digits.foldl (fun n c => do return 16 * (← n) + (← Hex.digitValue? c))
      (Option.none : Option Nat) = Option.none := by
  induction digits with
  | nil => rfl
  | cons c digits ih => exact ih

theorem foldl_eq_some_iff {m : Nat} :
    digits.foldl (fun n c => do return 16 * (← n) + (← Hex.digitValue? c)) (some m) = some n ↔
      ∃ bits, Spells digits bits ∧ n = m * 2 ^ bits.length + Bits.toNat bits := by
  induction digits generalizing m with
  | nil =>
    constructor
    · intro h
      cases h
      exact ⟨[], .nil, (Nat.mul_one n).symm⟩
    · rintro ⟨_, ⟨⟩, rfl⟩
      exact congrArg some (Nat.mul_one m).symm
  | cons c digits ih =>
    rw [List.foldl_cons]
    cases hc : Hex.digitValue? c with
    | none =>
      refine iff_of_false (fun h => ?_) ?_
      · cases (foldl_none digits).symm.trans h
      · rintro ⟨bits, hspells, -⟩
        cases hspells with
        | cons hdigit _ => cases hc.symm.trans (digitValue?_eq_some_iff.2 hdigit)
    | some d =>
      have hd := (digitValue?_eq_some_iff.1 hc).1
      show List.foldl _ (some (16 * m + d)) digits = some n ↔ _
      rw [ih]
      constructor
      · rintro ⟨bits, hbits, rfl⟩
        exact ⟨Bits.ofNat 4 d ++ bits, .cons (digitValue?_eq_some_iff.1 hc) hbits,
          (value_digit_append hd m bits).symm⟩
      · rintro ⟨_, hspells, rfl⟩
        cases hspells with
        | @cons _ d' _ bits hdigit hbits =>
          cases hc.symm.trans (digitValue?_eq_some_iff.2 hdigit)
          exact ⟨bits, hbits, value_digit_append hd m bits⟩

/-- The number of the digits is the number of the bits that they spell. -/
theorem valueOfDigits?_eq_some_iff :
    valueOfDigits? digits = some n ↔ ∃ bits, Spells digits bits ∧ n = Bits.toNat bits := by
  simp only [valueOfDigits?, foldl_eq_some_iff, Nat.zero_mul, Nat.zero_add]

/-! ## Bits -/

/-- The bits of the address, leading zeros included. -/
def bitString (a : ExternalAddress) : List Bool := Bits.ofNat a.bits a.value

variable {a : ExternalAddress} {text : String}

theorem length_bitString (a : ExternalAddress) : a.bitString.length = a.bits :=
  Bits.length_ofNat a.bits a.value

theorem new_toNat_eq_ok_iff : new (Bits.toNat bits) bits.length = .ok a ↔ a.bitString = bits := by
  constructor
  · intro h
    by_cases hlength : bits.length ≤ 511
    · rw [new_eq ⟨Bits.toNat bits, bits.length, hlength, Bits.toNat_lt bits⟩] at h
      cases h
      exact Bits.ofNat_toNat bits
    · rw [new, dif_neg hlength] at h
      cases h
  · rintro rfl
    rw [bitString, Bits.toNat_ofNat, Nat.mod_eq_of_lt a.value_lt, Bits.length_ofNat, a.new_eq]

theorem ok_none_iff : (.ok none : Except AddressError ExternalAddress) = .ok a ↔
    a.bitString = [] := by
  rw [← new_toNat_eq_ok_iff]
  rfl

/-! ## Texts -/

/-- A compact text and the bits that it stands for. -/
inductive IsCompact : List Char → List Bool → Prop
  | empty : IsCompact [] []
  | colon : IsCompact [':'] []
  | whole {digits : List Char} {bits : List Bool} :
    digits ≠ [] → Spells digits bits → bits.length ≤ 511 → IsCompact (':' :: digits) bits
  | filled {digits : List Char} {bits : List Bool} {k : Nat} :
    Spells digits (bits ++ true :: List.replicate k false) → bits.length ≤ 511 →
      IsCompact (':' :: (digits ++ ['_'])) bits

/-- What the last set bit marks and how many bits it takes with it. -/
theorem strip_filled (bits : List Bool) (k : Nat) :
    let value := Bits.toNat (bits ++ true :: List.replicate k false)
    value ≠ 0 ∧ trailingZeros value = k ∧ value / 2 ^ (k + 1) = Bits.toNat bits := by
  intro value
  have hvalue : value = (2 * Bits.toNat bits + 1) * 2 ^ k := Bits.toNat_filled bits k
  refine ⟨?_, ?_, ?_⟩
  · rw [hvalue]
    exact Nat.mul_ne_zero (Nat.succ_ne_zero _) (Nat.ne_of_gt (Nat.two_pow_pos k))
  · rw [hvalue, trailingZeros_mul]
  · rw [hvalue, Nat.pow_succ, Nat.mul_comm, Nat.mul_div_mul_left _ _ (Nat.two_pow_pos k)]
    omega

theorem ofDigits_of_spells (h : Spells digits bits) (hne : digits ≠ []) :
    ofDigits text digits false = new (Bits.toNat bits) bits.length := by
  rw [ofDigits, if_neg hne, valueOfDigits?_eq_some_iff.2 ⟨bits, h, rfl⟩, h.length_eq, Nat.mul_comm]
  rfl

theorem ofDigits_of_spells_filled {k : Nat}
    (h : Spells digits (bits ++ true :: List.replicate k false)) :
    ofDigits text digits true = new (Bits.toNat bits) bits.length := by
  obtain ⟨hpos, hzeros, hdiv⟩ := strip_filled bits k
  have hlength := h.length_eq
  have hne : digits ≠ [] := by
    rintro rfl
    simp at hlength
  rw [List.length_append, List.length_cons, List.length_replicate] at hlength
  rw [ofDigits, if_neg hne, valueOfDigits?_eq_some_iff.2 ⟨_, h, rfl⟩]
  simp only [Bool.not_true, Bool.false_eq_true, if_false, if_neg hpos, hzeros, hdiv]
  congr 1
  omega

/-- Nothing but digits is read. -/
theorem exists_spells {marked : Bool} (hne : digits ≠ [])
    (h : ofDigits text digits marked = .ok a) : ∃ bits, Spells digits bits := by
  cases hvalue : valueOfDigits? digits with
  | none =>
    rw [ofDigits, if_neg hne, hvalue] at h
    cases h
  | some value =>
    obtain ⟨bits, hspells, -⟩ := valueOfDigits?_eq_some_iff.1 hvalue
    exact ⟨bits, hspells⟩

theorem ofDigits_whole_eq_ok_iff (hne : digits ≠ []) :
    ofDigits text digits false = .ok a ↔ Spells digits a.bitString := by
  constructor
  · intro h
    obtain ⟨bits, hspells⟩ := exists_spells hne h
    rw [ofDigits_of_spells hspells hne, new_toNat_eq_ok_iff] at h
    rwa [h]
  · intro h
    rw [ofDigits_of_spells h hne, new_toNat_eq_ok_iff]

theorem ofDigits_filled_eq_ok_iff : ofDigits text digits true = .ok a ↔
    ∃ k, Spells digits (a.bitString ++ true :: List.replicate k false) := by
  constructor
  · intro h
    by_cases hne : digits = []
    · rw [ofDigits, if_pos hne] at h
      cases h
    obtain ⟨bits, hspells⟩ := exists_spells hne h
    by_cases hpos : Bits.toNat bits = 0
    · -- Without a set bit there is none that marks the end.
      rw [ofDigits, if_neg hne, valueOfDigits?_eq_some_iff.2 ⟨bits, hspells, rfl⟩] at h
      simp only [Bool.not_true, Bool.false_eq_true, if_false, if_pos hpos] at h
      cases h
    · obtain ⟨front, k, rfl⟩ := Bits.exists_filled hpos
      rw [ofDigits_of_spells_filled hspells, new_toNat_eq_ok_iff] at h
      rw [h]
      exact ⟨k, hspells⟩
  · rintro ⟨k, h⟩
    rw [ofDigits_of_spells_filled h, new_toNat_eq_ok_iff]

/-- A text with a mark at its end is none of digits alone. -/
theorem isCompact_concat_mark_iff : IsCompact (':' :: (digits ++ ['_'])) bits ↔
    bits.length ≤ 511 ∧ ∃ k, Spells digits (bits ++ true :: List.replicate k false) := by
  constructor
  · intro h
    generalize htext : ':' :: (digits ++ ['_']) = text at h
    cases h with
    | empty => cases htext
    | colon => simp at htext
    | whole _ hspells _ =>
      obtain rfl := List.tail_eq_of_cons_eq htext
      exact absurd (List.mem_append_right _ List.mem_cons_self) hspells.mark_not_mem
    | @filled digits' _ k hspells hlength =>
      obtain rfl := List.append_cancel_right (List.tail_eq_of_cons_eq htext)
      exact ⟨hlength, k, hspells⟩
  · rintro ⟨hlength, k, h⟩
    exact .filled h hlength

theorem isCompact_colon_iff (hmark : digits.getLast? ≠ some '_') : IsCompact (':' :: digits) bits ↔
    digits = [] ∧ bits = [] ∨ digits ≠ [] ∧ bits.length ≤ 511 ∧ Spells digits bits := by
  constructor
  · intro h
    generalize htext : ':' :: digits = text at h
    cases h with
    | empty => cases htext
    | colon => exact .inl ⟨List.tail_eq_of_cons_eq htext, rfl⟩
    | whole hne hspells hlength =>
      obtain rfl := List.tail_eq_of_cons_eq htext
      exact .inr ⟨hne, hlength, hspells⟩
    | filled _ _ =>
      obtain rfl := List.tail_eq_of_cons_eq htext
      exact absurd List.getLast?_concat hmark
  · rintro (⟨rfl, rfl⟩ | ⟨hne, hlength, h⟩)
    · exact .colon
    · exact .whole hne h hlength

/-- An underscore at the end is split off. -/
theorem splitMark_concat (digits : List Char) : splitMark (digits ++ ['_']) = (digits, true) := by
  rw [splitMark, List.getLast?_concat, if_pos rfl, List.dropLast_concat]

theorem ofCompact_eq_ok_iff : ofCompact text = .ok a ↔ IsCompact text.toList a.bitString := by
  have hlength : a.bitString.length ≤ 511 := by
    rw [a.length_bitString]
    exact a.bits_le
  unfold ofCompact
  split
  · next htext =>
    rw [htext, ok_none_iff]
    constructor
    · intro h
      rw [h]
      exact .empty
    · intro h
      generalize a.bitString = bits at h ⊢
      cases h
      rfl
  · next body htext =>
    rw [htext]
    by_cases hmark : body.getLast? = some '_'
    · obtain ⟨digits, rfl⟩ := List.getLast?_eq_some_iff.1 hmark
      simp only [splitMark_concat]
      rw [ofDigits_filled_eq_ok_iff, isCompact_concat_mark_iff, and_iff_right hlength]
    · simp only [splitMark, if_neg hmark]
      rw [isCompact_colon_iff hmark]
      by_cases hne : body = []
      · rw [ofDigits, if_pos hne, ← ok_none_iff]
        simp [hne]
      · rw [ofDigits_whole_eq_ok_iff hne]
        simp [hne, hlength]
  · next hnil hcolon =>
    refine iff_of_false (fun h => ?_) fun h => ?_
    · cases h
    · generalize htext : text.toList = chars at h
      generalize a.bitString = bits at h
      cases h with
      | empty => exact hnil htext
      | colon => exact hcolon _ htext
      | whole _ _ _ => exact hcolon _ htext
      | filled _ _ => exact hcolon _ htext

/-! ## Counting on a machine -/

open Exact

/-- A count in a word as one of 32 bits; a text that needs a greater one is refused. -/
def narrow (text : String) (count : Nat) : Except (Stop AddressError) Nat := do
  let count ← word count
  if count < 2 ^ 32 then return count else throw (.refused (.invalidExternal text))

/-- Reads the digits with every operation on their counts watched for faults. -/
def guardedOfDigits (text : String) (digits : List Char) (marked : Bool) :
    Except (Stop AddressError) ExternalAddress :=
  if digits = [] then if marked then .error (.refused (.invalidExternal text)) else .ok none
  else
    match valueOfDigits? digits with
    | Option.none => .error (.refused (.invalidExternal text))
    | some value => do
      let count ← narrow text (digits.length * 4)
      if !marked then (new value count).mapError .refused
      else if value = 0 then .error (.refused (.invalidExternal text))
      else
        let strip ← narrow text (trailingZeros value + 1)
        let left ← within (.unsigned 32) (count - strip)
        (new (value / 2 ^ strip) left.toNat).mapError .refused

def guardedOfCompact (text : String) : Except (Stop AddressError) ExternalAddress :=
  match text.toList with
  | [] => .ok none
  | ':' :: body =>
    let (digits, marked) := splitMark body
    guardedOfDigits text digits marked
  | _ => .error (.refused (.invalidExternal text))

theorem narrow_eq (text : String) (h : n < 2 ^ 32) : narrow text n = .ok n := by
  unfold narrow
  rw [word_eq rfl (by omega)]
  show (if n < 2 ^ 32 then _ else _) = _
  rw [if_pos h]
  rfl

/-- The digits have room for the bits that are stripped off. -/
theorem guardedOfDigits_eq (text : String) (marked : Bool) (h : 4 * digits.length < 2 ^ 32) :
    guardedOfDigits text digits marked = (ofDigits text digits marked).mapError .refused := by
  unfold guardedOfDigits ofDigits
  by_cases hne : digits = []
  · rw [if_pos hne, if_pos hne]
    cases marked <;> rfl
  rw [if_neg hne, if_neg hne]
  cases hvalue : valueOfDigits? digits with
  | none => rfl
  | some value =>
    obtain ⟨bits, hspells, rfl⟩ := valueOfDigits?_eq_some_iff.1 hvalue
    have hlength := hspells.length_eq
    rw [Nat.mul_comm] at h
    show (narrow text (digits.length * 4) >>= _) = _
    rw [Outcome.bind_of_ok (narrow_eq text h)]
    cases marked with
    | false => rfl
    | true =>
      by_cases hpos : Bits.toNat bits = 0
      · simp only [Bool.not_true, Bool.false_eq_true, if_false, if_pos hpos]
        rfl
      obtain ⟨front, k, rfl⟩ := Bits.exists_filled hpos
      obtain ⟨-, hzeros, -⟩ := strip_filled front k
      rw [List.length_append, List.length_cons, List.length_replicate] at hlength
      have hstrip : k + 1 ≤ digits.length * 4 := by omega
      have hleft : ((digits.length * 4 : Nat) : Int) - (k + 1 : Nat) =
        (digits.length * 4 - (k + 1) : Nat) := (Int.ofNat_sub hstrip).symm
      have hrepresents : (IntType.unsigned 32).Represents (digits.length * 4 - (k + 1) : Nat) :=
        ⟨Int.natCast_nonneg _, by omega⟩
      simp only [Bool.not_true, Bool.false_eq_true, if_false, if_neg hpos, hzeros]
      rw [Outcome.bind_of_ok (narrow_eq text (show k + 1 < 2 ^ 32 by omega)), hleft,
        Outcome.bind_of_ok (within_eq hrepresents), Int.toNat_natCast]

/-- A text has no more characters than bytes. -/
theorem length_toList_le (text : String) : text.toList.length ≤ text.utf8ByteSize := by
  have hbytes : ∀ chars : List Char,
      chars.length ≤ (chars.flatMap String.utf8EncodeChar).length := by
    intro chars
    induction chars with
    | nil => exact Nat.le_refl 0
    | cons c chars ih =>
      have hc := c.utf8Size_pos
      rw [List.flatMap_cons, List.length_append, String.length_utf8EncodeChar, List.length_cons]
      omega
  rw [String.utf8ByteSize, ← String.utf8Encode_toList, List.utf8Encode, List.size_toByteArray]
  exact hbytes text.toList

theorem length_splitMark_le (body : List Char) : (splitMark body).1.length ≤ body.length := by
  rw [splitMark]
  split
  · rw [List.length_dropLast]
    exact Nat.sub_le _ _
  · exact Nat.le_refl _

theorem ofCompact_of_ne (hnil : text.toList ≠ []) (hcolon : ∀ body, text.toList ≠ ':' :: body) :
    ofCompact text = .error (.invalidExternal text) := by
  unfold ofCompact
  split
  · exact absurd ‹text.toList = []› hnil
  · exact absurd ‹text.toList = ':' :: _› (hcolon _)
  · rfl

theorem guardedOfCompact_eq (h : text.utf8ByteSize < 2 ^ 30) :
    guardedOfCompact text = (ofCompact text).mapError .refused := by
  have hlength := length_toList_le text
  unfold guardedOfCompact
  split
  · next htext =>
    rw [ofCompact, htext]
    rfl
  · next body htext =>
    have hdigits := length_splitMark_le body
    rw [htext, List.length_cons] at hlength
    have hroom : 4 * (splitMark body).1.length < 2 ^ 32 := by omega
    rw [ofCompact, htext]
    exact guardedOfDigits_eq text _ hroom
  · next hnil hcolon =>
    rw [ofCompact_of_ne hnil hcolon]
    rfl

/-- A text of fewer than `2 ^ 30` bytes is read as an address exactly where it stands for the bits
of the address.  No count on the way leaves the range of its type, so that more bits are never
stripped off than the digits have. -/
theorem compact_stands_for_bits {text : String} (h : text.utf8ByteSize < 2 ^ 30) :
    (∀ a, ofCompact text = .ok a ↔ IsCompact text.toList a.bitString) ∧
      guardedOfCompact text = (ofCompact text).mapError .refused :=
  ⟨fun _ => ofCompact_eq_ok_iff, guardedOfCompact_eq h⟩

/-- Digits of both cases, zeros in front and a whole digit of zeros behind the last set bit. -/
theorem compact_stands_for_bits_filled :
    ":0aE80_".utf8ByteSize < 2 ^ 30 ∧
      IsCompact ":0aE80_".toList (Bits.ofNat 12 0x0AE) ∧
      ofCompact ":0aE80_" = .ok ⟨0x0AE, 12, by decide, by decide⟩ ∧
      guardedOfCompact ":0aE80_" = .ok ⟨0x0AE, 12, by decide, by decide⟩ := by
  have hsize : ":0aE80_".utf8ByteSize < 2 ^ 30 := by decide
  have hspells : Spells ['0', 'a', 'E', '8', '0'] (Bits.ofNat 4 0 ++ (Bits.ofNat 4 0xA ++
      (Bits.ofNat 4 0xE ++ (Bits.ofNat 4 8 ++ (Bits.ofNat 4 0 ++ []))))) :=
    .cons ⟨by decide, .inl rfl⟩ <| .cons ⟨by decide, .inl rfl⟩ <| .cons ⟨by decide, .inr rfl⟩ <|
      .cons ⟨by decide, .inl rfl⟩ <| .cons ⟨by decide, .inl rfl⟩ .nil
  have hcompact : IsCompact (':' :: (['0', 'a', 'E', '8', '0'] ++ ['_'])) (Bits.ofNat 12 0x0AE) :=
    .filled (k := 7) hspells (by decide)
  obtain ⟨hread, hguarded⟩ := compact_stands_for_bits hsize
  have hok := (hread ⟨0x0AE, 12, by decide, by decide⟩).2 hcompact
  refine ⟨hsize, hcompact, hok, ?_⟩
  rw [hguarded, hok]
  rfl

end ExternalAddress

end CellAbi
