import CellAbi.Proofs.Appending
import CellAbi.Proofs.Exactness

/-!
# Machine words and numbers

A number of up to 64 bits is stored and loaded as a machine word or as a number of any size, which
makes no difference: neither in the result, nor in the error, nor in what the builder holds or where
the cursor stands afterwards.  Words that are computed in the types of a machine, with every
operation watched for faults, come out the same: on the way, no operation leaves the range of its
type.

    Store.word value width = Store.nat value.toNat width                       (`word_eq_nat`)
    (shiftInBits value n).run s = .ok (value * 2 ^ n + toNat (s.peekBits n)) (s.skipBits n)
      for a result below `2 ^ 64`                                              (`run_shiftInBits`)
    twosComplement bits.length (toNat bits) = .ok (toInt bits)
      for `bits.length ≤ 64`                                                (`twosComplement_eq`)
-/

namespace CellAbi

/-! ## Storing -/

namespace Store

theorem word_eq_nat (value : UInt64) (width : Nat) : word value width = nat value.toNat width := by
  have hcheck : width < 64 ∧ value >>> width.toUInt64 ≠ 0 ↔ Bits.size value.toNat > width := by
    rw [gt_iff_lt, ← Nat.not_le (a := Bits.size value.toNat), Bits.size_le_iff,
      lt_two_pow_iff_not_shiftRight, Decidable.not_not]
  rw [word_eq, nat_eq, Load.wordBits_eq]
  simp only [hcheck]

/-- The `width` low bits of a word, each shifted to the right end. -/
def guardedBits (value width : Nat) : Except (Stop CellError) (List Bool) :=
  (List.range width).reverse.mapM fun i =>
    if i < 64 then do
      let shifted ← Exact.shiftRight (.unsigned 64) value i
      return shifted % 2 == 1
    else return false

/-- Stores a word in `width` bits, in the types of a machine. -/
def guardedWord (value width : Nat) : EStateM (Stop CellError) Builder Unit := do
  if width < 64 then
    let high ← Exact.run (Exact.shiftRight (.unsigned 64) value width)
    if high ≠ 0 then throw (.refused (.valueOutOfRange value width))
  (reserve width).adaptExcept .refused
  let bits ← Exact.run (guardedBits value width)
  modify (·.pushBits bits)

variable {ε : Type} {value amount width : Nat}

theorem shiftRight_word (hvalue : value < 2 ^ 64) (hamount : amount < 64) :
    (Exact.shiftRight (.unsigned 64) value amount : Except (Stop ε) Int) =
      .ok ((value / 2 ^ amount : Nat) : Int) :=
  Exact.shiftRight_eq hamount
    (Exact.represents_word (Nat.lt_of_le_of_lt (Nat.div_le_self ..) hvalue))

theorem guardedBits_eq (hvalue : value < 2 ^ 64) :
    guardedBits value width = .ok (Bits.ofNat width value) := by
  refine Outcome.mapM_eq_ok fun i _ => ?_
  by_cases hi : i < 64
  · rw [if_pos hi, Outcome.bind_of_ok (shiftRight_word hvalue hi),
      Nat.testBit_eq_decide_div_mod_eq]
    refine congrArg Except.ok ?_
    rw [Bool.eq_iff_iff, beq_iff_eq, decide_eq_true_iff]
    omega
  · have hpow : 2 ^ 64 ≤ 2 ^ i := Nat.pow_le_pow_right (by decide) (by omega)
    rw [if_neg hi, Nat.testBit_lt_two_pow (Nat.lt_of_lt_of_le hvalue hpow)]
    rfl

theorem run_guardedWord (hvalue : value < 2 ^ 64) (width : Nat) (b : Builder) :
    (guardedWord value width).run b = ((nat value width).adaptExcept .refused).run b := by
  have hstore : (do
      (reserve width).adaptExcept .refused
      let bits ← Exact.run (guardedBits value width)
      modify (·.pushBits bits) : EStateM (Stop CellError) Builder Unit).run b =
      ((bitList (Bits.ofNat width value)).adaptExcept .refused).run b := by
    rw [guardedBits_eq hvalue, EStateM.run_bind, EStateM.run_adaptExcept, EStateM.run_adaptExcept,
      bitList_run, reserve_run, Bits.length_ofNat]
    by_cases hroom : width > b.availableBits
    · rw [if_pos hroom, if_pos hroom]
    · rw [if_neg hroom, if_neg hroom]
      rfl
  rw [nat_eq]
  unfold guardedWord
  by_cases hwidth : width < 64
  · have hhigh : value / 2 ^ width ≠ 0 ↔ Bits.size value > width := by
      rw [gt_iff_lt, ← Nat.not_le (a := Bits.size value), Bits.size_le_iff, ne_eq,
        Nat.div_eq_zero_iff_lt (Nat.two_pow_pos _)]
    rw [if_pos hwidth, shiftRight_word hvalue hwidth]
    by_cases hlarge : Bits.size value > width
    · rw [if_pos hlarge]
      exact congrArg (EStateM.run · b) (if_pos (Int.natCast_ne_zero.2 (hhigh.2 hlarge)))
    · rw [if_neg hlarge, ← hstore]
      exact congrArg (EStateM.run · b)
        (if_neg fun h => hlarge (hhigh.1 (Int.natCast_ne_zero.1 h)))
  · have hsize : ¬ Bits.size value > width := by
      have hpow : 2 ^ 64 ≤ 2 ^ width := Nat.pow_le_pow_right (by decide) (by omega)
      rw [gt_iff_lt, Nat.not_lt, Bits.size_le_iff]
      omega
    rw [if_neg hwidth, if_neg hsize]
    exact hstore

end Store

/-! ## Loading -/

namespace Load

/-- Takes the next bit. -/
def nextBit : EStateM (Stop CellError) Slice Bool :=
  modifyGet fun s => (Bits.get s.cell.data s.bitPos, s.skipBits 1)

/-- Shifts the next bits into a word, one by one. -/
def shiftInBits (value : Nat) : Nat → EStateM (Stop CellError) Slice Nat
  | 0 => return value
  | n + 1 => do
    let bit ← nextBit
    let value ← Exact.run (Exact.shiftIn 1 value bit.toNat)
    shiftInBits value n

/-- Reads a word of at most 64 bits, in the types of a machine. -/
def guardedWord (width : Nat) : EStateM (Stop CellError) Slice Nat := do
  if width > 64 then throw (.refused (.widerThanWord false width))
  (ensure width).adaptExcept .refused
  shiftInBits 0 width

/-- The two's complement reading of the low `width` bits of a word, narrowed from 128 bits to 64. -/
def twosComplement (width value : Nat) : Except (Stop CellError) Int := do
  let value ← Exact.within (.signed 128) value
  if width = 0 then return 0
  let top ← Exact.shiftRight (.signed 128) value (width - 1)
  if top % 2 = 1 then
    let modulus ← Exact.shiftLeft (.signed 128) 1 width
    let value ← Exact.within (.signed 128) (value - modulus)
    Exact.within (.signed 64) value
  else Exact.within (.signed 64) value

/-- Reads a signed word of at most 64 bits, in the types of a machine. -/
def guardedSignedWord (width : Nat) : EStateM (Stop CellError) Slice Int := do
  if width > 64 then throw (.refused (.widerThanWord true width))
  let value ← guardedWord width
  Exact.run (twosComplement width value)

theorem run_shiftInBits {n value : Nat} (h : (value + 1) * (2 ^ 1) ^ n ≤ 2 ^ 64) (s : Slice) :
    (shiftInBits value n).run s =
      .ok (value * 2 ^ n + Bits.toNat (s.peekBits n)) (s.skipBits n) := by
  induction n generalizing value s with
  | zero => simp [shiftInBits, Slice.peekBits, Bits.toNat, Slice.skipBits]
  | succ n ih =>
    -- The room for all bits is the invariant: the word alone could still be small and yet be
    -- pushed out by the bits to come.
    let bit := Bits.get s.cell.data s.bitPos
    have hlt : bit.toNat < 2 ^ 1 := bit.toNat_lt
    obtain ⟨hword, hnext⟩ := Exact.shiftIn_room hlt h
    have hpeek : s.peekBits (n + 1) = bit :: (s.skipBits 1).peekBits n := by
      rw [Nat.add_comm, Slice.peekBits_add]
      rfl
    have hskip : (s.skipBits 1).skipBits n = s.skipBits (n + 1) := by
      show ({ s with bitPos := s.bitPos + 1 + n } : Slice) = { s with bitPos := s.bitPos + (n + 1) }
      rw [Nat.add_assoc, Nat.add_comm 1]
    have hrun : (shiftInBits value (n + 1)).run s =
        (shiftInBits (value * 2 ^ 1 + bit.toNat) n).run (s.skipBits 1) := by
      have hbit : nextBit.run s = .ok bit (s.skipBits 1) := rfl
      have hshift : (Exact.shiftIn 1 value bit.toNat : Except (Stop CellError) Nat) = _ :=
        Exact.shiftIn_eq (by decide) hlt hword
      rw [shiftInBits, EStateM.run_bind, hbit]
      exact congrArg (EStateM.run · _) (Exact.run_bind_of_ok hshift _)
    rw [hrun, ih hnext, hskip, hpeek, Bits.toNat_cons, Slice.length_peekBits, Nat.add_mul,
      Nat.pow_one, Nat.pow_succ', Nat.mul_assoc, Nat.add_assoc]

theorem ensure_run (width : Nat) (s : Slice) :
    (ensure width).run s = if width > s.remainingBits then
      .error (.bitUnderflow width s.remainingBits) s else .ok () s := by
  show (if width > s.remainingBits then throw _ else pure PUnit.unit : Load PUnit).run s = _
  split <;> rfl

theorem run_guardedWord {width : Nat} (hwidth : width ≤ 64) (s : Slice) :
    (guardedWord width).run s = ((nat width).adaptExcept .refused).run s := by
  have hpow : (2 ^ 1) ^ width ≤ (2 ^ 1) ^ 64 := Nat.pow_le_pow_right (by decide) hwidth
  unfold guardedWord
  rw [if_neg (Nat.not_lt.2 hwidth), EStateM.run_adaptExcept, takes_nat width s]
  show ((ensure width).adaptExcept .refused >>= fun _ => shiftInBits 0 width).run s = _
  rw [EStateM.run_bind, EStateM.run_adaptExcept, ensure_run]
  by_cases hroom : width > s.remainingBits
  · rw [if_pos hroom, if_pos hroom]
  · rw [if_neg hroom, if_neg hroom]
    refine (run_shiftInBits (by rwa [Nat.zero_add, Nat.one_mul]) s).trans ?_
    rw [Nat.zero_mul, Nat.zero_add]

/-- The sign is what a shift by all other bits leaves. -/
theorem shiftRight_sign {sign : Bool} {rest : List Bool} (h : rest.length < 128) :
    (Exact.shiftRight (.signed 128) (Bits.toNat (sign :: rest)) rest.length :
      Except (Stop CellError) Int) = .ok sign.toNat := by
  have hdiv : Bits.toNat (sign :: rest) / 2 ^ rest.length = sign.toNat := by
    rw [Bits.toNat_cons, Nat.add_comm, Nat.add_mul_div_right _ _ (Nat.two_pow_pos _),
      Nat.div_eq_of_lt (Bits.toNat_lt rest), Nat.zero_add]
  have hsign : (IntType.signed 128).Represents sign.toNat := by cases sign <;> decide
  rw [Exact.shiftRight_eq h (hdiv ▸ hsign), hdiv]

theorem twosComplement_eq {bits : List Bool} (h : bits.length ≤ 64) :
    twosComplement bits.length (Bits.toNat bits) = .ok (Bits.toInt bits) := by
  have hlt : Bits.toNat bits < 2 ^ 64 :=
    Nat.lt_of_lt_of_le (Bits.toNat_lt bits) (Nat.pow_le_pow_right (by decide) h)
  have hwide : (IntType.signed 128).Represents (Bits.toNat bits) :=
    ⟨by show -2 ^ 127 ≤ _; omega, by show _ < 2 ^ 127; omega⟩
  refine (Outcome.bind_of_ok (Exact.within_eq hwide) _).trans ?_
  cases bits with
  | nil => rfl
  | cons sign rest =>
    have hlen : rest.length < 64 := h
    obtain ⟨hlow, hhigh⟩ :=
      Bits.toInt_range (show (sign :: rest).length = rest.length + 1 from rfl)
    have hcast : (2 : Int) ^ rest.length = ((2 ^ rest.length : Nat) : Int) := by simp
    have hpow : 2 ^ rest.length ≤ 2 ^ 63 := Nat.pow_le_pow_right (by decide) (by omega)
    have hnarrow : (IntType.signed 64).Represents (Bits.toInt (sign :: rest)) :=
      ⟨by show -2 ^ 63 ≤ _; omega, by show _ < 2 ^ 63; omega⟩
    refine (if_neg (Nat.succ_ne_zero _)).trans ?_
    refine (Outcome.bind_of_ok (shiftRight_sign (by omega)) _).trans ?_
    cases sign with
    | false =>
      have hvalue : (Bits.toNat (false :: rest) : Int) = Bits.toInt (false :: rest) := rfl
      refine (if_neg (by decide)).trans ?_
      rw [hvalue]
      exact Exact.within_eq hnarrow
    | true =>
      -- For 64 bits the modulus is no signed word of 64 bits; the difference is one.
      have hmodulus : (IntType.signed 128).Represents (1 * 2 ^ (rest.length + 1)) := by
        have := Int.pow_succ' 2 rest.length
        exact ⟨by show -2 ^ 127 ≤ _; omega, by show _ < 2 ^ 127; omega⟩
      have hdifference : (Bits.toNat (true :: rest) : Int) - 1 * 2 ^ (rest.length + 1) =
          Bits.toInt (true :: rest) := by
        rw [Int.one_mul]
        rfl
      have hvalue : (IntType.signed 128).Represents (Bits.toInt (true :: rest)) :=
        ⟨by show -2 ^ 127 ≤ _; omega, by show _ < 2 ^ 127; omega⟩
      refine (if_pos (by decide)).trans ?_
      refine (Outcome.bind_of_ok (Exact.shiftLeft_eq (show _ < 128 by omega) hmodulus) _).trans ?_
      rw [hdifference]
      exact (Outcome.bind_of_ok (Exact.within_eq hvalue) _).trans (Exact.within_eq hnarrow)

theorem run_guardedSignedWord {width : Nat} (hwidth : width ≤ 64) (s : Slice) :
    (guardedSignedWord width).run s = ((int width).adaptExcept .refused).run s := by
  have hvalue : twosComplement (s.peekBits width).length (Bits.toNat (s.peekBits width)) = _ :=
    twosComplement_eq (by rwa [Slice.length_peekBits])
  rw [Slice.length_peekBits] at hvalue
  unfold guardedSignedWord
  rw [if_neg (Nat.not_lt.2 hwidth), EStateM.run_adaptExcept, takes_int width s]
  show (guardedWord width >>= fun value => Exact.run (twosComplement width value)).run s = _
  rw [EStateM.run_bind, run_guardedWord hwidth, EStateM.run_adaptExcept, takes_nat width s]
  by_cases hroom : width > s.remainingBits
  · rw [if_pos hroom, if_pos hroom]
  · rw [if_neg hroom, if_neg hroom]
    simp only [hvalue]
    rfl

theorem takes_word_toNat {width : Nat} (hwidth : width ≤ 64) :
    Takes (do return (← word width).toNat) width Bits.toNat := by
  refine ((takes_word hwidth).map UInt64.toNat).congr fun bits hbits => ?_
  have hpow : 2 ^ bits.length ≤ 2 ^ 64 := Nat.pow_le_pow_right (by decide) (hbits ▸ hwidth)
  rw [toNat_wordOfBits, Nat.mod_eq_of_lt (Nat.lt_of_lt_of_le (Bits.toNat_lt bits) hpow)]

theorem takes_signedWord_toInt {width : Nat} (hwidth : width ≤ 64) :
    Takes (do return (← signedWord width).toInt) width Bits.toInt := by
  refine ((takes_signedWord hwidth).map Int64.toInt).congr fun bits hbits => ?_
  cases bits with
  | nil => rfl
  | cons sign rest =>
    have hlen : rest.length < 64 := by
      rw [← hbits, List.length_cons] at hwidth
      omega
    obtain ⟨hlow, hhigh⟩ :=
      Bits.toInt_range (show (sign :: rest).length = rest.length + 1 from rfl)
    have hcast : (2 : Int) ^ rest.length = ((2 ^ rest.length : Nat) : Int) := by simp
    have hpow : 2 ^ rest.length ≤ 2 ^ 63 := Nat.pow_le_pow_right (by decide) (by omega)
    exact Int64.toInt_ofInt_of_le (by omega) (by omega)

end Load

/-! ## Agreement -/

/-- A word is stored as the number that it is, and up to 64 bits are loaded as the same number by
words and by numbers; with the same error where one fails, and with the same builder or cursor
afterwards.  In the types of a machine the results are these too, so that no operation on the way
leaves the range of its type. -/
theorem words_agree_with_numbers :
    (∀ (value : UInt64) (width : Nat) (b : Builder),
      (Store.word value width).run b = (Store.nat value.toNat width).run b ∧
        (Store.guardedWord value.toNat width).run b =
          ((Store.nat value.toNat width).adaptExcept .refused).run b) ∧
      ∀ (s : Slice) (width : Nat), width ≤ 64 →
        ((do return (← Load.word width).toNat : Load Nat).run s = (Load.nat width).run s ∧
          (Load.guardedWord width).run s = ((Load.nat width).adaptExcept .refused).run s) ∧
        (do return (← Load.signedWord width).toInt : Load Int).run s = (Load.int width).run s ∧
          (Load.guardedSignedWord width).run s = ((Load.int width).adaptExcept .refused).run s := by
  refine ⟨fun value width b => ⟨?_, ?_⟩, fun s width hwidth => ⟨⟨?_, ?_⟩, ?_, ?_⟩⟩
  · rw [Store.word_eq_nat]
  · exact Store.run_guardedWord value.toNat_lt width b
  · rw [Load.takes_word_toNat hwidth s, Load.takes_nat width s]
  · exact Load.run_guardedWord hwidth s
  · rw [Load.takes_signedWord_toInt hwidth s, Load.takes_int width s]
  · exact Load.run_guardedSignedWord hwidth s

/-- Eight bits across a byte boundary, all of them set, and one bit more than the cell has left. -/
theorem words_agree_with_numbers_straddling :
    8 ≤ 64 ∧ 9 ≤ 64 ∧
      (do return (← Load.signedWord 8).toInt : Load Int).run ⟨.node [0x1F, 0xE0] 11 [], 3, 0⟩ =
        .ok (-1) ⟨.node [0x1F, 0xE0] 11 [], 11, 0⟩ ∧
      (Load.guardedSignedWord 8).run ⟨.node [0x1F, 0xE0] 11 [], 3, 0⟩ =
        .ok (-1) ⟨.node [0x1F, 0xE0] 11 [], 11, 0⟩ ∧
      (do return (← Load.word 9).toNat : Load Nat).run ⟨.node [0x1F, 0xE0] 11 [], 3, 0⟩ =
        .error (.bitUnderflow 9 8) ⟨.node [0x1F, 0xE0] 11 [], 3, 0⟩ := by
  obtain ⟨-, hsigned, hguarded⟩ :=
    words_agree_with_numbers.2 ⟨.node [0x1F, 0xE0] 11 [], 3, 0⟩ 8 (by decide)
  obtain ⟨⟨hword, -⟩, -⟩ :=
    words_agree_with_numbers.2 ⟨.node [0x1F, 0xE0] 11 [], 3, 0⟩ 9 (by decide)
  exact ⟨by decide, by decide, hsigned.trans rfl, hguarded.trans rfl, hword.trans rfl⟩

end CellAbi
