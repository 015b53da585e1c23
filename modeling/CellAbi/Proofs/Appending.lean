import CellAbi.Proofs.Slicing

/-!
# Builders as append-only contents

Seen from outside, a builder is a list of at most 1023 bits and a list of at most four references
to which operations append.  What it holds stays whatever follows, failed operations included; and
an operation that stores one thing does so exactly when the value fits its width and the cell has
room, and changes nothing otherwise.

    Holds b bits refs ↔ b = ofBits bits refs ∧ bits.length ≤ 1023 ∧ refs.length ≤ 4  (`holds_iff`)
    op.Fits ∧ op.HasRoom b → ∃ more, op.Spells more ∧
      op.step.run b = .ok () (ofBits (bits ++ more) (refs ++ op.refs))         (`run_primitive`)
-/

namespace CellAbi

/-! ## What a builder holds -/

namespace Builder

/-- The builder holds these bits and references: the bits lie packed in the fewest bytes, with
nothing behind them, and neither bits nor references are more than a cell can have. -/
structure Holds (b : Builder) (bits : List Bool) (refs : List Cell) : Prop where
  bitLen_eq : b.bitLen = bits.length
  bitLen_le : b.bitLen ≤ Cell.maxBits
  length_data : b.data.length = Bits.byteCount b.bitLen
  get_data : ∀ (i : Nat) (h : i < bits.length), Bits.get b.data i = bits[i]
  get_unused : ∀ i, b.bitLen ≤ i → Bits.get b.data i = false
  refs_eq : b.refs = refs
  length_refs_le : b.refs.length ≤ Cell.maxRefs

theorem holds_iff {b : Builder} {bits : List Bool} {refs : List Cell} :
    b.Holds bits refs ↔
      b = ofBits bits refs ∧ bits.length ≤ Cell.maxBits ∧ refs.length ≤ Cell.maxRefs := by
  constructor
  · intro h
    have hbytes : b.data = Bits.toBytes bits := by
      apply Bits.bytes_ext
      · rw [h.length_data, h.bitLen_eq, Bits.length_toBytes]
      · intro i _
        rw [Bits.get_toBytes]
        by_cases hi : i < bits.length
        · rw [h.get_data i hi, List.getElem?_eq_getElem hi, Option.getD_some]
        · rw [h.get_unused i (by rw [h.bitLen_eq]; omega), List.getElem?_eq_none (by omega),
            Option.getD_none]
    refine ⟨?_, h.bitLen_eq ▸ h.bitLen_le, h.refs_eq ▸ h.length_refs_le⟩
    rw [ofBits, ← hbytes, ← h.bitLen_eq, ← h.refs_eq]
  · rintro ⟨rfl, hbits, hrefs⟩
    obtain ⟨hlength, hunused⟩ := Bits.packed_toBytes bits
    refine ⟨rfl, hbits, hlength, fun i hi => ?_, hunused, rfl, hrefs⟩
    show Bits.get (Bits.toBytes bits) i = bits[i]
    rw [Bits.get_toBytes, List.getElem?_eq_getElem hi, Option.getD_some]

/-- What a builder holds is determined by it. -/
theorem Holds.bits_eq {b : Builder} {bits : List Bool} {refs : List Cell} (h : b.Holds bits refs) :
    b.bits = bits := by
  obtain ⟨rfl, -⟩ := holds_iff.1 h
  exact Bits.take_ofBytes_toBytes bits

end Builder

/-! ## Operations that store one thing -/

namespace StoreOp

/-- The operation stores one thing; addresses and slices are stored part by part. -/
def IsPrimitive : StoreOp → Prop
  | address _ | slice _ => False
  | _ => True

/-- The value fits the width it is to be stored in. -/
def Fits : StoreOp → Prop
  | word value width => value.toNat < 2 ^ width
  | nat value width => value < 2 ^ width
  | int value 0 => value = 0
  | int value (width + 1) => -2 ^ width ≤ value ∧ value < 2 ^ width
  | bytes data count => count ≤ 8 * data.length
  | _ => True

/-- Number of bits the operation stores. -/
def bitCount : StoreOp → Nat
  | word _ width | nat _ width | int _ width => width
  | bytes _ count => count
  | bit _ | maybeRef _ => 1
  | _ => 0

/-- The references the operation stores. -/
def refs : StoreOp → List Cell
  | ref c => [c]
  | maybeRef c => c.toList
  | _ => []

/-- The bits say what the operation stores: numbers in base two, the highest bit first and integers
in two's complement, bytes by their first bits, an optional reference by its presence. -/
def Spells : StoreOp → List Bool → Prop
  | bit b, bits => bits = [b]
  | word value width, bits => bits.length = width ∧ Bits.toNat bits = value.toNat
  | nat value width, bits => bits.length = width ∧ Bits.toNat bits = value
  | int value width, bits => bits.length = width ∧ Bits.toInt bits = value
  | bytes data count, bits => bits.length = count ∧ bits <+: Bits.ofBytes data
  | maybeRef c, bits => bits = [c.isSome]
  | _, bits => bits = []

/-- The builder has room for the bits and references of the operation. -/
def HasRoom (op : StoreOp) (b : Builder) : Prop :=
  op.bitCount ≤ b.availableBits ∧ b.refs.length + op.refs.length ≤ Cell.maxRefs

end StoreOp

/-! ## Steps that append exactly -/

namespace Store

open Builder

/-- Where the condition holds and there is room, the step appends these bits and references, and
elsewhere it fails and leaves the builder as it was. -/
def AppendsIff (s : Store) (P : Prop) (more : List Bool) (moreRefs : List Cell) : Prop :=
  ∀ bits refs, refs.length ≤ Cell.maxRefs →
    (P ∧ more.length ≤ Cell.maxBits - bits.length ∧
        refs.length + moreRefs.length ≤ Cell.maxRefs →
      s.run (ofBits bits refs) = .ok () (ofBits (bits ++ more) (refs ++ moreRefs))) ∧
    (¬ (P ∧ more.length ≤ Cell.maxBits - bits.length ∧
        refs.length + moreRefs.length ≤ Cell.maxRefs) →
      ∃ e, s.run (ofBits bits refs) = .error e (ofBits bits refs))

theorem appendsIff_bitList (more : List Bool) : AppendsIff (bitList more) True more [] := by
  intro bits refs hrefs
  have hroom : (ofBits bits refs).availableBits = Cell.maxBits - bits.length := rfl
  rw [bitList_run, pushBits_ofBits, hroom, List.append_nil]
  constructor
  · rintro ⟨-, hbits, -⟩
    rw [if_neg (Nat.not_lt.2 hbits)]
  · intro h
    have hfull : more.length > Cell.maxBits - bits.length :=
      Nat.not_le.1 fun hbits => h ⟨trivial, hbits, hrefs⟩
    exact ⟨_, if_pos hfull⟩

/-- A step behind a check of its value. -/
theorem AppendsIff.guarded {s : Store} {P Q : Prop} [Decidable Q] {e : CellError}
    {more : List Bool} {moreRefs : List Cell} (h : AppendsIff s True more moreRefs)
    (hP : P ↔ ¬ Q) : AppendsIff (if Q then throw e else s) P more moreRefs := by
  intro bits refs hrefs
  obtain ⟨hok, herror⟩ := h bits refs hrefs
  by_cases hQ : Q
  · rw [if_pos hQ]
    exact ⟨fun hcond => absurd hQ (hP.1 hcond.1), fun _ => ⟨e, rfl⟩⟩
  · rw [if_neg hQ]
    exact ⟨fun hcond => hok ⟨trivial, hcond.2⟩,
      fun hcond => herror fun hroom => hcond ⟨hP.2 hQ, hroom.2⟩⟩

theorem appendsIff_ref (c : Cell) : AppendsIff (ref c) True [] [c] := by
  intro bits refs hrefs
  have hcount : (ofBits bits refs).refs.length = refs.length := rfl
  rw [ref_run, hcount, List.append_nil]
  constructor
  · rintro ⟨-, -, hroom⟩
    exact if_neg (Nat.not_le.2 hroom)
  · intro h
    have hfull : refs.length ≥ Cell.maxRefs :=
      Nat.not_lt.1 fun hroom => h ⟨trivial, Nat.zero_le _, hroom⟩
    exact ⟨_, if_pos hfull⟩

theorem appendsIff_maybeRef (c : Option Cell) :
    AppendsIff (maybeRef c) True [c.isSome] c.toList := by
  cases c with
  | none => exact appendsIff_bitList [false]
  | some c =>
    intro bits refs hrefs
    have hrun : (maybeRef (some c)).run (ofBits bits refs) =
        if refs.length ≥ Cell.maxRefs then .error .refOverflow (ofBits bits refs)
        else ((do bit true; ref c : Store).run (ofBits bits refs)) := by
      show (if refs.length ≥ Cell.maxRefs then throw .refOverflow >>= fun (_ : PUnit) => _
        else _ : Store).run _ = _
      split <;> rfl
    rw [hrun, EStateM.run_bind, bit_eq]
    obtain ⟨hbit, hnobit⟩ := appendsIff_bitList [true] bits refs hrefs
    obtain ⟨href, -⟩ := appendsIff_ref c (bits ++ [true]) refs hrefs
    rw [List.append_nil] at hbit href
    constructor
    · rintro ⟨-, hbits, hroom⟩
      rw [if_neg (Nat.not_le.2 hroom), hbit ⟨trivial, hbits, hrefs⟩]
      exact href ⟨trivial, Nat.zero_le _, hroom⟩
    · intro h
      by_cases hfull : refs.length ≥ Cell.maxRefs
      · exact ⟨_, if_pos hfull⟩
      · obtain ⟨e, he⟩ := hnobit fun hcond => h ⟨trivial, hcond.2.1, Nat.not_le.1 hfull⟩
        exact ⟨e, by rw [if_neg hfull, he]⟩

/-- The check of a word passes it exactly when it fits. -/
theorem lt_two_pow_iff_not_shiftRight {w : UInt64} {width : Nat} :
    w.toNat < 2 ^ width ↔ ¬ (width < 64 ∧ w >>> width.toUInt64 ≠ 0) := by
  refine ⟨fun hlt => ?_, toNat_lt_of_word⟩
  rintro ⟨h64, hne⟩
  apply hne
  apply UInt64.toNat_inj.1
  rw [Load.toNat_shiftRight h64, Nat.shiftRight_eq_div_pow, Nat.div_eq_of_lt hlt]
  rfl

theorem appendsIff_word (value : UInt64) (width : Nat) :
    AppendsIff (word value width) (value.toNat < 2 ^ width) (Bits.ofNat width value.toNat) [] := by
  rw [word_eq, Load.wordBits_eq]
  exact (appendsIff_bitList _).guarded lt_two_pow_iff_not_shiftRight

theorem appendsIff_nat (value width : Nat) :
    AppendsIff (nat value width) (value < 2 ^ width) (Bits.ofNat width value) [] := by
  rw [nat_eq]
  exact (appendsIff_bitList _).guarded (Bits.size_le_iff.symm.trans Nat.not_lt.symm)

theorem appendsIff_int (value : Int) (width : Nat) :
    AppendsIff (int value width) (Bits.fitsSigned width value = true) (Bits.ofInt width value)
      [] := by
  rw [int_eq, ← ite_not]
  exact (appendsIff_bitList _).guarded Decidable.not_not.symm

theorem appendsIff_bytes (data : List UInt8) (count : Nat) :
    AppendsIff (bytes data count) (count ≤ 8 * data.length) ((Bits.ofBytes data).take count)
      [] := by
  rw [bytes_eq, Nat.mul_comm]
  exact (appendsIff_bitList _).guarded Nat.not_lt.symm

end Store

namespace StoreOp

open Builder Store

theorem fits_int_iff {value : Int} {width : Nat} :
    (int value width).Fits ↔ Bits.fitsSigned width value = true := by
  cases width with
  | zero => exact beq_iff_eq.symm
  | succ width => exact fitsSigned_succ_iff.symm

/-- Every operation that stores one thing appends the bits that spell it exactly when the value
fits. -/
theorem appendsIff_step {op : StoreOp} (h : op.IsPrimitive) :
    ∃ more, (op.Fits → more.length = op.bitCount ∧ op.Spells more) ∧
      AppendsIff op.step op.Fits more op.refs := by
  cases op with
  | bit b => exact ⟨[b], fun _ => ⟨rfl, rfl⟩, appendsIff_bitList [b]⟩
  | word value width =>
    have hlength := Bits.length_ofNat width value.toNat
    refine ⟨_, fun hfits => ⟨hlength, hlength, ?_⟩, appendsIff_word value width⟩
    rw [Bits.toNat_ofNat, Nat.mod_eq_of_lt hfits]
  | nat value width =>
    have hlength := Bits.length_ofNat width value
    refine ⟨_, fun hfits => ⟨hlength, hlength, ?_⟩, appendsIff_nat value width⟩
    rw [Bits.toNat_ofNat, Nat.mod_eq_of_lt hfits]
  | int value width =>
    have hlength := Bits.length_ofInt width value
    refine ⟨_, fun hfits => ⟨hlength, hlength, ?_⟩, ?_⟩
    · exact toInt_ofInt_of_fits (fits_int_iff.1 hfits)
    · rw [fits_int_iff]
      exact appendsIff_int value width
  | bytes data count =>
    have hlength (hfits : count ≤ 8 * data.length) :
        ((Bits.ofBytes data).take count).length = count := by
      rw [List.length_take, Bits.length_ofBytes, Nat.min_eq_left hfits]
    exact ⟨_, fun hfits => ⟨hlength hfits, hlength hfits, List.take_prefix _ _⟩,
      appendsIff_bytes data count⟩
  | ref c => exact ⟨[], fun _ => ⟨rfl, rfl⟩, appendsIff_ref c⟩
  | maybeRef c => exact ⟨[c.isSome], fun _ => ⟨rfl, rfl⟩, appendsIff_maybeRef c⟩
  | address a => exact h.elim
  | slice s => exact h.elim

/-- On a builder that holds some bits and references, an operation that stores one thing succeeds
exactly when the value fits and there is room, and then appends what it stores. -/
theorem run_primitive {op : StoreOp} (h : op.IsPrimitive) {b : Builder} {bits : List Bool}
    {refs : List Cell} (hb : b.Holds bits refs) :
    (op.Fits ∧ op.HasRoom b →
      ∃ b' more, op.step.run b = .ok () b' ∧ op.Spells more ∧
        b'.Holds (bits ++ more) (refs ++ op.refs)) ∧
    (¬ (op.Fits ∧ op.HasRoom b) → ∃ e, op.step.run b = .error e b) := by
  obtain ⟨rfl, hbits, hrefs⟩ := holds_iff.1 hb
  obtain ⟨more, hmore, happends⟩ := appendsIff_step h
  obtain ⟨hok, herror⟩ := happends bits refs hrefs
  constructor
  · rintro ⟨hfits, hroom, hcount⟩
    obtain ⟨hlength, hspells⟩ := hmore hfits
    have hroom : op.bitCount ≤ Cell.maxBits - bits.length := hroom
    have hcount : refs.length + op.refs.length ≤ Cell.maxRefs := hcount
    refine ⟨_, more, hok ⟨hfits, hlength ▸ hroom, hcount⟩, hspells, holds_iff.2 ⟨rfl, ?_, ?_⟩⟩
    · rw [List.length_append]
      omega
    · rwa [List.length_append]
  · intro h
    refine herror fun ⟨hfits, hroom, hcount⟩ => h ⟨hfits, ?_, hcount⟩
    rw [(hmore hfits).1] at hroom
    exact hroom

end StoreOp

/-! ## Histories -/

namespace Builder

/-- Whatever operations came before, some of them failed, a builder holds bits and references within
the limits, all of which it still holds after any further operations; and each operation that stores
one thing appends it exactly when it fits and there is room, and changes nothing otherwise. -/
theorem ofOps_appends_only (before : List StoreOp) :
    ∃ bits refs, (ofOps before).Holds bits refs ∧
      (∀ later, ∃ more moreRefs,
        (ofOps (before ++ later)).Holds (bits ++ more) (refs ++ moreRefs)) ∧
      ∀ op : StoreOp, op.IsPrimitive →
        (op.Fits ∧ op.HasRoom (ofOps before) →
          ∃ b more, op.step.run (ofOps before) = .ok () b ∧ op.Spells more ∧
            b.Holds (bits ++ more) (refs ++ op.refs)) ∧
        (¬ (op.Fits ∧ op.HasRoom (ofOps before)) →
          ∃ e, op.step.run (ofOps before) = .error e (ofOps before)) := by
  obtain ⟨bits, refs, hbefore, hbits, hrefs⟩ := ofOps_eq before
  have hholds : (ofOps before).Holds bits refs := holds_iff.2 ⟨hbefore, hbits, hrefs⟩
  refine ⟨bits, refs, hholds, fun later => ?_, fun op hop => StoreOp.run_primitive hop hholds⟩
  obtain ⟨more, moreRefs, hlater, hlimits⟩ := foldl_after later bits refs hbits hrefs
  refine ⟨more, moreRefs, holds_iff.2 ⟨?_, hlimits⟩⟩
  rw [← hlater, ← hbefore, ofOps, ofOps, List.foldl_append]

/-- A history in which the second operation fails, and whose bits end inside a byte. -/
def interrupted : List StoreOp :=
  [.bit true, .nat 300 8, .bytes [0xFF] 3, .maybeRef (some .empty)]

theorem ofOps_appends_only_interrupted :
    (StoreOp.int (-3) 10).IsPrimitive ∧ (StoreOp.word 4 2).IsPrimitive ∧
      (StoreOp.int (-3) 10).Fits ∧ (StoreOp.int (-3) 10).HasRoom (ofOps interrupted) ∧
      ¬ (StoreOp.word 4 2).Fits ∧
      (∃ more, (StoreOp.int (-3) 10).Spells more ∧
        (StoreOp.int (-3) 10).step.run (ofOps interrupted) =
          .ok () ⟨[0xFF, 0xFA], 15, [.empty]⟩ ∧
        (⟨[0xFF, 0xFA], 15, [.empty]⟩ : Builder).Holds
          ([true, true, true, true, true] ++ more) [.empty]) ∧
      ∃ e, (StoreOp.word 4 2).step.run (ofOps interrupted) = .error e (ofOps interrupted) := by
  have hfits : (StoreOp.int (-3) 10).Fits := ⟨by decide, by decide⟩
  have hroom : (StoreOp.int (-3) 10).HasRoom (ofOps interrupted) := ⟨by decide, by decide⟩
  have hwide : ¬ (StoreOp.word 4 2).Fits := show ¬ (4 : UInt64).toNat < 2 ^ 2 by decide
  obtain ⟨bits, refs, hholds, -, hstep⟩ := ofOps_appends_only interrupted
  obtain rfl : [true, true, true, true, true] = bits := hholds.bits_eq
  obtain rfl : [.empty] = refs := hholds.refs_eq
  obtain ⟨b, more, hrun, hspells, hb⟩ := (hstep (.int (-3) 10) trivial).1 ⟨hfits, hroom⟩
  have hresult : (StoreOp.int (-3) 10).step.run (ofOps interrupted) =
    .ok () ⟨[0xFF, 0xFA], 15, [.empty]⟩ := rfl
  obtain rfl : b = ⟨[0xFF, 0xFA], 15, [.empty]⟩ := by
    rw [hresult] at hrun
    cases hrun
    rfl
  refine ⟨trivial, trivial, hfits, hroom, hwide, ⟨more, hspells, hrun, hb⟩, ?_⟩
  exact (hstep (.word 4 2) trivial).2 fun h => hwide h.1

end Builder

end CellAbi
