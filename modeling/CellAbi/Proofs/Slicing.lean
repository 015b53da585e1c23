import CellAbi.Proofs.Building
import CellAbi.Proofs.Outcome

/-!
# Reading what was stored

`Load.Takes step count read` says that `step` takes `count` bits off the front of what a slice has
left and returns what `read` makes of them, or fails where there are fewer.  `Load.Reads step bits
refs a` says that `step` takes exactly these bits and references and returns `a`.  Every load reads
back what the store of the same width appends, and sequences of loads read what their parts read,
one after the other.

    (c.toSlice).restBits = bits, restRefs = refs    for the cell built of them    (`rest_build`)
    Takes (word width) width wordOfBits                    for `width ≤ 64`       (`takes_word`)
    Takes (nat width) width Bits.toNat                                             (`takes_nat`)
    Takes (signedWord width) width (Int64.ofInt ∘ Bits.toInt)
                                                      for `width ≤ 64`      (`takes_signedWord`)
    ReadBy (int i width) (signedWord width) (Int64.ofInt i)                (`readBy_signedWord`)
-/

namespace CellAbi

/-! ## What a slice has left -/

namespace Slice

theorem length_peekBits (s : Slice) (count : Nat) : (s.peekBits count).length = count := by
  simp [peekBits]

theorem length_restBits (s : Slice) : s.restBits.length = s.remainingBits := s.length_peekBits _

/-- The slice behind the next `count` bits. -/
def skipBits (s : Slice) (count : Nat) : Slice := { s with bitPos := s.bitPos + count }

theorem peekBits_add (s : Slice) (m n : Nat) :
    s.peekBits (m + n) = s.peekBits m ++ (s.skipBits m).peekBits n := by
  simp only [peekBits, skipBits, List.range_add, List.map_append, List.map_map]
  congr 1
  apply List.map_congr_left
  intro i _
  show Bits.get _ (s.bitPos + (m + i)) = Bits.get _ (s.bitPos + m + i)
  rw [Nat.add_assoc]

theorem remainingBits_skipBits (s : Slice) (count : Nat) :
    (s.skipBits count).remainingBits = s.remainingBits - count := by
  show s.cell.bitLen - (s.bitPos + count) = s.cell.bitLen - s.bitPos - count
  omega

/-- Skipping the bits at the front leaves the ones behind them. -/
theorem restBits_skipBits {s : Slice} {bits more : List Bool} (h : s.restBits = bits ++ more) :
    s.peekBits bits.length = bits ∧ (s.skipBits bits.length).restBits = more := by
  have hlen : s.remainingBits = bits.length + more.length := by
    rw [← s.length_restBits, h, List.length_append]
  rw [restBits, hlen, peekBits_add] at h
  obtain ⟨hfront, hback⟩ := List.append_inj h (s.length_peekBits _)
  refine ⟨hfront, ?_⟩
  rw [restBits, remainingBits_skipBits, hlen, Nat.add_sub_cancel_left]
  exact hback

/-- A slice of a built cell has left what was stored. -/
theorem rest_build (bits : List Bool) (refs : List Cell) :
    (Builder.ofBits bits refs).build.toSlice.restBits = bits ∧
      (Builder.ofBits bits refs).build.toSlice.restRefs = refs := by
  refine ⟨?_, rfl⟩
  apply List.ext_getElem?
  intro i
  show ((List.range bits.length).map fun i => Bits.get (Bits.toBytes bits) (0 + i))[i]? = _
  rw [List.getElem?_map]
  by_cases hi : i < bits.length
  · rw [List.getElem?_range hi, Option.map_some, Nat.zero_add, Bits.get_toBytes,
      List.getElem?_eq_getElem hi, Option.getD_some]
  · rw [List.getElem?_eq_none (by simpa using hi), List.getElem?_eq_none (by omega)]
    rfl

end Slice

/-! ## Steps -/

namespace Load

/-- The step takes exactly these bits and references off the front, and returns `a`. -/
def Reads {ε α : Type} (step : EStateM ε Slice α) (bits : List Bool) (refs : List Cell) (a : α) :
    Prop :=
  ∀ s moreBits moreRefs, s.restBits = bits ++ moreBits → s.restRefs = refs ++ moreRefs →
    ∃ s', step.run s = .ok a s' ∧ s'.restBits = moreBits ∧ s'.restRefs = moreRefs

variable {ε α β : Type}

theorem reads_pure (a : α) : Reads (pure a : EStateM ε Slice α) [] [] a :=
  fun s _ _ hbits hrefs => ⟨s, rfl, hbits, hrefs⟩

theorem reads_bind {step : EStateM ε Slice α} {next : α → EStateM ε Slice β}
    {bits₁ bits₂ : List Bool} {refs₁ refs₂ : List Cell} {a : α} {b : β}
    (h₁ : Reads step bits₁ refs₁ a) (h₂ : Reads (next a) bits₂ refs₂ b) :
    Reads (step >>= next) (bits₁ ++ bits₂) (refs₁ ++ refs₂) b := by
  intro s moreBits moreRefs hbits hrefs
  rw [List.append_assoc] at hbits hrefs
  obtain ⟨s₁, hrun₁, hbits₁, hrefs₁⟩ := h₁ s _ _ hbits hrefs
  obtain ⟨s₂, hrun₂, hrest⟩ := h₂ s₁ _ _ hbits₁ hrefs₁
  exact ⟨s₂, by rw [EStateM.run_bind, hrun₁]; exact hrun₂, hrest⟩

/-- What follows the step reads nothing more. -/
theorem reads_bind_nil {step : EStateM ε Slice α} {next : α → EStateM ε Slice β}
    {bits : List Bool} {refs : List Cell} {a : α} {b : β} (h : Reads step bits refs a)
    (hnext : Reads (next a) [] [] b) : Reads (step >>= next) bits refs b := by
  have hbind := reads_bind h hnext
  rwa [List.append_nil, List.append_nil] at hbind

theorem reads_map {step : EStateM ε Slice α} {bits : List Bool} {refs : List Cell} {a : α}
    (h : Reads step bits refs a) (f : α → β) : Reads (do return f (← step)) bits refs (f a) :=
  reads_bind_nil h (reads_pure (f a))

/-- Reading from a cell that holds nothing but what the step takes. -/
theorem Reads.run_build {step : EStateM ε Slice α} {bits : List Bool} {refs : List Cell} {a : α}
    (h : Reads step bits refs a) :
    ∃ s, step.run (Builder.ofBits bits refs).build.toSlice = .ok a s ∧ s.restBits = [] ∧
      s.restRefs = [] := by
  obtain ⟨hbits, hrefs⟩ := Slice.rest_build bits refs
  exact h _ [] [] (by rw [hbits, List.append_nil]) (by rw [hrefs, List.append_nil])

/-! ## Bits -/

/-- The step takes `count` bits off the front and returns what `read` makes of them; where fewer are
left, it fails and moves nothing. -/
def Takes (step : Load α) (count : Nat) (read : List Bool → α) : Prop :=
  ∀ s, step.run s = if count > s.remainingBits then
    .error (.bitUnderflow count s.remainingBits) s
      else .ok (read (s.peekBits count)) (s.skipBits count)

section
variable {step : Load α} {count : Nat} {read read' : List Bool → α}

theorem Takes.map (h : Takes step count read) (g : α → β) :
    Takes (do return g (← step)) count fun bits => g (read bits) := by
  intro s
  rw [EStateM.run_bind, h s]
  by_cases hroom : count > s.remainingBits
  · rw [if_pos hroom, if_pos hroom]
  · rw [if_neg hroom, if_neg hroom]
    rfl

theorem Takes.congr (h : Takes step count read)
    (heq : ∀ bits, bits.length = count → read bits = read' bits) : Takes step count read' := by
  intro s
  rw [h s, heq _ (s.length_peekBits count)]

theorem Takes.reads (h : Takes step count read) {bits : List Bool} (hbits : bits.length = count) :
    Reads step bits [] (read bits) := by
  intro s moreBits moreRefs hrest hrefs
  have hroom : ¬ count > s.remainingBits := by
    rw [← s.length_restBits, hrest, List.length_append]
    omega
  obtain ⟨hpeek, hskip⟩ := Slice.restBits_skipBits hrest
  rw [hbits] at hpeek hskip
  exact ⟨s.skipBits count, by rw [h s, if_neg hroom, hpeek], hskip, hrefs⟩

end

theorem takes_bitList (count : Nat) : Takes (bitList count) count id := by
  intro s
  show ((if count > s.remainingBits then throw _ else pure PUnit.unit : Load PUnit) >>= _).run s = _
  split <;> rfl

theorem takes_bit : Takes bit 1 fun bits => bits.headD false := by
  intro s
  show ((if 1 > s.remainingBits then throw _ else pure PUnit.unit : Load PUnit) >>= _).run s = _
  split <;> rfl

/-! ## Numbers -/

theorem toNat_shift_or (w : UInt64) (b : Bool) :
    ((w <<< 1) ||| (if b then 1 else 0)).toNat = (2 * w.toNat + b.toNat) % 2 ^ 64 := by
  have hshift : (w <<< 1).toNat = 2 ^ 1 * (w.toNat % 2 ^ 63) := by
    rw [UInt64.toNat_shiftLeft]
    show w.toNat <<< 1 % 2 ^ 64 = _
    rw [Nat.shiftLeft_eq]
    omega
  have hbit : (if b then 1 else 0 : UInt64).toNat = b.toNat := by cases b <;> rfl
  rw [UInt64.toNat_or, hshift, hbit, ← Nat.two_pow_add_eq_or_of_lt b.toNat_lt]
  have := b.toNat_lt
  omega

theorem toNat_wordOfBits (bits : List Bool) :
    (wordOfBits bits).toNat = Bits.toNat bits % 2 ^ 64 := by
  suffices ∀ w : UInt64,
      (bits.foldl (fun (w : UInt64) b => (w <<< 1) ||| (if b then 1 else 0)) w).toNat =
        (w.toNat * 2 ^ bits.length + Bits.toNat bits) % 2 ^ 64 by
    simpa [wordOfBits] using this 0
  induction bits with
  | nil => intro w; simp [Bits.toNat]
  | cons b bits ih =>
    intro w
    have hpow : 2 ^ (bits.length + 1) = 2 * 2 ^ bits.length := Nat.pow_succ'
    rw [List.foldl_cons, ih, toNat_shift_or, Bits.toNat_cons, List.length_cons, hpow,
      ← Nat.add_assoc, Nat.add_mod, Nat.mod_mul_mod, ← Nat.add_mod, Nat.add_mul,
      Nat.mul_comm 2 w.toNat, Nat.mul_assoc]

theorem toNat_shiftRight {i : Nat} (hi : i < 64) (w : UInt64) :
    (w >>> i.toUInt64).toNat = w.toNat >>> i := by
  rw [UInt64.toNat_shiftRight]
  congr 1
  show i % 2 ^ 64 % 64 = i
  omega

theorem wordBits_eq (width : Nat) (w : UInt64) :
    Store.wordBits width w = Bits.ofNat width w.toNat := by
  apply List.map_congr_left
  intro i _
  show (i < 64 && (w >>> i.toUInt64) &&& 1 == 1) = w.toNat.testBit i
  by_cases hi : i < 64
  · have hand : ((w >>> i.toUInt64) &&& 1).toNat = 1 &&& w.toNat >>> i := by
      rw [UInt64.toNat_and, toNat_shiftRight hi, Nat.and_comm]
      rfl
    rw [decide_eq_true hi, Bool.true_and, Nat.testBit, ← hand, Bool.eq_iff_iff, beq_iff_eq,
      bne_iff_ne, ← UInt64.toNat_inj]
    have hle : ((w >>> i.toUInt64) &&& 1).toNat ≤ 1 := by
      rw [hand]
      exact Nat.and_le_left
    show _ = 1 ↔ _
    omega
  · have hpow : 2 ^ 64 ≤ 2 ^ i := Nat.pow_le_pow_right (by decide) (by omega)
    rw [decide_eq_false hi, Bool.false_and,
      Nat.testBit_lt_two_pow (Nat.lt_of_lt_of_le w.toNat_lt hpow)]

theorem wordOfBits_wordBits {width : Nat} {w : UInt64} (h : w.toNat < 2 ^ width) :
    wordOfBits (Store.wordBits width w) = w := by
  apply UInt64.toNat_inj.1
  rw [toNat_wordOfBits, wordBits_eq, Bits.toNat_ofNat, Nat.mod_eq_of_lt h,
    Nat.mod_eq_of_lt w.toNat_lt]

variable {bits : List Bool} {width : Nat}

theorem takes_word (hwidth : width ≤ 64) : Takes (word width) width wordOfBits := by
  have heq : word width = do return wordOfBits (← bitList width) := by
    unfold word
    rw [if_neg (by omega)]
  rw [heq]
  exact (takes_bitList width).map wordOfBits

theorem takes_nat (width : Nat) : Takes (nat width) width Bits.toNat :=
  (takes_bitList width).map Bits.toNat

theorem takes_int (width : Nat) : Takes (int width) width Bits.toInt :=
  (takes_bitList width).map Bits.toInt

theorem takes_bytes (count : Nat) : Takes (bytes count) count Bits.toBytes :=
  (takes_bitList count).map Bits.toBytes

theorem testBit_toNat_cons (sign : Bool) (rest : List Bool) :
    (Bits.toNat (sign :: rest)).testBit rest.length = sign := by
  rw [Bits.testBit_toNat (Nat.lt_succ_self _)]
  simp

theorem takes_signedWord (hwidth : width ≤ 64) :
    Takes (signedWord width) width fun bits => Int64.ofInt (Bits.toInt bits) := by
  have heq : signedWord width = do
      let raw ← word width
      return if width = 0 then 0 else
        Int64.ofInt (if raw.toNat.testBit (width - 1) then (raw.toNat : Int) - 2 ^ width
          else raw.toNat) := by
    unfold signedWord
    rw [if_neg (by omega)]
    refine congrArg (word width >>= ·) (funext fun raw => ?_)
    split <;> rfl
  rw [heq]
  refine ((takes_word hwidth).map _).congr fun bits hbits => ?_
  have hlt := Nat.lt_of_lt_of_le (Bits.toNat_lt bits)
    (Nat.pow_le_pow_right (by decide) (hbits ▸ hwidth))
  rw [toNat_wordOfBits, Nat.mod_eq_of_lt hlt]
  cases bits with
  | nil =>
    rw [← hbits]
    rfl
  | cons sign rest =>
    have hsign := testBit_toNat_cons sign rest
    rw [← hbits, List.length_cons, if_neg (Nat.succ_ne_zero _), Nat.add_sub_cancel, hsign]
    rfl

/-! ## References -/

theorem ref_run {s : Slice} {c : Cell} {more : List Cell} (h : s.restRefs = c :: more) :
    ref.run s = .ok c { s with refPos := s.refPos + 1 } := by
  have hget : s.cell.refs[s.refPos]? = some c := by
    have hhead : s.restRefs[0]? = some c := by rw [h, List.getElem?_cons_zero]
    rwa [Slice.restRefs, List.getElem?_drop, Nat.add_zero] at hhead
  unfold ref
  rw [EStateM.run_bind, EStateM.run_get]
  simp only [hget]
  rfl

theorem reads_ref (c : Cell) : Reads ref [] [c] c := by
  intro s moreBits moreRefs hbits hrefs
  refine ⟨_, ref_run hrefs, hbits, ?_⟩
  show s.cell.refs.drop (s.refPos + 1) = moreRefs
  rw [← List.drop_drop]
  exact congrArg (List.drop 1) hrefs

end Load

/-! ## Stores and their loads -/

namespace Store

open Builder Load

/-- Whatever the step appends when it succeeds, the load reads it back as `a`. -/
def ReadBy {ε α : Type} (step : Store) (load : EStateM ε Slice α) (a : α) : Prop :=
  ∀ bits refs u b, step.run (ofBits bits refs) = .ok u b →
    ∃ moreBits moreRefs, b = ofBits (bits ++ moreBits) (refs ++ moreRefs) ∧
      Reads load moreBits moreRefs a

variable {ε α β : Type}

theorem readBy_bind {step next : Store} {load : EStateM ε Slice α}
    {loadNext : α → EStateM ε Slice β} {a : α} {b : β} (h : ReadBy step load a)
    (hnext : ReadBy next (loadNext a) b) :
    ReadBy (do step; next) (load >>= loadNext) b := by
  intro bits refs u b hrun
  obtain ⟨_, mid, hstep, hrun⟩ := Outcome.run_bind.1 hrun
  obtain ⟨bits₁, refs₁, rfl, hread₁⟩ := h _ _ _ _ hstep
  obtain ⟨bits₂, refs₂, rfl, hread₂⟩ := hnext _ _ _ _ hrun
  exact ⟨bits₁ ++ bits₂, refs₁ ++ refs₂, by rw [List.append_assoc, List.append_assoc],
    reads_bind hread₁ hread₂⟩

theorem ReadBy.bind_nil {step : Store} {load : EStateM ε Slice α}
    {next : α → EStateM ε Slice β} {a : α} {b : β} (h : ReadBy step load a)
    (hnext : Reads (next a) [] [] b) : ReadBy step (load >>= next) b := by
  intro bits refs u mid hrun
  obtain ⟨moreBits, moreRefs, hmid, hread⟩ := h _ _ _ _ hrun
  exact ⟨moreBits, moreRefs, hmid, reads_bind_nil hread hnext⟩

theorem readBy_throw (e : CellError) (load : EStateM ε Slice α) (a : α) :
    ReadBy (throw e) load a := fun _ _ _ _ hrun => absurd hrun run_throw

theorem readBy_bitList {more : List Bool} {load : EStateM ε Slice α} {a : α}
    (h : Reads load more [] a) : ReadBy (bitList more) load a := by
  intro bits refs u b hrun
  obtain ⟨-, rfl⟩ := run_bitList.1 hrun
  exact ⟨more, [], by rw [List.append_nil], h⟩

theorem readBy_bit (b : Bool) : ReadBy (bit b) Load.bit b := by
  rw [bit_eq]
  exact readBy_bitList (takes_bit.reads rfl)

/-- A word that is not refused has at most `width` bits. -/
theorem toNat_lt_of_word {w : UInt64} {width : Nat}
    (h : ¬ (width < 64 ∧ w >>> width.toUInt64 ≠ 0)) : w.toNat < 2 ^ width := by
  by_cases h64 : width < 64
  · have hzero : w >>> width.toUInt64 = 0 := Decidable.not_not.1 fun hne => h ⟨h64, hne⟩
    have hdiv : w.toNat / 2 ^ width = 0 := by
      rw [← Nat.shiftRight_eq_div_pow, ← toNat_shiftRight h64, hzero]
      rfl
    exact (Nat.div_eq_zero_iff_lt (Nat.two_pow_pos _)).1 hdiv
  · exact Nat.lt_of_lt_of_le w.toNat_lt (Nat.pow_le_pow_right (by decide) (by omega))

/-- A word is read back by every load that reads its bits. -/
theorem readBy_word_of {w : UInt64} {width : Nat} {load : EStateM ε Slice α} {a : α}
    (h : w.toNat < 2 ^ width → Reads load (Bits.ofNat width w.toNat) [] a) :
    ReadBy (word w width) load a := by
  rw [word_eq]
  split
  · exact readBy_throw _ _ _
  · next hw =>
    rw [wordBits_eq]
    exact readBy_bitList (h (toNat_lt_of_word hw))

theorem readBy_nat_of {n width : Nat} {load : EStateM ε Slice α} {a : α}
    (h : n < 2 ^ width → Reads load (Bits.ofNat width n) [] a) : ReadBy (nat n width) load a := by
  rw [nat_eq]
  split
  · exact readBy_throw _ _ _
  · next hn => exact readBy_bitList (h (Bits.size_le_iff.1 (Nat.not_lt.1 hn)))

theorem readBy_int_of {i : Int} {width : Nat} {load : EStateM ε Slice α} {a : α}
    (h : Bits.fitsSigned width i = true → Reads load (Bits.ofInt width i) [] a) :
    ReadBy (int i width) load a := by
  rw [int_eq]
  split
  · next hi => exact readBy_bitList (h hi)
  · exact readBy_throw _ _ _

theorem readBy_word {width : Nat} (hwidth : width ≤ 64) (w : UInt64) :
    ReadBy (word w width) (Load.word width) w := by
  refine readBy_word_of fun hw => ?_
  have hread := (takes_word hwidth).reads (Bits.length_ofNat width w.toNat)
  rwa [← wordBits_eq, wordOfBits_wordBits hw, wordBits_eq] at hread

theorem readBy_nat (n width : Nat) : ReadBy (nat n width) (Load.nat width) n := by
  refine readBy_nat_of fun hn => ?_
  have hread := (takes_nat width).reads (Bits.length_ofNat width n)
  rwa [Bits.toNat_ofNat, Nat.mod_eq_of_lt hn] at hread

theorem fitsSigned_succ_iff {width : Nat} {i : Int} :
    Bits.fitsSigned (width + 1) i = true ↔ -2 ^ width ≤ i ∧ i < 2 ^ width := by
  have hpow : (2 : Int) ^ width = ((2 ^ width : Nat) : Int) := by simp
  rw [Bits.fitsSigned.eq_def, if_neg (Nat.succ_ne_zero _), Nat.add_sub_cancel, hpow]
  cases i with
  | ofNat n =>
    rw [decide_eq_true_iff, Bits.size_le_iff, Int.ofNat_eq_natCast]
    omega
  | negSucc n =>
    rw [decide_eq_true_iff, Bits.size_le_iff]
    omega

theorem toInt_ofInt_of_fits {width : Nat} {i : Int} (h : Bits.fitsSigned width i = true) :
    Bits.toInt (Bits.ofInt width i) = i := by
  cases width with
  | zero =>
    obtain rfl : i = 0 := beq_iff_eq.1 h
    rfl
  | succ width =>
    obtain ⟨hlow, hhigh⟩ := fitsSigned_succ_iff.1 h
    exact Bits.toInt_ofInt hlow hhigh

theorem readBy_signedWord {width : Nat} (hwidth : width ≤ 64) (i : Int) :
    ReadBy (int i width) (Load.signedWord width) (Int64.ofInt i) := by
  refine readBy_int_of fun hi => ?_
  have hread := (takes_signedWord hwidth).reads (Bits.length_ofInt width i)
  rwa [toInt_ofInt_of_fits hi] at hread

theorem readBy_bytes (data : List UInt8) (count : Nat) :
    ReadBy (bytes data count) (Load.bytes count)
      (Bits.toBytes ((Bits.ofBytes data).take count)) := by
  rw [bytes_eq]
  split
  · exact readBy_throw _ _ _
  · next h =>
    refine readBy_bitList ((takes_bytes count).reads ?_)
    rw [List.length_take, Bits.length_ofBytes]
    omega

theorem readBy_ref (c : Cell) : ReadBy (ref c) Load.ref c := by
  intro bits refs u b hrun
  obtain ⟨-, rfl⟩ := run_ref.1 hrun
  exact ⟨[], [c], by rw [List.append_nil], reads_ref c⟩

/-- Reading the whole cell that a step builds. -/
theorem ReadBy.run_ofStore {step : Store} {load : EStateM ε Slice α} {a : α}
    (h : ReadBy step load a) {c : Cell} (hc : Cell.ofStore step = .ok c) :
    ∃ s, load.run c.toSlice = .ok a s ∧ s.restBits = [] ∧ s.restRefs = [] := by
  unfold Cell.ofStore at hc
  split at hc
  · next u b hrun =>
    obtain rfl := Except.ok.inj hc
    rw [empty_eq] at hrun
    obtain ⟨bits, refs, rfl, hread⟩ := h _ _ _ _ hrun
    exact hread.run_build
  · cases hc

end Store

end CellAbi
