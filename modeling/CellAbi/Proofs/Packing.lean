import CellAbi.Cell.Hash

/-!
# Bits in bytes

A bit string is spelled by the number it carries.  A byte string is the list of its bits
(`ofBytes`), and a bit string packed into bytes is read back bit by bit.  `Packed data n` says that
`data` holds `n` bits and nothing else: it has the fewest bytes, and the bits behind the first `n`
are clear.  Packed data is determined by its bits.

    ofNat bits.length (toNat bits) = bits                         (`ofNat_toNat`)
    ofInt bits.length (toInt bits) = bits                         (`ofInt_toInt`)
    (ofBytes (toBytes bits)).take bits.length = bits              (`take_ofBytes_toBytes`)
    Packed data n → toBytes ((ofBytes data).take n) = data        (`Packed.toBytes_take`)
    toBytes ((ofBytes data).take count) = truncate data count     (`toBytes_take_ofBytes`)
-/

namespace CellAbi.Bits

/-! ## Single bits -/

theorem getElem?_ofNat {width n i : Nat} (h : i < width) :
    (ofNat width n)[i]? = some (n.testBit (width - 1 - i)) := by
  simp only [ofNat, List.getElem?_map]
  rw [List.getElem?_reverse (by simpa using h), List.length_range, List.getElem?_range (by omega)]
  rfl

theorem get_nil (i : Nat) : get [] i = false := by simp [get]

theorem get_cons (b : UInt8) (rest : List UInt8) (i : Nat) :
    get (b :: rest) i = if i < 8 then b.toNat.testBit (7 - i) else get rest (i - 8) := by
  unfold get
  by_cases h : i < 8
  · rw [if_pos h, Nat.div_eq_of_lt h, Nat.mod_eq_of_lt h]
    rfl
  · rw [if_neg h, show i / 8 = (i - 8) / 8 + 1 by omega, show (i - 8) % 8 = i % 8 by omega]
    rfl

theorem get_of_length_le {data : List UInt8} {i : Nat} (h : 8 * data.length ≤ i) :
    get data i = false := by
  unfold get
  rw [List.getElem?_eq_none (by omega)]

theorem get_append (a b : List UInt8) (i : Nat) :
    get (a ++ b) i = if i < 8 * a.length then get a i else get b (i - 8 * a.length) := by
  unfold get
  by_cases h : i < 8 * a.length
  · rw [if_pos h, List.getElem?_append_left (by omega)]
  · rw [if_neg h, List.getElem?_append_right (by omega),
      show (i - 8 * a.length) / 8 = i / 8 - a.length by omega,
      show (i - 8 * a.length) % 8 = i % 8 by omega]

theorem get_eq_testBit {data : List UInt8} {i : Nat} {b : UInt8} (h : data[i / 8]? = some b) :
    get data i = b.toNat.testBit (7 - i % 8) := by
  unfold get
  rw [h]

theorem byte_ext {a b : UInt8} (h : ∀ i, i < 8 → a.toNat.testBit i = b.toNat.testBit i) :
    a = b := by
  apply UInt8.toNat_inj.1
  apply Nat.eq_of_testBit_eq
  intro i
  by_cases hi : i < 8
  · exact h i hi
  · have hpow : 2 ^ 8 ≤ 2 ^ i := Nat.pow_le_pow_right (by decide) (by omega)
    rw [Nat.testBit_lt_two_pow (Nat.lt_of_lt_of_le a.toNat_lt hpow),
      Nat.testBit_lt_two_pow (Nat.lt_of_lt_of_le b.toNat_lt hpow)]

/-- Byte strings of one length with the same bits are equal. -/
theorem bytes_ext {a b : List UInt8} (hlen : a.length = b.length)
    (h : ∀ i, i < 8 * a.length → get a i = get b i) : a = b := by
  induction a generalizing b with
  | nil => exact (List.length_eq_zero_iff.1 hlen.symm).symm
  | cons x a ih =>
    obtain _ | ⟨y, b⟩ := b
    · simp at hlen
    simp only [List.length_cons, Nat.add_right_cancel_iff] at hlen h
    have hhead : x = y := byte_ext fun i hi => by
      have := h (7 - i) (by omega)
      rw [get_cons, get_cons, if_pos (by omega), if_pos (by omega)] at this
      rwa [show 7 - (7 - i) = i by omega] at this
    have htail : a = b := ih hlen fun i hi => by
      have := h (i + 8) (by omega)
      rw [get_cons, get_cons, if_neg (by omega), if_neg (by omega), Nat.add_sub_cancel] at this
      exact this
    rw [hhead, htail]

/-! ## All bits of a byte string -/

theorem length_ofByte (b : UInt8) : (ofByte b).length = 8 := length_ofNat 8 _

@[simp] theorem length_ofBytes (data : List UInt8) : (ofBytes data).length = 8 * data.length := by
  induction data with
  | nil => rfl
  | cons b rest ih =>
    rw [ofBytes, List.flatMap_cons, List.length_append, length_ofByte, ← ofBytes, ih,
      List.length_cons]
    omega

theorem ofBytes_cons (b : UInt8) (rest : List UInt8) :
    ofBytes (b :: rest) = ofByte b ++ ofBytes rest :=
  List.flatMap_cons ..

theorem getElem?_ofBytes {data : List UInt8} {i : Nat} (h : i < 8 * data.length) :
    (ofBytes data)[i]? = some (get data i) := by
  induction data generalizing i with
  | nil => simp at h
  | cons b rest ih =>
    rw [List.length_cons] at h
    rw [ofBytes_cons, get_cons]
    split
    · next hi =>
      rw [List.getElem?_append_left (by rwa [length_ofByte]), ofByte, getElem?_ofNat hi]
    · next hi =>
      rw [List.getElem?_append_right (by rw [length_ofByte]; omega), length_ofByte,
        ih (by omega)]

theorem getElem?_take_ofBytes {data : List UInt8} {n i : Nat} (hn : n ≤ 8 * data.length)
    (hi : i < n) : ((ofBytes data).take n)[i]? = some (get data i) := by
  rw [List.getElem?_take_of_lt hi, getElem?_ofBytes (by omega)]

/-! ## Packing -/

theorem toBytes_nil : toBytes [] = [] := by rw [toBytes]

theorem toBytes_of_ne_nil {bits : List Bool} (h : bits ≠ []) :
    toBytes bits =
      UInt8.ofNat (toNat (bits.take 8 ++ List.replicate (8 - bits.length) false)) ::
        toBytes (bits.drop 8) := by
  obtain _ | ⟨b, rest⟩ := bits
  · exact absurd rfl h
  · rw [toBytes]
    rfl

theorem length_toBytes (bits : List Bool) : (toBytes bits).length = byteCount bits.length := by
  induction hn : bits.length using Nat.strongRecOn generalizing bits with
  | _ n ih =>
    by_cases hb : bits = []
    · subst hb
      rw [toBytes_nil, ← hn]
      rfl
    · have hpos : 0 < bits.length := List.length_pos_iff.2 hb
      rw [toBytes_of_ne_nil hb, List.length_cons,
        ih (bits.drop 8).length (by rw [List.length_drop]; omega) _ rfl, List.length_drop]
      unfold byteCount
      omega

theorem toNat_lt (bits : List Bool) : toNat bits < 2 ^ bits.length := by
  induction bits with
  | nil => decide
  | cons b rest ih =>
    rw [toNat_cons, List.length_cons, Nat.pow_succ]
    cases b <;> simp <;> omega

/-- Reading the number of a bit string bit by bit gives the bit string back. -/
theorem testBit_toNat {bits : List Bool} {i : Nat} (h : i < bits.length) :
    (toNat bits).testBit i = bits[bits.length - 1 - i] := by
  induction bits with
  | nil => simp at h
  | cons b rest ih =>
    rw [toNat_cons]
    have hlt := toNat_lt rest
    rw [List.length_cons] at h
    by_cases hi : i = rest.length
    · subst hi
      rw [Nat.mul_comm, Nat.testBit_two_pow_mul_add _ hlt, if_neg (Nat.lt_irrefl _)]
      cases b <;> simp
    · have hi' : i < rest.length := by omega
      rw [Nat.mul_comm, Nat.testBit_two_pow_mul_add _ hlt, if_pos hi', ih hi']
      simp only [List.length_cons, show rest.length + 1 - 1 - i = rest.length - 1 - i + 1 by omega,
        List.getElem_cons_succ]

/-- The number of a bit string spells it. -/
theorem ofNat_toNat (bits : List Bool) : ofNat bits.length (toNat bits) = bits := by
  apply List.ext_getElem?
  intro i
  by_cases hi : i < bits.length
  · rw [getElem?_ofNat hi, testBit_toNat (by omega), List.getElem?_eq_getElem hi]
    congr 2
    omega
  · rw [List.getElem?_eq_none (by rw [length_ofNat]; omega), List.getElem?_eq_none (by omega)]

theorem toInt_cons (sign : Bool) (rest : List Bool) :
    toInt (sign :: rest) = toNat rest - if sign then 2 ^ rest.length else 0 := by
  have hpow : (2 : Int) ^ (rest.length + 1) = 2 * 2 ^ rest.length := Int.pow_succ' ..
  have hnat : ((2 ^ rest.length : Nat) : Int) = 2 ^ rest.length := by simp
  unfold toInt
  rw [toNat_cons]
  cases sign <;> simp [hpow]
  omega

theorem toInt_range {bits : List Bool} {width : Nat} (h : bits.length = width + 1) :
    -2 ^ width ≤ toInt bits ∧ toInt bits < 2 ^ width := by
  obtain ⟨sign, rest, rfl⟩ := List.exists_cons_of_length_eq_add_one h
  obtain rfl : rest.length = width := Nat.succ_inj.1 h
  have hlt := toNat_lt rest
  have hpow : (2 : Int) ^ rest.length = ((2 ^ rest.length : Nat) : Int) := by simp
  rw [toInt_cons, hpow]
  cases sign
  · rw [if_neg Bool.false_ne_true]
    omega
  · rw [if_pos rfl]
    omega

/-- The two's complement reading of a bit string spells it. -/
theorem ofInt_toInt (bits : List Bool) : ofInt bits.length (toInt bits) = bits := by
  obtain _ | ⟨sign, rest⟩ := bits
  · rfl
  cases sign with
  | false => exact ofNat_toNat (false :: rest)
  | true =>
    have hnot := toNat_map_not (true :: rest)
    have hpow : (2 : Int) ^ (true :: rest).length = ((2 ^ (true :: rest).length : Nat) : Int) := by
      simp
    have hneg : toInt (true :: rest) = .negSucc (toNat ((true :: rest).map not)) := by
      show (toNat (true :: rest) : Int) - 2 ^ (true :: rest).length = _
      rw [hpow, Int.negSucc_eq]
      omega
    have hbits := ofNat_toNat ((true :: rest).map not)
    rw [List.length_map] at hbits
    rw [hneg, ofInt_negSucc, hbits, List.map_map]
    exact (List.map_congr_left fun b _ => Bool.not_not b).trans (List.map_id _)

theorem get_toBytes (bits : List Bool) (i : Nat) :
    get (toBytes bits) i = bits[i]?.getD false := by
  induction hn : bits.length using Nat.strongRecOn generalizing bits i with
  | _ n ih =>
    by_cases hb : bits = []
    · subst hb
      rw [toBytes_nil, get_nil]
      rfl
    have hpos : 0 < bits.length := List.length_pos_iff.2 hb
    rw [toBytes_of_ne_nil hb, get_cons]
    split
    · next hi =>
      have hlen : (bits.take 8 ++ List.replicate (8 - bits.length) false).length = 8 := by
        rw [List.length_append, List.length_take, List.length_replicate]
        omega
      have hlt := toNat_lt (bits.take 8 ++ List.replicate (8 - bits.length) false)
      rw [hlen] at hlt
      rw [UInt8.toNat_ofNat_of_lt' hlt, testBit_toNat (by omega)]
      simp only [hlen, show 8 - 1 - (7 - i) = i by omega]
      rw [List.getElem_eq_iff, List.getElem?_append, List.length_take]
      split
      · next h =>
        rw [List.getElem?_take_of_lt hi, List.getElem?_eq_getElem (by omega)]
        rfl
      · next h =>
        rw [List.getElem?_replicate_of_lt (by omega), List.getElem?_eq_none (by omega)]
        rfl
    · next hi =>
      rw [ih (bits.drop 8).length (by rw [List.length_drop]; omega) _ _ rfl, List.getElem?_drop,
        show 8 + (i - 8) = i by omega]

theorem take_ofBytes_toBytes (bits : List Bool) :
    (ofBytes (toBytes bits)).take bits.length = bits := by
  have hle : bits.length ≤ 8 * (toBytes bits).length := by
    rw [length_toBytes]
    unfold byteCount
    omega
  apply List.ext_getElem?
  intro i
  by_cases hi : i < bits.length
  · rw [getElem?_take_ofBytes hle hi, get_toBytes, List.getElem?_eq_getElem hi]
    rfl
  · rw [List.getElem?_eq_none (by rw [List.length_take]; omega),
      List.getElem?_eq_none (by omega)]

theorem ofBytes_toBytes {bits : List Bool} (h : bits.length % 8 = 0) :
    ofBytes (toBytes bits) = bits := by
  have hlength : (ofBytes (toBytes bits)).length = bits.length := by
    rw [length_ofBytes, length_toBytes]
    unfold byteCount
    omega
  rw [← List.take_length (l := ofBytes (toBytes bits)), hlength, take_ofBytes_toBytes]

/-! ## Packed data -/

/-- The data has the bytes that `n` bits need, and the bits past the first `n` are clear. -/
def Packed (data : List UInt8) (n : Nat) : Prop :=
  data.length = byteCount n ∧ ∀ i, n ≤ i → get data i = false

theorem Packed.le {data : List UInt8} {n : Nat} (h : Packed data n) : n ≤ 8 * data.length := by
  rw [h.1]
  unfold byteCount
  omega

theorem packed_nil : Packed [] 0 := ⟨rfl, fun i _ => get_nil i⟩

theorem packed_toBytes (bits : List Bool) : Packed (toBytes bits) bits.length := by
  refine ⟨length_toBytes bits, fun i hi => ?_⟩
  rw [get_toBytes, List.getElem?_eq_none hi]
  rfl

/-- Packed data is determined by its bits. -/
theorem Packed.ext {a b : List UInt8} {n : Nat} (ha : Packed a n) (hb : Packed b n)
    (h : (ofBytes a).take n = (ofBytes b).take n) : a = b := by
  apply bytes_ext (ha.1.trans hb.1.symm)
  intro i _
  by_cases hi : i < n
  · have := congrArg (·[i]?) h
    simp only [getElem?_take_ofBytes ha.le hi, getElem?_take_ofBytes hb.le hi] at this
    exact Option.some.inj this
  · rw [ha.2 i (by omega), hb.2 i (by omega)]

theorem Packed.length_take {data : List UInt8} {n : Nat} (h : Packed data n) :
    ((ofBytes data).take n).length = n := by
  have := h.le
  rw [List.length_take, length_ofBytes]
  omega

theorem Packed.toBytes_take {data : List UInt8} {n : Nat} (h : Packed data n) :
    toBytes ((ofBytes data).take n) = data := by
  have hp := packed_toBytes ((ofBytes data).take n)
  have ht := take_ofBytes_toBytes ((ofBytes data).take n)
  rw [h.length_take] at hp ht
  exact Packed.ext hp h ht

/-! ## Setting one bit -/

theorem toNat_mask_all : ∀ k, k < 8 → ((0x80 : UInt8) >>> UInt8.ofNat k).toNat = 2 ^ (7 - k) := by
  decide

theorem toNat_mask (i : Nat) : (mask i).toNat = 2 ^ (7 - i % 8) :=
  toNat_mask_all (i % 8) (Nat.mod_lt i (by decide))

/-- Setting the bit of index `n` in the byte where it lies. -/
theorem get_modify_mask {data : List UInt8} {n : Nat} (h : n < 8 * data.length) (i : Nat) :
    get (data.modify (n / 8) (· ||| mask n)) i = (get data i || decide (i = n)) := by
  have hlt : n / 8 < data.length := by omega
  by_cases hd : n / 8 = i / 8
  · have hi : data[i / 8]? = some data[n / 8] := by rw [← hd, List.getElem?_eq_getElem hlt]
    have hm : (data.modify (n / 8) (· ||| mask n))[i / 8]? = some (data[n / 8] ||| mask n) := by
      rw [List.getElem?_modify, hi]
      simp [hd]
    rw [get_eq_testBit hm, get_eq_testBit hi, UInt8.toNat_or, Nat.testBit_or, toNat_mask,
      Nat.testBit_two_pow]
    congr 1
    rw [decide_eq_decide]
    omega
  · have hm : (data.modify (n / 8) (· ||| mask n))[i / 8]? = data[i / 8]? := by
      rw [List.getElem?_modify]
      simp [hd]
    have hne : i ≠ n := fun e => hd (by rw [e])
    unfold get
    rw [hm]
    simp [hne]

/-! ## Cutting short -/

/-- The bits of a byte in front of bit `i % 8`, counted from the high bit. -/
def maskBefore (i : Nat) : UInt8 := ~~~(0xFF >>> UInt8.ofNat (i % 8))

/-- The bytes of the first `count` bits.  What the last byte holds behind them is cleared. -/
def truncate (data : List UInt8) (count : Nat) : List UInt8 :=
  (data.take (byteCount count)).modify (count / 8) (· &&& maskBefore count)

theorem testBit_maskBefore_all : ∀ k, k < 8 → ∀ i, i < 8 →
    (~~~((0xFF : UInt8) >>> UInt8.ofNat k)).toNat.testBit (7 - i) = decide (i < k) := by
  decide

theorem testBit_maskBefore (n i : Nat) :
    (maskBefore n).toNat.testBit (7 - i % 8) = decide (i % 8 < n % 8) :=
  testBit_maskBefore_all (n % 8) (Nat.mod_lt _ (by decide)) (i % 8) (Nat.mod_lt _ (by decide))

theorem length_truncate {data : List UInt8} {count : Nat} (h : count ≤ 8 * data.length) :
    (truncate data count).length = byteCount count := by
  unfold truncate byteCount
  rw [List.length_modify, List.length_take]
  omega

theorem get_truncate {data : List UInt8} {count : Nat} (h : count ≤ 8 * data.length) (i : Nat) :
    get (truncate data count) i = (decide (i < count) && get data i) := by
  by_cases hfront : i / 8 < count / 8
  · have hne : count / 8 ≠ i / 8 := by omega
    have hbyte : (truncate data count)[i / 8]? = data[i / 8]? := by
      unfold truncate byteCount
      rw [List.getElem?_modify, List.getElem?_take_of_lt (by omega)]
      simp [hne]
    unfold get
    rw [hbyte, decide_eq_true (show i < count by omega), Bool.true_and]
  by_cases hlast : i / 8 = count / 8 ∧ 0 < count % 8
  · obtain ⟨b, hb⟩ : ∃ b, data[i / 8]? = some b := ⟨_, List.getElem?_eq_getElem (by omega)⟩
    have hbyte : (truncate data count)[i / 8]? = some (b &&& maskBefore count) := by
      unfold truncate byteCount
      rw [List.getElem?_modify, List.getElem?_take_of_lt (by omega), hb]
      simp [hlast.1]
    rw [get_eq_testBit hbyte, get_eq_testBit hb, UInt8.toNat_and, Nat.testBit_and,
      testBit_maskBefore, Bool.and_comm]
    congr 1
    rw [decide_eq_decide]
    omega
  · -- Behind the last byte of the first `count` bits there is nothing left.
    have hlen := length_truncate h
    unfold byteCount at hlen
    rw [get_of_length_le (by omega), decide_eq_false (by omega), Bool.false_and]

/-- Packing the first bits of a byte string cuts it short. -/
theorem toBytes_take_ofBytes {data : List UInt8} {count : Nat} (h : count ≤ 8 * data.length) :
    toBytes ((ofBytes data).take count) = truncate data count := by
  have hlen : ((ofBytes data).take count).length = count := by
    rw [List.length_take, length_ofBytes]
    omega
  apply bytes_ext
  · rw [length_toBytes, hlen, length_truncate h]
  · intro i _
    rw [get_toBytes, get_truncate h]
    by_cases hi : i < count
    · rw [getElem?_take_ofBytes h hi, decide_eq_true hi]
      simp
    · rw [List.getElem?_eq_none (by omega), decide_eq_false hi]
      rfl

end CellAbi.Bits
