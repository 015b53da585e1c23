import CellAbi.Proofs.Text.Integer

/-!
# Address texts round trip

    StandardAddress.ofRaw a.toRaw = .ok a                                           (`ofRaw_toRaw`)
    ExternalAddress.ofCompact a.toCompact = .ok a                           (`ofCompact_toCompact`)
    Address.ofText a.toText = .ok a                                                (`ofText_toText`)
-/

namespace CellAbi

open Text

/-! ## Raw form -/

namespace StandardAddress

theorem splitColon?_append {front : List Char} (h : ':' ∉ front) (back : List Char) :
    splitColon? (front ++ ':' :: back) = some (front, back) := by
  induction front with
  | nil => rfl
  | cons c front ih =>
    have hc : c ≠ ':' := fun hc => h (hc ▸ List.mem_cons_self)
    rw [List.cons_append, splitColon?, if_neg hc, ih fun hm => h (List.mem_cons_of_mem _ hm)]
    rfl

theorem colon_not_mem_toString (i : Int) : ':' ∉ (toString i).toList := by
  have hdigits : ∀ n, ':' ∉ Nat.toDigits 10 n := fun n hc => absurd (isDigit_of_mem hc) (by decide)
  cases i with
  | ofNat n =>
    rw [toList_toString_ofNat]
    exact hdigits n
  | negSucc n =>
    rw [toList_toString_negSucc, List.mem_cons, not_or]
    exact ⟨by decide, hdigits (n + 1)⟩

theorem workchain?_toString (w : Int32) : workchain? (toString w.toInt).toList = some w := by
  rw [workchain?, integer?_toString, Option.bind_some, if_pos ⟨w.le_toInt, w.toInt_lt⟩,
    Int32.ofInt_toInt]

theorem toList_toRaw (a : StandardAddress) :
    a.toRaw.toList = (toString a.workchain.toInt).toList ++ ':' :: Hex.encodeChars a.hash.bytes := by
  rw [toRaw, String.toList_append, String.toList_append, Hex.encode, List.append_assoc,
    String.toList_ofList, List.singleton_append,
    String.toList_ofList]

theorem ofRaw_toRaw (a : StandardAddress) : ofRaw a.toRaw = .ok a := by
  have h : ofRawChars? a.toRaw.toList = some a := by
    rw [toList_toRaw, ofRawChars?, splitColon?_append (colon_not_mem_toString _)]
    show (workchain? _ >>= _) = _
    rw [workchain?_toString]
    show ((Hex.decodeChars (Hex.encodeChars a.hash.bytes)).toOption >>= _) = _
    rw [Hex.decodeChars_encodeChars]
    show (Digest.ofBytes? a.hash.bytes >>= _) = _
    rw [Digest.ofBytes?_bytes]
    rfl
  rw [ofRaw, h]

/-- A raw text starts with a digit or a minus. -/
theorem head_toRaw (a : StandardAddress) : ∃ c rest, a.toRaw.toList = c :: rest ∧ c ≠ ':' := by
  rw [toList_toRaw]
  cases h : (toString a.workchain.toInt).toList with
  | nil =>
    have := workchain?_toString a.workchain
    rw [h] at this
    cases this
  | cons c rest =>
    have hcolon := colon_not_mem_toString a.workchain.toInt
    rw [h] at hcolon
    exact ⟨c, _, rfl, fun hc => hcolon (hc ▸ List.mem_cons_self)⟩

end StandardAddress

/-! ## Compact form -/

namespace ExternalAddress

theorem digit_all : ∀ d, d < 16 → Hex.digitValue? (digit d) = some d ∧ digit d ≠ '_' := by decide

theorem digits_succ (count value : Nat) :
    digits (count + 1) value = digit (value / 16 ^ count % 16) :: digits count value := by
  simp [digits, List.range_succ]

theorem length_digits (count value : Nat) : (digits count value).length = count := by
  simp [digits]

theorem mark_not_mem_digits (count value : Nat) : '_' ∉ digits count value := by
  intro h
  obtain ⟨i, -, hi⟩ := List.mem_map.1 h
  exact (digit_all (value / 16 ^ i % 16) (Nat.mod_lt _ (by decide))).2 hi

theorem foldl_digits (count value n : Nat) :
    (digits count value).foldl
      (fun n c => do return 16 * (← n) + (← Hex.digitValue? c)) (some n) =
        some (n * 16 ^ count + value % 16 ^ count) := by
  induction count generalizing n with
  | zero => simp [digits, Nat.mod_one]
  | succ count ih =>
    have hdigit := (digit_all (value / 16 ^ count % 16) (Nat.mod_lt _ (by decide))).1
    rw [digits_succ, List.foldl_cons, hdigit]
    show List.foldl _ (some (16 * n + value / 16 ^ count % 16)) _ = _
    rw [ih, Nat.pow_succ, Nat.mod_mul, Nat.add_mul, Nat.mul_comm 16 n, Nat.mul_assoc,
      Nat.mul_comm 16, Nat.mul_comm (16 ^ count) (value / 16 ^ count % 16)]
    congr 1
    omega

theorem valueOfDigits?_digits {count value : Nat} (h : value < 16 ^ count) :
    valueOfDigits? (digits count value) = some value := by
  rw [valueOfDigits?, foldl_digits, Nat.mod_eq_of_lt h, Nat.zero_mul, Nat.zero_add]

theorem trailingZeros_mul (m k : Nat) : trailingZeros ((2 * m + 1) * 2 ^ k) = k := by
  induction k with
  | zero =>
    rw [trailingZeros, dif_neg (by omega), if_pos (by omega)]
  | succ k ih =>
    have hpos : 0 < (2 * m + 1) * 2 ^ k := Nat.mul_pos (by omega) (Nat.two_pow_pos k)
    have hdouble : (2 * m + 1) * 2 ^ (k + 1) = 2 * ((2 * m + 1) * 2 ^ k) := by
      rw [Nat.pow_succ, ← Nat.mul_assoc, Nat.mul_comm]
    rw [trailingZeros, hdouble, dif_neg (by omega), if_neg (by omega),
      Nat.mul_div_cancel_left _ (by decide), ih]

theorem new_eq (a : ExternalAddress) : new a.value a.bits = .ok a := by
  rw [new, dif_pos a.bits_le, dif_pos (Bits.size_le_iff.2 a.value_lt)]

theorem pow_16 (k : Nat) : 16 ^ k = 2 ^ (4 * k) := by rw [Nat.pow_mul]

theorem splitMark_of_not_mem {text : List Char} (h : '_' ∉ text) :
    splitMark text = (text, false) ∧ splitMark (text ++ ['_']) = (text, true) := by
  constructor
  · rw [splitMark, if_neg fun hlast => h (List.mem_of_getLast? hlast)]
  · rw [splitMark, List.getLast?_concat, if_pos rfl, List.dropLast_concat]

theorem ofDigits_digits (text : String) {count value : Nat} (hcount : 0 < count)
    (hvalue : value < 16 ^ count) (marked : Bool) :
    ofDigits text (digits count value) marked =
      if !marked then new value (count * 4)
      else if value = 0 then .error (.invalidExternal text)
      else new (value / 2 ^ (trailingZeros value + 1)) (count * 4 - (trailingZeros value + 1)) := by
  have hne : digits count value ≠ [] := by
    rw [← List.length_pos_iff, length_digits]
    exact hcount
  rw [ofDigits, if_neg hne, valueOfDigits?_digits hvalue, length_digits]

/-- Without a mark the digits are all bits. -/
theorem ofDigits_whole (text : String) (a : ExternalAddress) (hbits : a.bits % 4 = 0)
    (hne : a.bits ≠ 0) : ofDigits text (digits (a.bits / 4) a.value) false = .ok a := by
  have hfour : 4 * (a.bits / 4) = a.bits := by omega
  have hvalue : a.value < 16 ^ (a.bits / 4) := by
    rw [pow_16, hfour]
    exact a.value_lt
  rw [ofDigits_digits text (by omega) hvalue, Nat.mul_comm, hfour]
  exact a.new_eq

/-- With a mark the lowest set bit and what follows it are fill. -/
theorem ofDigits_filled (text : String) (a : ExternalAddress) :
    ofDigits text (digits ((a.bits + (4 - a.bits % 4)) / 4)
      (a.value * 2 ^ (4 - a.bits % 4) + 2 ^ (4 - a.bits % 4 - 1))) true = .ok a := by
  obtain ⟨k, hk⟩ : ∃ k, 4 - a.bits % 4 = k + 1 := ⟨3 - a.bits % 4, by omega⟩
  rw [hk, Nat.add_sub_cancel]
  have hodd : a.value * 2 ^ (k + 1) + 2 ^ k = (2 * a.value + 1) * 2 ^ k := by
    rw [Nat.pow_succ, Nat.add_mul, Nat.one_mul, Nat.mul_comm (2 ^ k), ← Nat.mul_assoc,
      Nat.mul_comm a.value]
  have hfour : 4 * ((a.bits + (k + 1)) / 4) = a.bits + (k + 1) := by omega
  have hlow : 2 ^ k < 2 ^ (k + 1) := Nat.pow_lt_pow_right (by decide) (Nat.lt_succ_self k)
  have hvalue : a.value * 2 ^ (k + 1) + 2 ^ k < 16 ^ ((a.bits + (k + 1)) / 4) := by
    have hle : (a.value + 1) * 2 ^ (k + 1) ≤ 2 ^ a.bits * 2 ^ (k + 1) :=
      Nat.mul_le_mul_right _ a.value_lt
    rw [Nat.add_mul, Nat.one_mul] at hle
    rw [pow_16, hfour, Nat.pow_add 2 a.bits (k + 1)]
    omega
  have hhigh : (a.value * 2 ^ (k + 1) + 2 ^ k) / 2 ^ (k + 1) = a.value := by
    rw [Nat.mul_comm, Nat.mul_add_div (Nat.two_pow_pos _), Nat.div_eq_of_lt hlow, Nat.add_zero]
  have hpos : a.value * 2 ^ (k + 1) + 2 ^ k ≠ 0 := by
    have := Nat.two_pow_pos k
    omega
  have hzeros : trailingZeros (a.value * 2 ^ (k + 1) + 2 ^ k) = k := by
    rw [hodd, trailingZeros_mul]
  rw [ofDigits_digits text (by omega) hvalue, Bool.not_true, if_neg Bool.false_ne_true,
    if_neg hpos, hzeros, hhigh, Nat.mul_comm, hfour, Nat.add_sub_cancel]
  exact a.new_eq

theorem ofCompact_toCompact (a : ExternalAddress) : ofCompact a.toCompact = .ok a := by
  unfold toCompact toCompactChars
  by_cases h0 : a.bits = 0
  · have hvalue := a.value_lt
    rw [h0] at hvalue
    have hnone : a = none := by
      cases a
      simp only [none, mk.injEq]
      exact ⟨Nat.lt_one_iff.1 hvalue, h0⟩
    rw [if_pos h0, ofCompact, String.toList_ofList, hnone]
  · rw [if_neg h0]
    by_cases h4 : a.bits % 4 = 0
    · have hmark := splitMark_of_not_mem (mark_not_mem_digits (a.bits / 4) a.value)
      rw [if_pos h4, ofCompact, String.toList_ofList]
      simp only [hmark.1]
      exact ofDigits_whole _ a h4 h0
    · have hmark := splitMark_of_not_mem (mark_not_mem_digits ((a.bits + (4 - a.bits % 4)) / 4)
        (a.value * 2 ^ (4 - a.bits % 4) + 2 ^ (4 - a.bits % 4 - 1)))
      rw [if_neg h4, ofCompact, String.toList_ofList, List.cons_append]
      simp only [hmark.2]
      exact ofDigits_filled _ a

/-- A compact text is empty or starts with a colon. -/
theorem head_toCompact (a : ExternalAddress) :
    a.toCompact.toList = [] ∨ ∃ rest, a.toCompact.toList = ':' :: rest := by
  rw [toCompact, String.toList_ofList, toCompactChars]
  split
  · exact .inl rfl
  · split
    · exact .inr ⟨_, rfl⟩
    · exact .inr ⟨_, rfl⟩

end ExternalAddress

/-! ## Both forms -/

namespace Address

theorem ofText_toText (a : Address) : ofText a.toText = .ok a := by
  cases a with
  | standard a =>
    obtain ⟨c, rest, h, hc⟩ := a.head_toRaw
    rw [ofText, toText, h]
    split
    · contradiction
    · injection ‹c :: rest = _› with hcolon
      exact absurd hcolon hc
    · rw [StandardAddress.ofRaw_toRaw]
      rfl
  | external a =>
    rw [ofText, toText]
    rcases a.head_toCompact with h | ⟨rest, h⟩
    · rw [h]
      simp only [a.ofCompact_toCompact]
      rfl
    · rw [h]
      simp only [a.ofCompact_toCompact]
      rfl

end Address

end CellAbi
