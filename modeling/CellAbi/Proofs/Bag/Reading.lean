import CellAbi.Proofs.Bag.Tag

/-!
# Steps of reading a bag

What each step of reading takes from the bytes, as an equivalence: the step succeeds with a result
exactly when the bytes start with the written form of that result.

    (take n).run bytes = .ok (front, rest) ↔ front.length = n ∧ bytes = front ++ rest   (`run_take`)
    (uint w).run bytes = .ok (n, rest) ↔ n < 256 ^ w ∧ bytes = uintBytes w n ++ rest    (`run_uint`)
-/

namespace CellAbi.Bag

/-! ## Numbers in bytes -/

@[simp] theorem length_uintBytes (width value : Nat) : (uintBytes width value).length = width := by
  simp [uintBytes]

theorem length_flatMap_uintBytes (width : Nat) (values : List Nat) :
    (values.flatMap (uintBytes width)).length = values.length * width := by
  induction values with
  | nil => simp
  | cons value rest ih =>
    rw [List.flatMap_cons, List.length_append, ih, length_uintBytes, List.length_cons, Nat.add_mul]
    omega

theorem uintBytes_succ (width value : Nat) :
    uintBytes (width + 1) value =
      UInt8.ofNat (value / 256 ^ width) :: uintBytes width value := by
  have hpow : 2 ^ (8 * width) = 256 ^ width := by rw [Nat.pow_mul]
  simp [uintBytes, List.range_succ, Nat.shiftRight_eq_div_pow, hpow]

/-- The number that bytes spell, high byte first. -/
def ofUintBytes (bytes : List UInt8) : Nat := bytes.foldl (fun n b => 256 * n + b.toNat) 0

theorem foldl_eq (bytes : List UInt8) (start : Nat) :
    bytes.foldl (fun n b => 256 * n + b.toNat) start =
      start * 256 ^ bytes.length + ofUintBytes bytes := by
  unfold ofUintBytes
  induction bytes generalizing start with
  | nil => simp
  | cons b rest ih =>
    simp only [List.foldl_cons, List.length_cons]
    rw [ih, ih (256 * 0 + b.toNat), Nat.mul_zero, Nat.zero_add, Nat.add_mul, Nat.pow_succ,
      ← Nat.add_assoc, Nat.mul_comm 256 start, Nat.mul_assoc, Nat.mul_comm 256]

theorem ofUintBytes_cons (b : UInt8) (rest : List UInt8) :
    ofUintBytes (b :: rest) = b.toNat * 256 ^ rest.length + ofUintBytes rest := by
  rw [ofUintBytes, List.foldl_cons, foldl_eq, Nat.mul_zero, Nat.zero_add]

theorem ofUintBytes_lt (bytes : List UInt8) : ofUintBytes bytes < 256 ^ bytes.length := by
  induction bytes with
  | nil => decide
  | cons b rest ih =>
    have hb : b.toNat + 1 ≤ 256 := b.toNat_lt
    have := Nat.mul_le_mul_right (256 ^ rest.length) hb
    rw [ofUintBytes_cons, List.length_cons, Nat.pow_succ']
    rw [Nat.add_mul, Nat.one_mul] at this
    omega

/-- Only the low bytes of a number are written. -/
theorem uintBytes_add (width high low : Nat) :
    uintBytes width (high * 256 ^ width + low) = uintBytes width low := by
  induction width generalizing high with
  | zero => rfl
  | succ width ih =>
    have hpow : high * 256 ^ (width + 1) = high * 256 * 256 ^ width := by
      rw [Nat.pow_succ', Nat.mul_assoc]
    rw [uintBytes_succ, uintBytes_succ, hpow, ih (high * 256)]
    congr 1
    apply UInt8.toNat_inj.1
    rw [UInt8.toNat_ofNat', UInt8.toNat_ofNat', Nat.add_comm (high * 256 * 256 ^ width),
      Nat.add_mul_div_right _ _ (Nat.pow_pos (by decide))]
    omega

theorem uintBytes_ofUintBytes (bytes : List UInt8) :
    uintBytes bytes.length (ofUintBytes bytes) = bytes := by
  induction bytes with
  | nil => rfl
  | cons b rest ih =>
    rw [List.length_cons, uintBytes_succ, ofUintBytes_cons, uintBytes_add, ih]
    congr 1
    rw [Nat.add_comm, Nat.add_mul_div_right _ _ (Nat.pow_pos (by decide)),
      Nat.div_eq_of_lt (ofUintBytes_lt rest), Nat.zero_add, UInt8.ofNat_toNat]

theorem ofUintBytes_uintBytes {width value : Nat} (h : value < 256 ^ width) :
    ofUintBytes (uintBytes width value) = value := by
  induction width generalizing value with
  | zero =>
    rw [Nat.pow_zero] at h
    obtain rfl : value = 0 := by omega
    rfl
  | succ width ih =>
    have hpos : 0 < 256 ^ width := Nat.pow_pos (by decide)
    rw [Nat.pow_succ'] at h
    have hhead : value / 256 ^ width < 256 := (Nat.div_lt_iff_lt_mul hpos).2 h
    have hvalue : value = value / 256 ^ width * 256 ^ width + value % 256 ^ width := by
      rw [Nat.mul_comm, Nat.div_add_mod]
    have hlow : uintBytes width value = uintBytes width (value % 256 ^ width) := by
      rw [← uintBytes_add width (value / 256 ^ width) (value % 256 ^ width), ← hvalue]
    rw [uintBytes_succ, ofUintBytes_cons, length_uintBytes, UInt8.toNat_ofNat_of_lt' hhead, hlow,
      ih (Nat.mod_lt _ hpos), ← hvalue]

/-! ## Steps -/

namespace Read

theorem run_bind {α β : Type} {step : Read α} {next : α → Read β} {bytes rest : List UInt8}
    {b : β} : (step >>= next).run bytes = .ok (b, rest) ↔
      ∃ a mid, step.run bytes = .ok (a, mid) ∧ (next a).run mid = .ok (b, rest) := by
  rw [StateT.run_bind]
  constructor
  · intro h
    cases hs : step.run bytes with
    | error e => rw [hs] at h; cases h
    | ok p => exact ⟨p.1, p.2, rfl, by rw [hs] at h; exact h⟩
  · rintro ⟨a, mid, hs, hn⟩
    rw [hs]
    exact hn

theorem run_bind_of_ok {α β : Type} {step : Read α} {bytes mid : List UInt8} {a : α}
    (h : step.run bytes = .ok (a, mid)) (next : α → Read β) :
    (step >>= next).run bytes = (next a).run mid := by
  rw [StateT.run_bind, h]
  rfl

theorem run_pure {α : Type} {a a' : α} {bytes rest : List UInt8} :
    (pure a : Read α).run bytes = .ok (a', rest) ↔ a = a' ∧ bytes = rest := by
  rw [StateT.run_pure]
  simp only [pure, Except.pure, Except.ok.injEq, Prod.mk.injEq]

theorem splitExactly_eq_some {n : Nat} {bytes front rest : List UInt8} :
    splitExactly n bytes = some (front, rest) ↔ front.length = n ∧ bytes = front ++ rest := by
  induction n generalizing bytes front with
  | zero =>
    simp only [splitExactly, Option.some.injEq, Prod.mk.injEq, List.length_eq_zero_iff]
    constructor
    · rintro ⟨rfl, rfl⟩
      exact ⟨rfl, rfl⟩
    · rintro ⟨rfl, rfl⟩
      exact ⟨rfl, rfl⟩
  | succ n ih =>
    cases bytes with
    | nil =>
      simp only [splitExactly, reduceCtorEq, false_iff]
      rintro ⟨hlen, happ⟩
      rw [(List.append_eq_nil_iff.1 happ.symm).1] at hlen
      cases hlen
    | cons x xs =>
      simp only [splitExactly, Option.map_eq_some_iff, Prod.exists, Prod.mk.injEq]
      constructor
      · rintro ⟨f, r, hsplit, rfl, rfl⟩
        obtain ⟨hlen, rfl⟩ := ih.1 hsplit
        exact ⟨by rw [List.length_cons, hlen], rfl⟩
      · rintro ⟨hlen, happ⟩
        cases front with
        | nil => cases hlen
        | cons y ys =>
          rw [List.cons_append, List.cons.injEq] at happ
          obtain ⟨rfl, rfl⟩ := happ
          exact ⟨ys, rest, ih.2 ⟨by simpa using hlen, rfl⟩, rfl, rfl⟩

theorem run_take {n : Nat} {bytes front rest : List UInt8} :
    (take n).run bytes = .ok (front, rest) ↔ front.length = n ∧ bytes = front ++ rest := by
  rw [← splitExactly_eq_some]
  show take n bytes = _ ↔ _
  unfold take
  cases splitExactly n bytes with
  | none => exact iff_of_false (fun h => by cases h) (fun h => by cases h)
  | some p => simp only [Except.ok.injEq, Option.some.injEq]

theorem run_take_of_length_lt {n : Nat} {bytes : List UInt8} (h : bytes.length < n) :
    (take n).run bytes = .error .unexpectedEnd := by
  show take n bytes = _
  unfold take
  cases hsplit : splitExactly n bytes with
  | none => rfl
  | some p =>
    obtain ⟨hlen, hbytes⟩ := splitExactly_eq_some.1 hsplit
    rw [hbytes, List.length_append] at h
    omega

theorem run_bind_of_error {α β : Type} {step : Read α} {bytes : List UInt8} {e : BagError}
    (h : step.run bytes = .error e) (next : α → Read β) :
    (step >>= next).run bytes = .error e := by
  rw [StateT.run_bind, h]
  rfl

theorem run_byte {bytes rest : List UInt8} {b : UInt8} :
    byte.run bytes = .ok (b, rest) ↔ bytes = b :: rest := by
  unfold byte
  rw [run_bind]
  simp only [run_take, run_pure]
  constructor
  · rintro ⟨front, mid, ⟨hlen, rfl⟩, rfl, rfl⟩
    obtain ⟨x, rfl⟩ := List.length_eq_one_iff.1 hlen
    rfl
  · rintro rfl
    exact ⟨[b], rest, ⟨rfl, rfl⟩, rfl, rfl⟩

theorem run_uint {width n : Nat} {bytes rest : List UInt8} :
    (uint width).run bytes = .ok (n, rest) ↔
      n < 256 ^ width ∧ bytes = uintBytes width n ++ rest := by
  unfold uint
  rw [run_bind]
  simp only [run_take, run_pure]
  constructor
  · rintro ⟨front, mid, ⟨rfl, rfl⟩, rfl, rfl⟩
    exact ⟨ofUintBytes_lt front, by rw [← ofUintBytes, uintBytes_ofUintBytes]⟩
  · rintro ⟨hlt, rfl⟩
    exact ⟨uintBytes width n, rest, ⟨length_uintBytes .., rfl⟩, ofUintBytes_uintBytes hlt, rfl⟩

theorem run_check {ok : Bool} {e : BagError} {u : Unit} {bytes rest : List UInt8} :
    (check ok e).run bytes = .ok (u, rest) ↔ ok = true ∧ bytes = rest := by
  unfold check
  cases ok
  · simp [throw, throwThe, MonadExceptOf.throw, StateT.run, StateT.lift, bind, Except.bind]
  · have h : (pure () : Read Unit).run bytes = .ok (u, rest) ↔ () = u ∧ bytes = rest := run_pure
    simpa using h

theorem run_get {bytes bytes' rest : List UInt8} :
    (get : Read (List UInt8)).run bytes = .ok (bytes', rest) ↔ bytes = bytes' ∧ bytes = rest := by
  rw [StateT.run_get]
  simp only [pure, Except.pure, Except.ok.injEq, Prod.mk.injEq]

end Read

end CellAbi.Bag
