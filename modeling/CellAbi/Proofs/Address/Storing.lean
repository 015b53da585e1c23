import CellAbi.Proofs.Appending

/-!
# Addresses that a cell can hold

The bits of an address are those of its tag and its parts.  Every address can be stored where there
is room for them, but the standard ones of workchains beyond eight bits.

    (Store.address a).run (ofBits bits refs) = .ok u b ↔
      Address.Storable a ∧ (wireBits a).length ≤ 1023 - bits.length ∧
        b = ofBits (bits ++ wireBits a) refs                               (`addsIff_address`)
-/

namespace CellAbi

open Builder

namespace Store

/-- Where the condition holds and there is room, the step adds these bits; elsewhere it fails. -/
def AddsIff (step : Store) (P : Prop) (more : List Bool) : Prop :=
  ∀ bits refs u b, refs.length ≤ Cell.maxRefs →
    (step.run (ofBits bits refs) = .ok u b ↔
      P ∧ more.length ≤ Cell.maxBits - bits.length ∧ b = ofBits (bits ++ more) refs)

theorem AppendsIff.adds {step : Store} {P : Prop} {more : List Bool}
    (h : AppendsIff step P more []) : AddsIff step P more := by
  intro bits refs u b hrefs
  obtain ⟨hok, herror⟩ := h bits refs hrefs
  rw [List.append_nil] at hok
  by_cases hcond : P ∧ more.length ≤ Cell.maxBits - bits.length
  · rw [hok ⟨hcond.1, hcond.2, hrefs⟩]
    constructor
    · rintro ⟨⟩
      exact ⟨hcond.1, hcond.2, rfl⟩
    · rintro ⟨-, -, rfl⟩
      rfl
  · obtain ⟨e, he⟩ := herror fun h => hcond ⟨h.1, h.2.1⟩
    rw [he]
    exact iff_of_false nofun fun h => hcond ⟨h.1, h.2.1⟩

/-- Steps one after the other add what both add, where both can. -/
theorem AddsIff.bind {step next : Store} {P Q : Prop} {more rest : List Bool}
    (hstep : AddsIff step P more) (hnext : AddsIff next Q rest) :
    AddsIff (do step; next) (P ∧ Q) (more ++ rest) := by
  intro bits refs u b hrefs
  rw [Outcome.run_bind, List.length_append, ← List.append_assoc]
  constructor
  · rintro ⟨_, _, hfirst, hsecond⟩
    obtain ⟨hP, hroom, rfl⟩ := (hstep _ _ _ _ hrefs).1 hfirst
    obtain ⟨hQ, hrest, rfl⟩ := (hnext _ _ _ _ hrefs).1 hsecond
    rw [List.length_append] at hrest
    exact ⟨⟨hP, hQ⟩, by omega, rfl⟩
  · rintro ⟨⟨hP, hQ⟩, hroom, rfl⟩
    refine ⟨(), _, (hstep _ _ _ _ hrefs).2 ⟨hP, by omega, rfl⟩, ?_⟩
    refine (hnext _ _ _ _ hrefs).2 ⟨hQ, ?_, rfl⟩
    rw [List.length_append]
    omega

theorem AddsIff.congr {step : Store} {P Q : Prop} {more : List Bool} (h : AddsIff step P more)
    (hPQ : P ↔ Q) : AddsIff step Q more := by
  intro bits refs u b hrefs
  rw [h bits refs u b hrefs, hPQ]

theorem AddsIff.exists_ofStore_iff {step : Store} {P : Prop} {more : List Bool}
    (h : AddsIff step P more) (hlen : more.length ≤ Cell.maxBits) :
    (∃ c, Cell.ofStore step = .ok c) ↔ P := by
  rw [Cell.ofStore, empty_eq]
  constructor
  · rintro ⟨c, hc⟩
    split at hc
    · next hrun => exact ((h _ _ _ _ (Nat.zero_le _)).1 hrun).1
    · cases hc
  · intro hP
    rw [(h [] [] () _ (Nat.zero_le _)).2 ⟨hP, hlen, rfl⟩]
    exact ⟨_, rfl⟩

end Store

/-- The workchains of standard addresses in cells have eight bits. -/
def StandardAddress.Storable (a : StandardAddress) : Prop :=
  -2 ^ 7 ≤ a.workchain.toInt ∧ a.workchain.toInt < 2 ^ 7

namespace Address

/-- The address has a form in cells. -/
def Storable : Option Address → Prop
  | some (.standard a) => a.Storable
  | _ => True

/-- The bits of an address in cells: its tag, and its parts in order. -/
def wireBits : Option Address → List Bool
  | none => [false, false]
  | some (.external a) => [false, true] ++ (Bits.ofNat 9 a.bits ++ Bits.ofNat a.bits a.value)
  | some (.standard a) =>
    [true, false] ++ ([false] ++ (Bits.ofInt 8 a.workchain.toInt ++ Bits.ofBytes a.hash.bytes))

theorem length_wireBits_external (a : ExternalAddress) :
    (wireBits (some (.external a))).length = 11 + a.bits := by
  simp only [wireBits, List.length_append, List.length_cons, List.length_nil, Bits.length_ofNat]
  omega

theorem length_wireBits_standard (a : StandardAddress) :
    (wireBits (some (.standard a))).length = 267 := by
  simp only [wireBits, List.length_append, List.length_cons, List.length_nil, Bits.length_ofInt,
    Bits.length_ofBytes, a.hash.length_bytes]

theorem length_wireBits_le : ∀ a, (wireBits a).length ≤ Cell.maxBits
  | none => show 2 ≤ 1023 by decide
  | some (.standard a) => by
    rw [length_wireBits_standard]
    decide
  | some (.external a) => by
    have := a.bits_le
    rw [length_wireBits_external]
    show 11 + a.bits ≤ 1023
    omega

end Address

namespace Store

/-- An address is stored exactly where it has a form in cells and there is room for its bits. -/
theorem addsIff_address : ∀ a, AddsIff (address a) (Address.Storable a) (Address.wireBits a)
  | none => (appendsIff_word 0 2).adds.congr (iff_of_true (by decide) trivial)
  | some (.external a) => by
    have hbits : a.bits.toUInt64.toNat = a.bits := by
      have := a.bits_le
      show a.bits % 2 ^ 64 = a.bits
      omega
    have hlength := (appendsIff_word a.bits.toUInt64 9).adds
    rw [hbits] at hlength
    have hadds := (appendsIff_word 1 2).adds.bind
      (hlength.bind (appendsIff_nat a.value a.bits).adds)
    exact hadds.congr
      (iff_of_true ⟨by decide, Nat.lt_succ_of_le a.bits_le, a.value_lt⟩ trivial)
  | some (.standard a) => by
    have hbytes := (appendsIff_bytes a.hash.bytes 256).adds
    have hlength : (Bits.ofBytes a.hash.bytes).length = 256 := by
      rw [Bits.length_ofBytes, a.hash.length_bytes]
    rw [List.take_of_length_le (Nat.le_of_eq hlength), a.hash.length_bytes] at hbytes
    have hadds := (appendsIff_word 2 2).adds.bind ((appendsIff_bitList [false]).adds.bind
      ((appendsIff_int a.workchain.toInt 8).adds.bind hbytes))
    refine hadds.congr ?_
    rw [fitsSigned_succ_iff]
    exact ⟨fun h => h.2.2.1, fun h => ⟨by decide, trivial, h, by decide⟩⟩

end Store

theorem exists_ofStore_address {a : Option Address} :
    (∃ c, Cell.ofStore (Store.address a) = .ok c) ↔ Address.Storable a :=
  (Store.addsIff_address a).exists_ofStore_iff (Address.length_wireBits_le a)

end CellAbi
