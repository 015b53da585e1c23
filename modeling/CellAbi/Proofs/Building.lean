import CellAbi.Address.Wire
import CellAbi.Proofs.Packing

/-!
# Builders as bit strings

A builder is the packed form of the bits and references that it holds, and every operation appends
to them or leaves them alone, also when it fails.

    (ofBits bits refs).pushBits more = ofBits (bits ++ more) refs             (`pushBits_ofBits`)
    (bitList more).run (ofBits bits refs) = .ok () b ↔
      more.length ≤ 1023 - bits.length ∧ b = ofBits (bits ++ more) refs       (`run_bitList`)
-/

namespace CellAbi

open Bits

/-! ## Packed builders -/

namespace Builder

/-- The builder that holds these bits and references. -/
def ofBits (bits : List Bool) (refs : List Cell) : Builder := ⟨toBytes bits, bits.length, refs⟩

theorem empty_eq : empty = ofBits [] [] := by rw [ofBits, toBytes_nil]; rfl

theorem get_append_zero (data : List UInt8) (i : Nat) : get (data ++ [0]) i = get data i := by
  rw [get_append]
  split
  · rfl
  · next h =>
    rw [get_of_length_le (Nat.not_lt.1 h), get_cons]
    split
    · exact Nat.zero_testBit _
    · exact get_nil _

theorem pushBit_ofBits (bits : List Bool) (refs : List Cell) (bit : Bool) :
    (ofBits bits refs).pushBit bit = ofBits (bits ++ [bit]) refs := by
  let data := if bits.length % 8 = 0 then toBytes bits ++ [0] else toBytes bits
  have hlen : data.length = byteCount (bits.length + 1) := by
    have hbytes := length_toBytes bits
    unfold byteCount at hbytes ⊢
    simp only [data]
    split
    · rw [List.length_append, List.length_singleton]
      omega
    · omega
  have hget : ∀ i, get data i = bits[i]?.getD false := by
    intro i
    rw [← get_toBytes]
    simp only [data]
    split
    · exact get_append_zero _ _
    · rfl
  have hlast : data.length - 1 = bits.length / 8 := by
    unfold byteCount at hlen
    omega
  have hroom : bits.length < 8 * data.length := by
    unfold byteCount at hlen
    omega
  have hdata : (if bit then data.modify (data.length - 1) (· ||| mask bits.length) else data) =
      toBytes (bits ++ [bit]) := by
    apply bytes_ext
    · rw [length_toBytes, List.length_append, List.length_singleton, ← hlen]
      split
      · exact List.length_modify ..
      · rfl
    · intro i _
      rw [get_toBytes, List.getElem?_append]
      have hi : get (if bit then data.modify (data.length - 1) (· ||| mask bits.length)
          else data) i = (get data i || (bit && decide (i = bits.length))) := by
        cases bit
        · rw [Bool.false_and, Bool.or_false]
          rfl
        · rw [if_pos rfl, hlast, get_modify_mask hroom, Bool.true_and]
      rw [hi, hget]
      by_cases h1 : i < bits.length
      · rw [if_pos h1, decide_eq_false (by omega), Bool.and_false, Bool.or_false]
      · rw [if_neg h1, List.getElem?_eq_none (by omega)]
        by_cases h2 : i = bits.length
        · simp [h2]
        · rw [List.getElem?_eq_none (by simp; omega), decide_eq_false h2]
          simp
  show Builder.mk _ _ _ = Builder.mk _ _ _
  rw [List.length_append, List.length_singleton]
  exact congrArg (Builder.mk · (bits.length + 1) refs) hdata

theorem pushBits_ofBits (bits more : List Bool) (refs : List Cell) :
    (ofBits bits refs).pushBits more = ofBits (bits ++ more) refs := by
  induction more generalizing bits with
  | nil => rw [List.append_nil]; rfl
  | cons b more ih =>
    show ((ofBits bits refs).pushBit b).pushBits more = _
    rw [pushBit_ofBits, ih, List.append_assoc, List.singleton_append]

end Builder

/-! ## Running steps -/

namespace Store

open Builder

theorem reserve_run (count : Nat) (b : Builder) :
    (reserve count).run b = if count > b.availableBits then
      .error (.bitOverflow count b.availableBits) b else .ok () b := by
  show (if count > b.availableBits then throw (.bitOverflow count b.availableBits)
    else pure () : Store).run b = _
  split <;> rfl

theorem bitList_run (more : List Bool) (b : Builder) :
    (bitList more).run b = if more.length > b.availableBits then
      .error (.bitOverflow more.length b.availableBits) b else .ok () (b.pushBits more) := by
  have hres := reserve_run more.length b
  show EStateM.bind (reserve more.length) _ b = _
  unfold EStateM.bind
  rw [show reserve more.length b = _ from hres]
  by_cases h : more.length > b.availableBits
  · rw [if_pos h, if_pos h]
  · rw [if_neg h, if_neg h]
    rfl

theorem bit_eq (b : Bool) : bit b = bitList [b] := rfl

theorem length_wordBits (width : Nat) (value : UInt64) : (wordBits width value).length = width := by
  simp [wordBits]

theorem word_eq (value : UInt64) (width : Nat) :
    word value width = if width < 64 ∧ value >>> width.toUInt64 ≠ 0 then
      throw (.valueOutOfRange value.toNat width) else bitList (wordBits width value) := by
  unfold word bitList
  rw [length_wordBits]
  split <;> rfl

theorem nat_eq (value width : Nat) :
    nat value width = if size value > width then throw (.valueOutOfRange value width)
      else bitList (ofNat width value) := by
  unfold nat bitList
  rw [length_ofNat]
  split <;> rfl

theorem int_eq (value : Int) (width : Nat) :
    int value width = if fitsSigned width value then bitList (ofInt width value)
      else throw (.valueOutOfRange value width) := by
  unfold int bitList
  rw [length_ofInt]
  cases fitsSigned width value <;> rfl

theorem bytes_eq (data : List UInt8) (count : Nat) :
    bytes data count = if count > data.length * 8 then throw (.bitUnderflow count (data.length * 8))
      else bitList ((ofBytes data).take count) := by
  unfold bytes bitList
  split
  · rfl
  · next h =>
    rw [List.length_take, length_ofBytes, Nat.min_eq_left (by omega)]

theorem ref_run (c : Cell) (b : Builder) :
    (ref c).run b = if b.refs.length ≥ Cell.maxRefs then .error .refOverflow b
      else .ok () { b with refs := b.refs ++ [c] } := by
  show (if b.refs.length ≥ Cell.maxRefs then throw .refOverflow >>= fun (_ : PUnit) => _
    else _ : Store).run b = _
  split <;> rfl

/-! ## Success -/

variable {bits : List Bool} {refs : List Cell} {u : Unit} {b : Builder}

theorem run_throw {α : Type} {e : CellError} {a : α} {b b' : Builder} :
    ¬ (throw e : EStateM CellError Builder α).run b = .ok a b' := nofun

theorem run_bitList {more : List Bool} :
    (bitList more).run (ofBits bits refs) = .ok u b ↔
      more.length ≤ Cell.maxBits - bits.length ∧ b = ofBits (bits ++ more) refs := by
  rw [bitList_run, pushBits_ofBits]
  show (if more.length > Cell.maxBits - bits.length then _ else _) = _ ↔ _
  split
  · next h => exact iff_of_false nofun fun hok => Nat.not_lt.2 hok.1 h
  · next h =>
    rw [EStateM.Result.ok.injEq]
    constructor
    · rintro ⟨-, rfl⟩
      exact ⟨Nat.not_lt.1 h, rfl⟩
    · rintro ⟨-, rfl⟩
      exact ⟨rfl, rfl⟩

theorem run_ref {c : Cell} :
    (ref c).run (ofBits bits refs) = .ok u b ↔
      refs.length < Cell.maxRefs ∧ b = ofBits bits (refs ++ [c]) := by
  rw [ref_run]
  show (if refs.length ≥ Cell.maxRefs then _ else _) = _ ↔ _
  split
  · next h => exact iff_of_false nofun fun hok => Nat.not_lt.2 h hok.1
  · next h =>
    rw [EStateM.Result.ok.injEq]
    constructor
    · rintro ⟨-, rfl⟩
      exact ⟨Nat.not_le.1 h, rfl⟩
    · rintro ⟨-, rfl⟩
      exact ⟨rfl, rfl⟩

/-! ## Operations -/

/-- The builder that a step leaves, also when it fails. -/
def after {α : Type} (s : EStateM CellError Builder α) (b : Builder) : Builder :=
  match s.run b with
  | .ok _ b' => b'
  | .error _ b' => b'

/-- The step leaves what a builder holds in place, and adds within the limits at most. -/
def Appends {α : Type} (s : EStateM CellError Builder α) : Prop :=
  ∀ bits refs, bits.length ≤ Cell.maxBits → refs.length ≤ Cell.maxRefs →
    ∃ moreBits moreRefs, after s (ofBits bits refs) = ofBits (bits ++ moreBits) (refs ++ moreRefs) ∧
      (bits ++ moreBits).length ≤ Cell.maxBits ∧ (refs ++ moreRefs).length ≤ Cell.maxRefs

theorem appends_of_after_eq {α : Type} {s : EStateM CellError Builder α}
    (h : ∀ b, after s b = b) : Appends s := by
  intro bits refs hbits hrefs
  refine ⟨[], [], ?_, ?_, ?_⟩
  · rw [h, List.append_nil, List.append_nil]
  · rwa [List.append_nil]
  · rwa [List.append_nil]

theorem appends_bind {α β : Type} {s : EStateM CellError Builder α}
    {next : α → EStateM CellError Builder β} (hs : Appends s) (hn : ∀ a, Appends (next a)) :
    Appends (s >>= next) := by
  intro bits refs hbits hrefs
  obtain ⟨bits₁, refs₁, h₁, hbits₁, hrefs₁⟩ := hs bits refs hbits hrefs
  have hrun : (s >>= next).run (ofBits bits refs) = EStateM.bind s next (ofBits bits refs) := rfl
  unfold after at h₁ ⊢
  rw [hrun, EStateM.bind]
  cases h : s.run (ofBits bits refs) with
  | error e b =>
    rw [h] at h₁
    rw [show s (ofBits bits refs) = _ from h]
    exact ⟨bits₁, refs₁, h₁, hbits₁, hrefs₁⟩
  | ok a b =>
    rw [h] at h₁
    rw [show s (ofBits bits refs) = _ from h]
    obtain rfl : b = _ := h₁
    obtain ⟨bits₂, refs₂, h₂, hbits₂, hrefs₂⟩ := hn a _ _ hbits₁ hrefs₁
    refine ⟨bits₁ ++ bits₂, refs₁ ++ refs₂, ?_, ?_, ?_⟩
    · rw [← List.append_assoc, ← List.append_assoc]
      exact h₂
    · rwa [← List.append_assoc]
    · rwa [← List.append_assoc]

theorem appends_throw {α : Type} (e : CellError) :
    Appends (throw e : EStateM CellError Builder α) :=
  appends_of_after_eq fun _ => rfl

theorem appends_get : Appends (MonadState.get : EStateM CellError Builder Builder) :=
  appends_of_after_eq fun _ => rfl

theorem appends_bitList (more : List Bool) : Appends (bitList more) := by
  intro bits refs hbits hrefs
  unfold after
  rw [bitList_run]
  by_cases h : more.length > (ofBits bits refs).availableBits
  · rw [if_pos h]
    exact ⟨[], [], by rw [List.append_nil, List.append_nil], by simpa using hbits,
      by simpa using hrefs⟩
  · have hroom : more.length ≤ Cell.maxBits - bits.length := Nat.not_lt.1 h
    rw [if_neg h]
    refine ⟨more, [], ?_, ?_, by simpa using hrefs⟩
    · rw [pushBits_ofBits, List.append_nil]
    · rw [List.length_append]
      omega

theorem appends_ref (c : Cell) : Appends (ref c) := by
  intro bits refs hbits hrefs
  unfold after
  rw [ref_run]
  by_cases h : (ofBits bits refs).refs.length ≥ Cell.maxRefs
  · rw [if_pos h]
    exact ⟨[], [], by rw [List.append_nil, List.append_nil], by simpa using hbits,
      by simpa using hrefs⟩
  · have hroom : refs.length < Cell.maxRefs := Nat.not_le.1 h
    rw [if_neg h]
    refine ⟨[], [c], ?_, by simpa using hbits, ?_⟩
    · rw [List.append_nil]
      rfl
    · rw [List.length_append, List.length_singleton]
      omega

theorem appends_refList (cs : List Cell) : Appends (refList cs) := by
  induction cs with
  | nil => exact appends_of_after_eq fun _ => rfl
  | cons c cs ih => exact appends_bind (appends_ref c) fun _ => ih

theorem appends_word (value : UInt64) (width : Nat) : Appends (word value width) := by
  rw [word_eq]
  split
  · exact appends_throw _
  · exact appends_bitList _

theorem appends_nat (value width : Nat) : Appends (nat value width) := by
  rw [nat_eq]
  split
  · exact appends_throw _
  · exact appends_bitList _

theorem appends_int (value : Int) (width : Nat) : Appends (int value width) := by
  rw [int_eq]
  split
  · exact appends_bitList _
  · exact appends_throw _

theorem appends_bytes (data : List UInt8) (count : Nat) : Appends (bytes data count) := by
  rw [bytes_eq]
  split
  · exact appends_throw _
  · exact appends_bitList _

theorem appends_maybeRef (c : Option Cell) : Appends (maybeRef c) := by
  cases c with
  | none => exact appends_bitList [false]
  | some c =>
    have hrest : Appends (bit true >>= fun _ => ref c) :=
      appends_bind (appends_bitList [true]) fun _ => appends_ref c
    refine appends_bind appends_get fun b => ?_
    split
    · exact appends_bind (appends_throw _) fun _ => hrest
    · exact hrest

theorem appends_address (a : Option Address) : Appends (address a) := by
  match a with
  | none => exact appends_word 0 2
  | some (.standard a) =>
    refine appends_bind (appends_word 2 2) fun _ => ?_
    refine appends_bind (appends_bitList [false]) fun _ => ?_
    exact appends_bind (appends_int _ 8) fun _ => appends_bytes _ 256
  | some (.external a) =>
    refine appends_bind (appends_word 1 2) fun _ => ?_
    exact appends_bind (appends_word _ 9) fun _ => appends_nat _ _

end Store

/-- One operation of a builder. -/
inductive StoreOp where
  | bit (b : Bool)
  | word (value : UInt64) (width : Nat)
  | nat (value width : Nat)
  | int (value : Int) (width : Nat)
  | bytes (data : List UInt8) (count : Nat)
  | ref (c : Cell)
  | maybeRef (c : Option Cell)
  | address (a : Option Address)
  | slice (s : Slice)

def StoreOp.step : StoreOp → Store
  | bit b => Store.bit b
  | word value width => Store.word value width
  | nat value width => Store.nat value width
  | int value width => Store.int value width
  | bytes data count => Store.bytes data count
  | ref c => Store.ref c
  | maybeRef c => Store.maybeRef c
  | address a => Store.address a
  | slice s => Store.slice s

theorem StoreOp.appends_step : ∀ op : StoreOp, Store.Appends op.step
  | bit b => Store.appends_bitList [b]
  | word value width => Store.appends_word value width
  | nat value width => Store.appends_nat value width
  | int value width => Store.appends_int value width
  | bytes data count => Store.appends_bytes data count
  | ref c => Store.appends_ref c
  | maybeRef c => Store.appends_maybeRef c
  | address a => Store.appends_address a
  | slice _ => Store.appends_bind (Store.appends_bytes _ _) fun _ => Store.appends_refList _

namespace Builder

/-- The builder after these operations, some of which may have failed. -/
def ofOps (ops : List StoreOp) : Builder := ops.foldl (fun b op => Store.after op.step b) empty

/-- Operations leave in place what a builder holds, and add within the limits at most. -/
theorem foldl_after (ops : List StoreOp) (bits : List Bool) (refs : List Cell)
    (hbits : bits.length ≤ Cell.maxBits) (hrefs : refs.length ≤ Cell.maxRefs) :
    ∃ moreBits moreRefs, ops.foldl (fun b op => Store.after op.step b) (ofBits bits refs) =
        ofBits (bits ++ moreBits) (refs ++ moreRefs) ∧
      (bits ++ moreBits).length ≤ Cell.maxBits ∧ (refs ++ moreRefs).length ≤ Cell.maxRefs := by
  induction ops generalizing bits refs with
  | nil => exact ⟨[], [], by simp, by simpa using hbits, by simpa using hrefs⟩
  | cons op ops ih =>
    obtain ⟨bits₁, refs₁, h₁, hbits₁, hrefs₁⟩ := op.appends_step bits refs hbits hrefs
    obtain ⟨bits₂, refs₂, h₂, hlimits⟩ := ih _ _ hbits₁ hrefs₁
    rw [List.append_assoc, List.append_assoc] at h₂ hlimits
    exact ⟨bits₁ ++ bits₂, refs₁ ++ refs₂, by rw [List.foldl_cons, h₁, h₂], hlimits⟩

/-- Whatever the operations, the builder is the packed form of bits and references within the
limits. -/
theorem ofOps_eq (ops : List StoreOp) :
    ∃ bits refs, ofOps ops = ofBits bits refs ∧ bits.length ≤ Cell.maxBits ∧
      refs.length ≤ Cell.maxRefs := by
  obtain ⟨bits, refs, h⟩ := foldl_after ops [] [] (Nat.zero_le _) (Nat.zero_le _)
  rw [List.nil_append, List.nil_append] at h
  exact ⟨bits, refs, by rw [ofOps, empty_eq, h.1], h.2⟩

/-- What is built is in normal form. -/
theorem normalNode_build (ops : List StoreOp) : (ofOps ops).build.NormalNode := by
  obtain ⟨bits, refs, h, hbits, hrefs⟩ := ofOps_eq ops
  rw [h]
  exact ⟨(packed_toBytes bits).1, (packed_toBytes bits).2, hbits, hrefs⟩

end Builder

end CellAbi
