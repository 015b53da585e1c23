import CellAbi.Proofs.Address.Wire

/-!
# Sequences of stores read back

Every operation of a builder has a load that reads back what it stored, and a sequence of loads
reads back what the sequence of their stores wrote, whatever the operations are and wherever in a
byte their bits begin.  Numbers of at most 64 bits are read as machine words.

    ReadBy op.step op.load op.datum                                           (`StoreOp.readBy`)
    Cell.ofStore (ops.forM StoreOp.step) = .ok c →
      ∃ s, (ops.mapM StoreOp.load).run c.toSlice = .ok (ops.map StoreOp.datum) s ∧
        s.remainingBits = 0 ∧ s.remainingRefs = 0                       (`run_loads_of_ofStore`)
-/

namespace CellAbi

/-! ## Numbers of any width -/

namespace Bits

/-- The two's complement reading of at most 64 bits is a machine integer. -/
theorem toInt_toInt64 {bits : List Bool} (h : bits.length ≤ 64) :
    (Int64.ofInt (toInt bits)).toInt = toInt bits := by
  cases hn : bits.length with
  | zero =>
    rw [List.length_eq_zero_iff.1 hn]
    rfl
  | succ width =>
    obtain ⟨hlow, hhigh⟩ := toInt_range hn
    have hpow : (2 : Int) ^ width ≤ 2 ^ 63 := by
      have := Nat.pow_le_pow_right (show 2 > 0 by decide) (show width ≤ 63 by omega)
      exact_mod_cast this
    exact Int64.toInt_ofInt_of_le (by omega) (by omega)

end Bits

namespace Load

/-- Reads a number, as a machine word if it has at most 64 bits. -/
def unsigned (width : Nat) : Load Nat :=
  if width ≤ 64 then do return (← word width).toNat else nat width

/-- Reads an integer, as a machine word if it has at most 64 bits. -/
def signed (width : Nat) : Load Int :=
  if width ≤ 64 then do return (← signedWord width).toInt else int width

/-- Reads references in order. -/
def refList (count : Nat) : Load (List Cell) := (List.replicate count ()).mapM fun _ => ref

variable {bits : List Bool} {width : Nat}

theorem reads_unsigned (hbits : bits.length = width) :
    Reads (unsigned width) bits [] (Bits.toNat bits) := by
  unfold unsigned
  split
  · next hwidth =>
    have hlt := Nat.lt_of_lt_of_le (Bits.toNat_lt bits)
      (Nat.pow_le_pow_right (by decide) (hbits ▸ hwidth))
    have hread := reads_map ((takes_word hwidth).reads hbits) UInt64.toNat
    rwa [toNat_wordOfBits, Nat.mod_eq_of_lt hlt] at hread
  · exact (takes_nat width).reads hbits

theorem reads_signed (hbits : bits.length = width) :
    Reads (signed width) bits [] (Bits.toInt bits) := by
  unfold signed
  split
  · next hwidth =>
    have hread := reads_map ((takes_signedWord hwidth).reads hbits) Int64.toInt
    rwa [Bits.toInt_toInt64 (hbits ▸ hwidth)] at hread
  · exact (takes_int width).reads hbits

end Load

/-! ## Operations -/

namespace Store

open Builder Load

variable {ε α : Type}

theorem readBy_unsigned_word (w : UInt64) (width : Nat) :
    ReadBy (word w width) (unsigned width) w.toNat := by
  refine readBy_word_of fun hw => ?_
  have hread := reads_unsigned (Bits.length_ofNat width w.toNat)
  rwa [Bits.toNat_ofNat, Nat.mod_eq_of_lt hw] at hread

theorem readBy_unsigned_nat (n width : Nat) : ReadBy (nat n width) (unsigned width) n := by
  refine readBy_nat_of fun hn => ?_
  have hread := reads_unsigned (Bits.length_ofNat width n)
  rwa [Bits.toNat_ofNat, Nat.mod_eq_of_lt hn] at hread

theorem readBy_signed (i : Int) (width : Nat) : ReadBy (int i width) (signed width) i := by
  refine readBy_int_of fun hi => ?_
  have hread := reads_signed (Bits.length_ofInt width i)
  rwa [toInt_ofInt_of_fits hi] at hread

theorem readBy_truncate (data : List UInt8) (count : Nat) :
    ReadBy (bytes data count) (Load.bytes count) (Bits.truncate data count) := by
  by_cases h : count ≤ 8 * data.length
  · have hread := readBy_bytes data count
    rwa [Bits.toBytes_take_ofBytes h] at hread
  · rw [bytes_eq, if_pos (by omega)]
    exact readBy_throw _ _ _

/-- A step that depends on what the builder holds. -/
theorem readBy_get {next : Builder → Store} {load : EStateM ε Slice α} {a : α}
    (h : ∀ b, ReadBy (next b) load a) : ReadBy (MonadState.get >>= next) load a := by
  intro bits refs u b hrun
  obtain ⟨b', mid, hget, hrun⟩ := Outcome.run_bind.1 hrun
  cases hget
  exact h _ _ _ _ _ hrun

theorem readBy_maybeRef (c : Option Cell) : ReadBy (maybeRef c) Load.maybeRef c := by
  cases c with
  | none => exact (readBy_bit false).bind_nil (reads_pure none)
  | some c =>
    have hrest : ReadBy (do bit true; ref c) Load.maybeRef (some c) :=
      readBy_bind (readBy_bit true) ((readBy_ref c).bind_nil (reads_pure (some c)))
    refine readBy_get fun b => ?_
    split
    · intro bits refs u b hrun
      obtain ⟨_, _, hthrow, -⟩ := Outcome.run_bind.1 hrun
      exact absurd hthrow run_throw
    · exact hrest

theorem readBy_refList (cs : List Cell) : ReadBy (refList cs) (Load.refList cs.length) cs := by
  induction cs with
  | nil =>
    intro bits refs u b hrun
    cases hrun
    exact ⟨[], [], by rw [List.append_nil, List.append_nil], reads_pure []⟩
  | cons c cs ih =>
    have hload : Load.refList (c :: cs).length = do
        let c ← Load.ref
        let cs ← Load.refList cs.length
        return c :: cs := by
      rw [Load.refList, List.length_cons, List.replicate_succ, List.mapM_cons]
      rfl
    rw [hload]
    exact readBy_bind (readBy_ref c) (ih.bind_nil (reads_pure (c :: cs)))

end Store

/-- What a load returns. -/
inductive Datum where
  | bit (b : Bool)
  | number (value : Int)
  | bytes (data : List UInt8)
  | ref (c : Cell)
  | maybeRef (c : Option Cell)
  | address (a : Option Address)
  /-- The bits, packed, and the references of a slice. -/
  | rest (data : List UInt8) (refs : List Cell)

namespace StoreOp

open Load Store

/-- What the operation stores. -/
def datum : StoreOp → Datum
  | bit b => .bit b
  | word value _ => .number value.toNat
  | nat value _ => .number value
  | int value _ => .number value
  | bytes data count => .bytes (Bits.truncate data count)
  | ref c => .ref c
  | maybeRef c => .maybeRef c
  | address a => .address a
  | slice s => .rest (Bits.toBytes s.restBits) s.restRefs

/-- The load of the same kind and width. -/
def load : StoreOp → EStateM AddressError Slice Datum
  | bit _ => do return .bit (← liftCell Load.bit)
  | word _ width => do return .number (← liftCell (unsigned width))
  | nat _ width => do return .number (← liftCell (unsigned width))
  | int _ width => do return .number (← liftCell (signed width))
  | bytes _ count => do return .bytes (← liftCell (Load.bytes count))
  | ref _ => do return .ref (← liftCell Load.ref)
  | maybeRef _ => do return .maybeRef (← liftCell Load.maybeRef)
  | address _ => do return .address (← Load.address)
  | slice s => do
    let data ← liftCell (Load.bytes s.remainingBits)
    return .rest data (← liftCell (Load.refList s.remainingRefs))

theorem readBy_slice (s : Slice) : ReadBy (Store.slice s) (slice s).load (slice s).datum := by
  have hdata : Bits.toBytes ((Bits.ofBytes (Bits.toBytes s.restBits)).take s.remainingBits) =
      Bits.toBytes s.restBits := by
    rw [← s.length_restBits, Bits.take_ofBytes_toBytes]
  have hbytes := readBy_bytes (Bits.toBytes s.restBits) s.remainingBits
  rw [hdata] at hbytes
  have hrefs := readBy_refList s.restRefs
  rw [Slice.restRefs, List.length_drop] at hrefs
  exact readBy_bind hbytes.liftCell (hrefs.liftCell.bind_nil (reads_pure _))

/-- Every operation is read back by its load. -/
theorem readBy : ∀ op : StoreOp, ReadBy op.step op.load op.datum
  | bit b => (readBy_bit b).liftCell.bind_nil (reads_pure _)
  | word w width => (readBy_unsigned_word w width).liftCell.bind_nil (reads_pure _)
  | nat n width => (readBy_unsigned_nat n width).liftCell.bind_nil (reads_pure _)
  | int i width => (readBy_signed i width).liftCell.bind_nil (reads_pure _)
  | bytes data count => (readBy_truncate data count).liftCell.bind_nil (reads_pure _)
  | ref c => (readBy_ref c).liftCell.bind_nil (reads_pure _)
  | maybeRef c => (readBy_maybeRef c).liftCell.bind_nil (reads_pure _)
  | address a => (readBy_address a).bind_nil (reads_pure _)
  | slice s => readBy_slice s

/-- The loads of some operations read back what the operations stored, one after the other. -/
theorem readBy_mapM (ops : List StoreOp) :
    ReadBy (ops.forM step) (ops.mapM load) (ops.map datum) := by
  induction ops with
  | nil =>
    intro bits refs u b hrun
    cases hrun
    exact ⟨[], [], by rw [List.append_nil, List.append_nil], reads_pure []⟩
  | cons op ops ih =>
    rw [List.mapM_cons]
    exact readBy_bind op.readBy (ih.bind_nil (reads_pure _))

/-- Whatever operations were stored in one cell, their loads return what was stored, in order, and
leave nothing. -/
theorem run_loads_of_ofStore {ops : List StoreOp} {c : Cell}
    (h : Cell.ofStore (ops.forM step) = .ok c) :
    ∃ s, (ops.mapM load).run c.toSlice = .ok (ops.map datum) s ∧
      s.remainingBits = 0 ∧ s.remainingRefs = 0 := by
  obtain ⟨s, hrun, hbits, hrefs⟩ := (readBy_mapM ops).run_ofStore h
  refine ⟨s, hrun, ?_, ?_⟩
  · rw [← s.length_restBits, hbits, List.length_nil]
  · show s.cell.refs.length - s.refPos = 0
    rw [← List.length_drop, ← Slice.restRefs, hrefs, List.length_nil]

/-- Operations of many kinds, none of which begins at a byte. -/
def straddling : List StoreOp := [
  .bit true, .word 5 3, .int (-3) 70, .nat (2 ^ 100) 101, .bytes [0xFF, 0xFF] 11, .ref .empty,
  .maybeRef (some (.node [0xC0] 2 [])), .maybeRef none,
  .address (some (.external ⟨5, 3, by decide, by decide⟩)), .int (-128) 8, .address none]

set_option maxRecDepth 4000 in
theorem run_loads_of_ofStore_straddling :
    ∃ c s, Cell.ofStore (straddling.forM step) = .ok c ∧
      (straddling.mapM load).run c.toSlice = .ok [
        .bit true, .number 5, .number (-3), .number (2 ^ 100), .bytes [0xFF, 0xE0], .ref .empty,
        .maybeRef (some (.node [0xC0] 2 [])), .maybeRef none,
        .address (some (.external ⟨5, 3, by decide, by decide⟩)), .number (-128), .address none] s ∧
      s.remainingBits = 0 ∧ s.remainingRefs = 0 := by
  have hc : Cell.ofStore (straddling.forM step) = .ok (.node
      [223, 255, 255, 255, 255, 255, 255, 255, 255, 96, 0, 0, 0, 0, 0, 0, 0, 0, 0, 0, 0, 1, 255,
        228, 7, 96, 0] 212 [.empty, .node [0xC0] 2 []]) := rfl
  obtain ⟨s, hrun, hrest⟩ := run_loads_of_ofStore hc
  exact ⟨_, s, hc, hrun, hrest⟩

end StoreOp

end CellAbi
