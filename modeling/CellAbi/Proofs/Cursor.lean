import CellAbi.Proofs.Address.Format
import CellAbi.Proofs.Bag.NormalForm
import CellAbi.Proofs.MachineWord
import CellAbi.Proofs.Sequences

/-!
# Cursors in cells

However a cell came about and whatever is loaded from it, the cursor stays inside of the cell, and
what it moves over are bits of the bytes of the cell and references of it, each in its place.  A
load that takes one thing does not move where it fails.

    Moves op.load op.Gives                                            (`LoadOp.moves_load`)
    op.IsSingle → FailsInPlace op.load                         (`LoadOp.failsInPlace_load`)
    (c.cursorAfter ops).Inside c                                (`Cell.inside_cursorAfter`)
-/

namespace CellAbi

/-! ## Cells -/

namespace Cell

/-- The cell was built, or it is one of a tree that was read from a bag. -/
def Obtained (c : Cell) : Prop :=
  (∃ ops, c = (Builder.ofOps ops).build) ∨
    ∃ bytes root, ofBag bytes = .ok root ∧ root.Descends c

theorem Obtained.readNode {c : Cell} (h : c.Obtained) : c.ReadNode := by
  obtain ⟨ops, rfl⟩ | ⟨bytes, root, hbag, hdescends⟩ := h
  · exact (Builder.normalNode_build ops).readNode
  · obtain ⟨L, -, hL, hroot, -, rfl⟩ := Bag.read_eq_ok_iff.1 (Outcome.mapError_eq_ok.1 hbag)
    exact hL.readNode_of_descends hroot hdescends

/-- Every bit of the cell is in one of its bytes. -/
theorem Obtained.bitLen_le {c : Cell} (h : c.Obtained) : c.bitLen ≤ 8 * c.data.length :=
  h.readNode.length_bits.2

end Cell

/-! ## Movements -/

namespace Slice

/-- The cursor is in the cell, at most behind its last bit and behind its last reference. -/
structure Inside (s : Slice) (c : Cell) : Prop where
  cell_eq : s.cell = c
  bitPos_le : s.bitPos ≤ c.bitLen
  refPos_le : s.refPos ≤ c.refs.length

/-- The cursor moves over these bits, each of which is in a byte of the cell, and over these
references. -/
structure Advances (s s' : Slice) (bits : List Bool) (refs : List Cell) : Prop where
  cell_eq : s'.cell = s.cell
  bitPos_eq : s'.bitPos = s.bitPos + bits.length
  refPos_eq : s'.refPos = s.refPos + refs.length
  getElem_bits : ∀ (i : Nat) (h : i < bits.length), ∃ byte,
    s.cell.data[(s.bitPos + i) / 8]? = some byte ∧
      bits[i] = byte.toNat.testBit (7 - (s.bitPos + i) % 8)
  getElem_refs : ∀ (i : Nat) (h : i < refs.length), s.cell.refs[s.refPos + i]? = some refs[i]

variable {s s' s'' : Slice} {c : Cell}

theorem inside_toSlice (c : Cell) : c.toSlice.Inside c := ⟨rfl, Nat.zero_le _, Nat.zero_le _⟩

theorem Inside.add_remaining (h : s.Inside c) :
    s.bitPos + s.remainingBits = c.bitLen ∧ s.refPos + s.remainingRefs = c.refs.length := by
  obtain ⟨rfl, hbits, hrefs⟩ := h
  exact ⟨Nat.add_sub_cancel' hbits, Nat.add_sub_cancel' hrefs⟩

theorem advances_refl (s : Slice) : s.Advances s [] [] := ⟨rfl, rfl, rfl, nofun, nofun⟩

theorem Advances.trans {bits bits' : List Bool} {refs refs' : List Cell}
    (h : s.Advances s' bits refs) (h' : s'.Advances s'' bits' refs') :
    s.Advances s'' (bits ++ bits') (refs ++ refs') where
  cell_eq := h'.cell_eq.trans h.cell_eq
  bitPos_eq := by rw [h'.bitPos_eq, h.bitPos_eq, List.length_append, Nat.add_assoc]
  refPos_eq := by rw [h'.refPos_eq, h.refPos_eq, List.length_append, Nat.add_assoc]
  getElem_bits i hi := by
    by_cases hfront : i < bits.length
    · rw [List.getElem_append_left hfront]
      exact h.getElem_bits i hfront
    · have hplace : s'.bitPos + (i - bits.length) = s.bitPos + i := by
        rw [h.bitPos_eq]
        omega
      rw [List.length_append] at hi
      rw [List.getElem_append_right (by omega), ← hplace, ← h.cell_eq]
      exact h'.getElem_bits _ (by omega)
  getElem_refs i hi := by
    by_cases hfront : i < refs.length
    · rw [List.getElem_append_left hfront]
      exact h.getElem_refs i hfront
    · have hplace : s'.refPos + (i - refs.length) = s.refPos + i := by
        rw [h.refPos_eq]
        omega
      rw [List.length_append] at hi
      rw [List.getElem_append_right (by omega), ← hplace, ← h.cell_eq]
      exact h'.getElem_refs _ (by omega)

theorem Inside.skipBits (h : s.Inside c) {count : Nat} (hroom : count ≤ s.remainingBits) :
    (s.skipBits count).Inside c := by
  have hsum := h.add_remaining.1
  exact ⟨h.cell_eq, show s.bitPos + count ≤ c.bitLen by omega, h.refPos_le⟩

/-- No bit before the end of the cell is read past its bytes. -/
theorem Inside.advances_skipBits (h : s.Inside c) (hc : c.bitLen ≤ 8 * c.data.length) {count : Nat}
    (hroom : count ≤ s.remainingBits) :
    s.Advances (s.skipBits count) (s.peekBits count) [] where
  cell_eq := rfl
  bitPos_eq := by
    rw [s.length_peekBits]
    rfl
  refPos_eq := rfl
  getElem_bits i hi := by
    have hsum := h.add_remaining.1
    rw [s.length_peekBits] at hi
    have hbyte : (s.bitPos + i) / 8 < s.cell.data.length := by
      rw [h.cell_eq]
      omega
    refine ⟨s.cell.data[(s.bitPos + i) / 8], List.getElem?_eq_getElem hbyte, ?_⟩
    rw [← Bits.get_eq_testBit (List.getElem?_eq_getElem hbyte)]
    simp only [peekBits, List.getElem_map, List.getElem_range]
  getElem_refs := nofun

end Slice

/-! ## Steps -/

namespace Load

variable {ε α β : Type}

/-- The cursor that a step leaves, also when it fails. -/
def after (step : EStateM ε Slice α) (s : Slice) : Slice :=
  match step.run s with
  | .ok _ s' => s'
  | .error _ s' => s'

/-- Inside of a cell whose bytes hold its bits, the step moves on to another place inside, and what
it moves over determines its result. -/
def Moves (step : EStateM ε Slice α) (gives : List Bool → List Cell → α → Prop) : Prop :=
  ∀ (c : Cell) (s : Slice), c.bitLen ≤ 8 * c.data.length → s.Inside c →
    ∃ bits refs, s.Advances (after step s) bits refs ∧ (after step s).Inside c ∧
      ∀ a s', step.run s = .ok a s' → gives bits refs a

/-- Where the step fails, it does not move. -/
def FailsInPlace (step : EStateM ε Slice α) : Prop := ∀ s e s', step.run s = .error e s' → s' = s

variable {step : EStateM ε Slice α} {gives gives' : List Bool → List Cell → α → Prop} {s s' : Slice}

theorem after_of_ok {a : α} (h : step.run s = .ok a s') : after step s = s' := by rw [after, h]

theorem after_of_error {e : ε} (h : step.run s = .error e s') : after step s = s' := by
  rw [after, h]

theorem moves_throw (e : ε) : Moves (throw e : EStateM ε Slice α) gives :=
  fun _ s _ hs => ⟨[], [], s.advances_refl, hs, nofun⟩

theorem failsInPlace_throw (e : ε) : FailsInPlace (throw e : EStateM ε Slice α) := by
  intro s e' s' hrun
  cases hrun
  rfl

theorem moves_pure (a : α) :
    Moves (pure a : EStateM ε Slice α) fun bits refs b => bits = [] ∧ refs = [] ∧ b = a := by
  intro c s _ hs
  refine ⟨[], [], s.advances_refl, hs, fun b s' h => ?_⟩
  cases h
  exact ⟨rfl, rfl, rfl⟩

theorem Moves.imp (h : Moves step gives) (himp : ∀ bits refs a, gives bits refs a →
    gives' bits refs a) : Moves step gives' := by
  intro c s hc hs
  obtain ⟨bits, refs, hadvances, hinside, hgives⟩ := h c s hc hs
  exact ⟨bits, refs, hadvances, hinside, fun a s' hrun => himp _ _ _ (hgives a s' hrun)⟩

/-- The movements of two steps are one movement. -/
theorem Moves.bind {next : α → EStateM ε Slice β} {givesNext : α → List Bool → List Cell → β → Prop}
    (h : Moves step gives) (hnext : ∀ a, Moves (next a) (givesNext a)) :
    Moves (step >>= next) fun bits refs b => ∃ a bits₁ refs₁ bits₂ refs₂,
      bits = bits₁ ++ bits₂ ∧ refs = refs₁ ++ refs₂ ∧ gives bits₁ refs₁ a ∧
        givesNext a bits₂ refs₂ b := by
  intro c s hc hs
  obtain ⟨bits₁, refs₁, hadvances₁, hinside₁, hgives₁⟩ := h c s hc hs
  cases hrun : step.run s with
  | error e mid =>
    have hbind : (step >>= next).run s = .error e mid := by rw [EStateM.run_bind, hrun]
    rw [after_of_error hrun] at hadvances₁ hinside₁
    rw [after_of_error hbind, hbind]
    exact ⟨bits₁, refs₁, hadvances₁, hinside₁, nofun⟩
  | ok a mid =>
    have hbind : (step >>= next).run s = (next a).run mid := by rw [EStateM.run_bind, hrun]
    have hafter : after (step >>= next) s = after (next a) mid := by rw [after, hbind, after]
    rw [after_of_ok hrun] at hadvances₁ hinside₁
    obtain ⟨bits₂, refs₂, hadvances₂, hinside₂, hgives₂⟩ := hnext a c mid hc hinside₁
    rw [hafter, hbind]
    exact ⟨bits₁ ++ bits₂, refs₁ ++ refs₂, hadvances₁.trans hadvances₂, hinside₂, fun b s' hb =>
      ⟨a, bits₁, refs₁, bits₂, refs₂, rfl, rfl, hgives₁ a mid hrun, hgives₂ b s' hb⟩⟩

theorem Moves.map (h : Moves step gives) (f : α → β) :
    Moves (do return f (← step)) fun bits refs b => ∃ a, gives bits refs a ∧ b = f a := by
  refine (h.bind fun a => moves_pure (f a)).imp ?_
  rintro _ _ _ ⟨a, bits, refs, _, _, rfl, rfl, hgives, rfl, rfl, rfl⟩
  rw [List.append_nil, List.append_nil]
  exact ⟨a, hgives, rfl⟩

theorem FailsInPlace.map (h : FailsInPlace step) (f : α → β) :
    FailsInPlace (do return f (← step)) := by
  intro s e s' hrun
  rw [EStateM.run_bind] at hrun
  cases hstep : step.run s with
  | error e' mid =>
    rw [hstep] at hrun
    cases hrun
    exact h s _ _ hstep
  | ok a mid =>
    rw [hstep] at hrun
    cases hrun

section
variable {step : Load α}

theorem Moves.liftCell (h : Moves step gives) : Moves (liftCell step) gives := by
  intro c s hc hs
  have hrun : (Load.liftCell step).run s = (step.adaptExcept .cell).run s := rfl
  obtain ⟨bits, refs, hadvances, hinside, hgives⟩ := h c s hc hs
  rw [EStateM.run_adaptExcept] at hrun
  cases hstep : step.run s with
  | error e s' =>
    rw [hstep] at hrun
    rw [after_of_error hstep] at hadvances hinside
    rw [after_of_error hrun, hrun]
    exact ⟨bits, refs, hadvances, hinside, nofun⟩
  | ok a s' =>
    rw [hstep] at hrun
    rw [after_of_ok hstep] at hadvances hinside
    rw [after_of_ok hrun, hrun]
    refine ⟨bits, refs, hadvances, hinside, fun b s'' hb => ?_⟩
    cases hb
    exact hgives a s' hstep

theorem FailsInPlace.liftCell (h : FailsInPlace step) : FailsInPlace (liftCell step) := by
  intro s e s' hrun
  rw [Load.liftCell, EStateM.run_adaptExcept] at hrun
  cases hstep : step.run s with
  | error e' mid =>
    rw [hstep] at hrun
    cases hrun
    exact h s _ _ hstep
  | ok a mid =>
    rw [hstep] at hrun
    cases hrun

variable {count : Nat} {read : List Bool → α}

theorem Takes.moves (h : Takes step count read) :
    Moves step fun bits refs a => bits.length = count ∧ refs = [] ∧ a = read bits := by
  intro c s hc hs
  have hrun := h s
  by_cases hroom : count > s.remainingBits
  · rw [if_pos hroom] at hrun
    rw [after_of_error hrun, hrun]
    exact ⟨[], [], s.advances_refl, hs, nofun⟩
  · rw [if_neg hroom] at hrun
    rw [after_of_ok hrun, hrun]
    refine ⟨s.peekBits count, [], hs.advances_skipBits hc (Nat.not_lt.1 hroom),
      hs.skipBits (Nat.not_lt.1 hroom), fun a s' ha => ?_⟩
    cases ha
    exact ⟨s.length_peekBits count, rfl, rfl⟩

theorem Takes.failsInPlace (h : Takes step count read) : FailsInPlace step := by
  intro s e s' hrun
  rw [h s] at hrun
  split at hrun
  · cases hrun
    rfl
  · cases hrun

end

/-! ## Loads -/

theorem ref_run_none {s : Slice} (h : s.cell.refs[s.refPos]? = none) :
    ref.run s = .error .refUnderflow s := by
  unfold ref
  rw [EStateM.run_bind, EStateM.run_get]
  simp only [h]
  rfl

theorem ref_run_some {s : Slice} {c : Cell} (h : s.cell.refs[s.refPos]? = some c) :
    ref.run s = .ok c { s with refPos := s.refPos + 1 } := by
  unfold ref
  rw [EStateM.run_bind, EStateM.run_get]
  simp only [h]
  rfl

theorem moves_ref : Moves ref fun bits refs c => bits = [] ∧ refs = [c] := by
  intro c s _ hs
  cases hget : s.cell.refs[s.refPos]? with
  | none =>
    have hrun := ref_run_none hget
    rw [after_of_error hrun, hrun]
    exact ⟨[], [], s.advances_refl, hs, nofun⟩
  | some child =>
    have hrun := ref_run_some hget
    have hlt : s.refPos < s.cell.refs.length := (List.getElem?_eq_some_iff.1 hget).1
    rw [hs.cell_eq] at hlt
    rw [after_of_ok hrun, hrun]
    refine ⟨[], [child], ⟨rfl, rfl, rfl, nofun, fun i hi => ?_⟩, ⟨hs.cell_eq, hs.bitPos_le, hlt⟩,
      fun a s' ha => ?_⟩
    · obtain rfl : i = 0 := Nat.lt_one_iff.1 hi
      exact hget
    · cases ha
      exact ⟨rfl, rfl⟩

theorem failsInPlace_ref : FailsInPlace ref := by
  intro s e s' hrun
  cases hget : s.cell.refs[s.refPos]? with
  | none =>
    rw [ref_run_none hget] at hrun
    cases hrun
    rfl
  | some child =>
    rw [ref_run_some hget] at hrun
    cases hrun

theorem moves_maybeRef :
    Moves maybeRef fun bits refs c => bits = [c.isSome] ∧ refs = c.toList := by
  have hbody : ∀ present : Bool, Moves (if present then do return some (← ref) else return none)
      fun bits refs c => bits = [] ∧ refs = c.toList ∧ c.isSome = present := by
    intro present
    cases present with
    | false =>
      refine (moves_pure none).imp ?_
      rintro _ _ _ ⟨rfl, rfl, rfl⟩
      exact ⟨rfl, rfl, rfl⟩
    | true =>
      refine (moves_ref.map some).imp ?_
      rintro _ _ _ ⟨c, ⟨rfl, rfl⟩, rfl⟩
      exact ⟨rfl, rfl, rfl⟩
  refine (takes_bit.moves.bind hbody).imp ?_
  rintro _ _ c ⟨present, bits, _, _, _, rfl, rfl, ⟨hlength, rfl, rfl⟩, rfl, rfl, hsome⟩
  obtain ⟨b, rfl⟩ := List.length_eq_one_iff.1 hlength
  rw [hsome]
  exact ⟨rfl, rfl⟩

theorem moves_address :
    Moves address fun bits refs a => bits = Address.wireBits a ∧ refs = [] := by
  intro c s hc hs
  have hresult := addressResult s
  cases hrun : address.run s with
  | ok a s' =>
    rw [hrun] at hresult
    rw [after_of_ok hrun]
    cases hresult with
    | found _ hbits hroom =>
      refine ⟨_, [], hs.advances_skipBits hc hroom, hs.skipBits hroom, fun b s'' hb => ?_⟩
      cases hb
      exact ⟨hbits, rfl⟩
  | error e s' =>
    rw [hrun] at hresult
    rw [after_of_error hrun]
    cases hresult with
    | missing _ hstart _ =>
      exact ⟨_, [], hs.advances_skipBits hc hstart, hs.skipBits hstart, nofun⟩
    | unsupported _ hstart =>
      exact ⟨_, [], hs.advances_skipBits hc hstart, hs.skipBits hstart, nofun⟩

/-- More than 64 bits are no machine word, and nothing is read for them. -/
theorem word_of_wide {width : Nat} (h : 64 < width) :
    word width = throw (.widerThanWord false width) := by
  unfold word
  rw [if_pos h]
  rfl

theorem signedWord_of_wide {width : Nat} (h : 64 < width) :
    signedWord width = throw (.widerThanWord true width) := by
  unfold signedWord
  rw [if_pos h]
  rfl

/-- A step that takes what a machine word can hold, and otherwise fails at once. -/
theorem moves_of_narrow {step : Load α} {width : Nat} {read : List Bool → α}
    (hnarrow : width ≤ 64 → Takes step width read) (hwide : 64 < width → ∃ e, step = throw e) :
    (Moves step fun bits refs a => bits.length = width ∧ refs = [] ∧ a = read bits) ∧
      FailsInPlace step := by
  by_cases h : 64 < width
  · obtain ⟨e, rfl⟩ := hwide h
    exact ⟨moves_throw e, failsInPlace_throw e⟩
  · have htakes := hnarrow (Nat.not_lt.1 h)
    exact ⟨htakes.moves, htakes.failsInPlace⟩

theorem moves_word (width : Nat) :
    (Moves (do return (← word width).toNat) fun bits refs n =>
      bits.length = width ∧ refs = [] ∧ n = Bits.toNat bits) ∧
      FailsInPlace (do return (← word width).toNat) := by
  refine moves_of_narrow takes_word_toNat fun h => ⟨.widerThanWord false width, ?_⟩
  rw [word_of_wide h]
  rfl

theorem moves_signedWord (width : Nat) :
    (Moves (do return (← signedWord width).toInt) fun bits refs i =>
      bits.length = width ∧ refs = [] ∧ i = Bits.toInt bits) ∧
      FailsInPlace (do return (← signedWord width).toInt) := by
  refine moves_of_narrow takes_signedWord_toInt fun h => ⟨.widerThanWord true width, ?_⟩
  rw [signedWord_of_wide h]
  rfl

end Load

/-- An operation of a slice. -/
inductive LoadOp where
  | bit
  | word (width : Nat)
  | signedWord (width : Nat)
  | nat (width : Nat)
  | int (width : Nat)
  | bytes (count : Nat)
  | ref
  | maybeRef
  | address

namespace LoadOp

open Load

def load : LoadOp → EStateM AddressError Slice Datum
  | bit => do return .bit (← liftCell Load.bit)
  | word width => do return .number (← liftCell (do return (← Load.word width).toNat))
  | signedWord width => do return .number (← liftCell (do return (← Load.signedWord width).toInt))
  | nat width => do return .number (← liftCell (Load.nat width))
  | int width => do return .number (← liftCell (Load.int width))
  | bytes count => do return .bytes (← liftCell (Load.bytes count))
  | ref => do return .ref (← liftCell Load.ref)
  | maybeRef => do return .maybeRef (← liftCell Load.maybeRef)
  | address => do return .address (← Load.address)

/-- The operation returns this for these bits and references. -/
def Gives : LoadOp → List Bool → List Cell → Datum → Prop
  | bit, bits, refs, d => ∃ b, bits = [b] ∧ refs = [] ∧ d = .bit b
  | word width, bits, refs, d | nat width, bits, refs, d =>
    bits.length = width ∧ refs = [] ∧ d = .number (Bits.toNat bits)
  | signedWord width, bits, refs, d | int width, bits, refs, d =>
    bits.length = width ∧ refs = [] ∧ d = .number (Bits.toInt bits)
  | bytes count, bits, refs, d => bits.length = count ∧ refs = [] ∧ d = .bytes (Bits.toBytes bits)
  | ref, bits, refs, d => ∃ c, bits = [] ∧ refs = [c] ∧ d = .ref c
  | maybeRef, bits, refs, d => ∃ c, bits = [c.isSome] ∧ refs = c.toList ∧ d = .maybeRef c
  | address, bits, refs, d => ∃ a, bits = Address.wireBits a ∧ refs = [] ∧ d = .address a

/-- The operation is not made of several loads. -/
def IsSingle : LoadOp → Prop
  | maybeRef | address => False
  | _ => True

/-- A result that is a function of the bits that a step takes. -/
theorem moves_datum {α : Type} {step : EStateM AddressError Slice α} {count : Nat}
    {read : List Bool → α} {f : α → Datum}
    (h : Moves step fun bits refs a => bits.length = count ∧ refs = [] ∧ a = read bits) :
    Moves (do return f (← step)) fun bits refs d =>
      bits.length = count ∧ refs = [] ∧ d = f (read bits) := by
  refine (h.map f).imp ?_
  rintro bits _ _ ⟨_, ⟨hlength, rfl, rfl⟩, rfl⟩
  exact ⟨hlength, rfl, rfl⟩

theorem moves_load : ∀ op : LoadOp, Moves op.load op.Gives
  | bit => by
    refine (moves_datum takes_bit.moves.liftCell).imp ?_
    rintro bits _ _ ⟨hlength, rfl, rfl⟩
    obtain ⟨b, rfl⟩ := List.length_eq_one_iff.1 hlength
    exact ⟨b, rfl, rfl, rfl⟩
  | word width => moves_datum (f := fun n : Nat => .number n) (moves_word width).1.liftCell
  | signedWord width => moves_datum (moves_signedWord width).1.liftCell
  | nat width => moves_datum (f := fun n : Nat => .number n) (takes_nat width).moves.liftCell
  | int width => moves_datum (takes_int width).moves.liftCell
  | bytes count => moves_datum (takes_bytes count).moves.liftCell
  | ref => by
    refine (moves_ref.liftCell.map Datum.ref).imp ?_
    rintro _ _ _ ⟨c, ⟨rfl, rfl⟩, rfl⟩
    exact ⟨c, rfl, rfl, rfl⟩
  | maybeRef => by
    refine (moves_maybeRef.liftCell.map Datum.maybeRef).imp ?_
    rintro _ _ _ ⟨c, ⟨rfl, rfl⟩, rfl⟩
    exact ⟨c, rfl, rfl, rfl⟩
  | address => by
    refine (moves_address.map Datum.address).imp ?_
    rintro _ _ _ ⟨a, ⟨rfl, rfl⟩, rfl⟩
    exact ⟨a, rfl, rfl, rfl⟩

theorem failsInPlace_load : ∀ {op : LoadOp}, op.IsSingle → FailsInPlace op.load
  | bit, _ => takes_bit.failsInPlace.liftCell.map _
  | word width, _ => (moves_word width).2.liftCell.map _
  | signedWord width, _ => (moves_signedWord width).2.liftCell.map _
  | nat width, _ => (takes_nat width).failsInPlace.liftCell.map _
  | int width, _ => (takes_int width).failsInPlace.liftCell.map _
  | bytes count, _ => (takes_bytes count).failsInPlace.liftCell.map _
  | ref, _ => failsInPlace_ref.liftCell.map _

end LoadOp

/-! ## Runs -/

namespace Cell

open Load

/-- The cursor that some operations leave, one after the other, whether they succeed or not. -/
def cursorAfter (c : Cell) (ops : List LoadOp) : Slice :=
  ops.foldl (fun s op => after op.load s) c.toSlice

theorem inside_cursorAfter {c : Cell} (hc : c.bitLen ≤ 8 * c.data.length) (ops : List LoadOp) :
    (c.cursorAfter ops).Inside c := by
  suffices h : ∀ s : Slice, s.Inside c → (ops.foldl (fun s op => after op.load s) s).Inside c from
    h _ (Slice.inside_toSlice c)
  induction ops with
  | nil => exact fun s hs => hs
  | cons op ops ih =>
    intro s hs
    obtain ⟨-, -, -, hafter, -⟩ := op.moves_load c s hc hs
    exact ih _ hafter

theorem cursorAfter_concat (c : Cell) (ops : List LoadOp) (op : LoadOp) :
    c.cursorAfter (ops ++ [op]) = after op.load (c.cursorAfter ops) :=
  List.foldl_append

/-- After any operations, failing ones included, the cursor is inside of the cell, so that what is
left is no truncated difference.  The next operation moves it over bits of the bytes of the cell and
over references of it, which are what a result is made of; a single load that fails does not move
it. -/
theorem cursor_stays_inside {c : Cell} (h : c.Obtained) (ops : List LoadOp) (op : LoadOp) :
    let s := c.cursorAfter ops
    let s' := c.cursorAfter (ops ++ [op])
    s.Inside c ∧ s.bitPos + s.remainingBits = c.bitLen ∧
      s.refPos + s.remainingRefs = c.refs.length ∧
      ∃ bits refs, s.Advances s' bits refs ∧
        match op.load.run s with
        | .ok d t => t = s' ∧ op.Gives bits refs d
        | .error _ t => t = s' ∧ (op.IsSingle → s' = s) := by
  intro s s'
  have hinside : s.Inside c := inside_cursorAfter h.bitLen_le ops
  have hstep : s' = after op.load s := c.cursorAfter_concat ops op
  obtain ⟨hbits, hrefs⟩ := hinside.add_remaining
  obtain ⟨bits, refs, hadvances, -, hgives⟩ := op.moves_load c s h.bitLen_le hinside
  rw [← hstep] at hadvances
  refine ⟨hinside, hbits, hrefs, bits, refs, hadvances, ?_⟩
  cases hrun : op.load.run s with
  | ok d t => exact ⟨((after_of_ok hrun).symm.trans hstep.symm), hgives d t hrun⟩
  | error e t =>
    have ht : t = s' := (after_of_error hrun).symm.trans hstep.symm
    exact ⟨ht, fun hsingle => ht.symm.trans (LoadOp.failsInPlace_load hsingle s e t hrun)⟩

/-- The bytes of this cell are those of a bag, `FF 80`: the tag of its bits fills a byte of its own,
and the cell keeps that byte. -/
theorem cursor_stays_inside_surplus :
    let c := Cell.node [0xFF, 0] 8 []
    let ops : List LoadOp := [.nat 9, .nat 5, .word 65, .ref]
    ofBag [0xB5, 0xEE, 0x9C, 0x72, 1, 1, 1, 1, 0, 4, 0, 0, 3, 0xFF, 0x80] = .ok c ∧
      c.Obtained ∧ c.cursorAfter ops = ⟨c, 5, 0⟩ ∧ c.cursorAfter (ops ++ [.maybeRef]) = ⟨c, 6, 0⟩ ∧
      (∃ bits refs, Slice.Advances ⟨c, 5, 0⟩ ⟨c, 6, 0⟩ bits refs) ∧
      ∃ bits refs, Slice.Advances ⟨c, 5, 0⟩ ⟨c, 8, 0⟩ bits refs ∧
        LoadOp.Gives (.int 3) bits refs (.number (-1)) := by
  have hbag : ofBag [0xB5, 0xEE, 0x9C, 0x72, 1, 1, 1, 1, 0, 4, 0, 0, 3, 0xFF, 0x80] =
    .ok (.node [0xFF, 0] 8 []) := rfl
  have hc : (Cell.node [0xFF, 0] 8 []).Obtained := .inr ⟨_, _, hbag, .refl _⟩
  obtain ⟨-, -, -, bits, refs, hmaybe, -⟩ :=
    cursor_stays_inside hc [.nat 9, .nat 5, .word 65, .ref] .maybeRef
  obtain ⟨-, -, -, bits', refs', hint, hgives⟩ :=
    cursor_stays_inside hc [.nat 9, .nat 5, .word 65, .ref] (.int 3)
  exact ⟨hbag, hc, rfl, rfl, ⟨bits, refs, hmaybe⟩, bits', refs', hint, hgives.2⟩

end Cell

end CellAbi
