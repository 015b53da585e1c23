import CellAbi.Proofs.Appending
import CellAbi.Proofs.Descendants
import CellAbi.Proofs.Sequences

/-!
# Cutting cells up

The bits of a cell can be read in pieces of any lengths, as bytes or as numbers, wherever the bytes
of the cell end.  The pieces are the bits, with nothing lost between them and nothing added behind;
stored one after the other, in front of what a slice has left, they make the same cell again.

    c = (ofBits c.bits c.refs).build                 for a cell in normal form  (`eq_build`)
    Reads (cuts.mapM Cut.load) bits [] pieces ∧ pieces.flatMap Piece.bits = bits
      for cuts of as many bits in all                                         (`reads_cuts`)
    Writes (Store.slice s) s.restBits s.restRefs                              (`writes_slice`)
-/

namespace CellAbi

open Builder

/-- A cell in normal form is built of its bits and references. -/
theorem Cell.NormalNode.eq_build {c : Cell} (h : c.NormalNode) :
    c = (ofBits c.bits c.refs).build := by
  have hdata : Bits.toBytes c.bits = c.data := h.packed.toBytes_take
  have hlen : c.bits.length = c.bitLen := h.packed.length_take
  show c = .node (Bits.toBytes c.bits) c.bits.length c.refs
  rw [hdata, hlen]
  cases c
  rfl

theorem Cell.NormalNode.rest_toSlice {c : Cell} (h : c.NormalNode) :
    c.toSlice.restBits = c.bits ∧ c.toSlice.restRefs = c.refs := by
  have hrest := Slice.rest_build c.bits c.refs
  rwa [← h.eq_build] at hrest

/-! ## Storing without refusal -/

namespace Store

/-- Within the limits of a cell, the step appends these bits and references. -/
def Writes (step : Store) (more : List Bool) (moreRefs : List Cell) : Prop :=
  ∀ bits refs, (bits ++ more).length ≤ Cell.maxBits → (refs ++ moreRefs).length ≤ Cell.maxRefs →
    step.run (ofBits bits refs) = .ok () (ofBits (bits ++ more) (refs ++ moreRefs))

theorem AppendsIff.writes {step : Store} {P : Prop} {more : List Bool} {moreRefs : List Cell}
    (h : AppendsIff step P more moreRefs) (hP : P) : Writes step more moreRefs := by
  intro bits refs hbits hrefs
  rw [List.length_append] at hbits hrefs
  exact (h bits refs (by omega)).1 ⟨hP, by omega, hrefs⟩

theorem writes_pure : Writes (pure ()) [] [] := by
  intro bits refs _ _
  rw [List.append_nil, List.append_nil]
  rfl

theorem Writes.bind {step next : Store} {bits₁ bits₂ : List Bool} {refs₁ refs₂ : List Cell}
    (h₁ : Writes step bits₁ refs₁) (h₂ : Writes next bits₂ refs₂) :
    Writes (do step; next) (bits₁ ++ bits₂) (refs₁ ++ refs₂) := by
  intro bits refs hbits hrefs
  rw [← List.append_assoc] at hbits hrefs ⊢
  rw [← List.append_assoc]
  have hfront : (bits ++ bits₁).length ≤ Cell.maxBits :=
    Nat.le_trans (List.sublist_append_left _ _).length_le hbits
  have hfrontRefs : (refs ++ refs₁).length ≤ Cell.maxRefs :=
    Nat.le_trans (List.sublist_append_left _ _).length_le hrefs
  rw [EStateM.run_bind, h₁ bits refs hfront hfrontRefs]
  exact h₂ _ _ hbits hrefs

theorem writes_refList (cs : List Cell) : Writes (refList cs) [] cs := by
  induction cs with
  | nil => exact writes_pure
  | cons c cs ih => exact ((appendsIff_ref c).writes trivial).bind ih

/-- A slice is stored as what it has left. -/
theorem writes_slice (s : Slice) : Writes (slice s) s.restBits s.restRefs := by
  have hbytes := appendsIff_bytes (Bits.toBytes s.restBits) s.restBits.length
  rw [Bits.take_ofBytes_toBytes] at hbytes
  have hwrites :=
    (hbytes.writes (Bits.packed_toBytes s.restBits).le).bind (writes_refList s.restRefs)
  rw [List.append_nil, s.length_restBits] at hwrites
  exact hwrites

theorem Writes.ofStore {step : Store} {c : Cell} (h : Writes step c.bits c.refs)
    (hc : c.NormalNode) : Cell.ofStore step = .ok c := by
  have hlen : c.bits.length = c.bitLen := hc.packed.length_take
  have hrun := h [] [] (hlen ▸ hc.2.2.1) hc.2.2.2
  rw [← empty_eq, List.nil_append, List.nil_append] at hrun
  rw [Cell.ofStore, hrun]
  exact congrArg Except.ok hc.eq_build.symm

end Store

/-! ## Pieces -/

/-- How the next bits are read: into bytes or as a number. -/
inductive Cut where
  | bytes (count : Nat)
  | nat (width : Nat)

/-- What a cut reads. -/
inductive Piece where
  | bytes (data : List UInt8) (count : Nat)
  | nat (value width : Nat)

def Cut.bitCount : Cut → Nat
  | bytes count => count
  | nat width => width

def Cut.totalBits : List Cut → Nat
  | [] => 0
  | cut :: cuts => cut.bitCount + totalBits cuts

def Cut.load : Cut → Load Piece
  | bytes count => do return .bytes (← Load.bytes count) count
  | nat width => do return .nat (← Load.nat width) width

namespace Piece

def cut : Piece → Cut
  | bytes _ count => .bytes count
  | nat _ width => .nat width

def bits : Piece → List Bool
  | bytes data count => (Bits.ofBytes data).take count
  | nat value width => Bits.ofNat width value

/-- Behind its bits, the piece has nothing but zeros that fill up the last byte. -/
def Exact : Piece → Prop
  | bytes data count => Bits.Packed data count
  | nat value width => value < 2 ^ width

def store : Piece → Store
  | bytes data count => Store.bytes data count
  | nat value width => Store.nat value width

end Piece

theorem reads_cut (cut : Cut) {bits : List Bool} (h : bits.length = cut.bitCount) :
    ∃ piece : Piece, Load.Reads cut.load bits [] piece ∧ piece.cut = cut ∧ piece.bits = bits ∧
      piece.Exact := by
  cases cut with
  | bytes count =>
    obtain rfl : bits.length = count := h
    exact ⟨.bytes (Bits.toBytes bits) bits.length,
      Load.reads_map ((Load.takes_bytes _).reads rfl) (Piece.bytes · bits.length), rfl,
      Bits.take_ofBytes_toBytes bits, Bits.packed_toBytes bits⟩
  | nat width =>
    obtain rfl : bits.length = width := h
    exact ⟨.nat (Bits.toNat bits) bits.length,
      Load.reads_map ((Load.takes_nat _).reads rfl) (Piece.nat · bits.length), rfl,
      Bits.ofNat_toNat bits, Bits.toNat_lt bits⟩

/-- Bits are read in pieces of any lengths that make up theirs. -/
theorem reads_cuts (cuts : List Cut) {bits : List Bool}
    (h : bits.length = Cut.totalBits cuts) :
    ∃ pieces : List Piece, Load.Reads (cuts.mapM Cut.load) bits [] pieces ∧
      pieces.map Piece.cut = cuts ∧ pieces.flatMap Piece.bits = bits ∧
      ∀ piece ∈ pieces, piece.Exact := by
  induction cuts generalizing bits with
  | nil =>
    obtain rfl := List.length_eq_zero_iff.1 h
    exact ⟨[], Load.reads_pure [], rfl, rfl, nofun⟩
  | cons cut cuts ih =>
    have h : bits.length = cut.bitCount + Cut.totalBits cuts := h
    have hfront : (bits.take cut.bitCount).length = cut.bitCount := by
      rw [List.length_take]
      omega
    have hback : (bits.drop cut.bitCount).length = Cut.totalBits cuts := by
      rw [List.length_drop]
      omega
    obtain ⟨piece, hread, hcut, hbits, hexact⟩ := reads_cut cut hfront
    obtain ⟨pieces, hreads, hcuts, hrest, hall⟩ := ih hback
    refine ⟨piece :: pieces, ?_, ?_, ?_, List.forall_mem_cons.2 ⟨hexact, hall⟩⟩
    · rw [List.mapM_cons, ← List.take_append_drop cut.bitCount bits]
      exact Load.reads_bind hread (Load.reads_map hreads (piece :: ·))
    · rw [List.map_cons, hcut, hcuts]
    · rw [List.flatMap_cons, hbits, hrest, List.take_append_drop]

theorem writes_piece {piece : Piece} (h : piece.Exact) :
    Store.Writes piece.store piece.bits [] := by
  cases piece with
  | bytes data count => exact (Store.appendsIff_bytes data count).writes (Bits.Packed.le h)
  | nat value width => exact (Store.appendsIff_nat value width).writes h

theorem writes_pieces {pieces : List Piece} (h : ∀ piece ∈ pieces, piece.Exact) :
    Store.Writes (pieces.forM Piece.store) (pieces.flatMap Piece.bits) [] := by
  induction pieces with
  | nil => exact Store.writes_pure
  | cons piece pieces ih =>
    rw [List.forall_mem_cons] at h
    exact (writes_piece h.1).bind (ih h.2)

/-! ## Fronts -/

namespace Load

/-- Takes bits and references off the front. -/
def front (bitCount refCount : Nat) : Load (List UInt8 × List Cell) := do
  let data ← bytes bitCount
  return (data, ← refList refCount)

theorem reads_refList (cs : List Cell) : Reads (refList cs.length) [] cs cs := by
  induction cs with
  | nil => exact reads_pure []
  | cons c cs ih =>
    rw [refList, List.length_cons, List.replicate_succ, List.mapM_cons]
    exact reads_bind (reads_ref c) (reads_map ih (c :: ·))

theorem reads_front (bits : List Bool) (refs : List Cell) :
    Reads (front bits.length refs.length) bits refs (Bits.toBytes bits, refs) := by
  have hreads : Reads (front bits.length refs.length) (bits ++ []) ([] ++ refs)
      (Bits.toBytes bits, refs) :=
    reads_bind ((takes_bytes bits.length).reads rfl)
      (reads_map (reads_refList refs) (Prod.mk (Bits.toBytes bits)))
  rwa [List.append_nil, List.nil_append] at hreads

/-- The front of a slice and what is left behind it, stored one after the other, are what the slice
had left. -/
theorem run_front {s : Slice} {bits more : List Bool} {refs moreRefs : List Cell}
    (hbits : s.restBits = bits ++ more) (hrefs : s.restRefs = refs ++ moreRefs) :
    ∃ data children s', (front bits.length refs.length).run s = .ok (data, children) s' ∧
      Store.Writes (do
        Store.bytes data bits.length
        Store.refList children
        Store.slice s') s.restBits s.restRefs := by
  obtain ⟨s', hrun, hmore, hmoreRefs⟩ := reads_front bits refs s more moreRefs hbits hrefs
  have hdata : Store.Writes (Piece.bytes (Bits.toBytes bits) bits.length).store _ [] :=
    writes_piece (Bits.packed_toBytes bits)
  have hwrites := hdata.bind ((Store.writes_refList refs).bind (Store.writes_slice s'))
  rw [hmore, hmoreRefs, List.nil_append, List.nil_append, ← hrefs, Piece.bits,
    Bits.take_ofBytes_toBytes, ← hbits] at hwrites
  exact ⟨_, _, s', hrun, hwrites⟩

end Load

/-! ## Cells -/

/-- The first bits and references of a cell, loaded and stored again in front of what the slice has
left, make the same cell.  And however its bits are cut into bytes and numbers, the pieces are its
bits in order, and make the same cell when they are stored one after the other. -/
theorem Cell.recut (c : Cell) (h : c.NormalNode) :
    (∀ k j, k ≤ c.bitLen → j ≤ c.refs.length →
      ∃ data children s, (Load.front k j).run c.toSlice = .ok (data, children) s ∧
        Cell.ofStore (do
          Store.bytes data k
          Store.refList children
          Store.slice s) = .ok c) ∧
      ∀ cuts : List Cut, Cut.totalBits cuts = c.bitLen →
        ∃ pieces s, (cuts.mapM Cut.load).run c.toSlice = .ok pieces s ∧
          pieces.map Piece.cut = cuts ∧ pieces.flatMap Piece.bits = c.bits ∧
          (∀ piece ∈ pieces, piece.Exact) ∧ s.remainingBits = 0 ∧
          Cell.ofStore (do
            pieces.forM Piece.store
            Store.refList c.refs) = .ok c := by
  obtain ⟨hbits, hrefs⟩ := h.rest_toSlice
  have hlen : c.bits.length = c.bitLen := h.packed.length_take
  refine ⟨fun k j hk hj => ?_, fun cuts hcuts => ?_⟩
  · obtain ⟨data, children, s, hrun, hwrites⟩ := Load.run_front
      (hbits.trans (List.take_append_drop k c.bits).symm)
      (hrefs.trans (List.take_append_drop j c.refs).symm)
    rw [List.length_take_of_le (hlen ▸ hk)] at hrun hwrites
    rw [List.length_take_of_le hj] at hrun
    rw [hbits, hrefs] at hwrites
    exact ⟨data, children, s, hrun, hwrites.ofStore h⟩
  · obtain ⟨pieces, hreads, hmap, hflat, hexact⟩ := reads_cuts cuts (hlen.trans hcuts.symm)
    obtain ⟨s, hrun, hrest, -⟩ := hreads c.toSlice [] c.refs (by rw [hbits, List.append_nil]) hrefs
    have hleft : s.remainingBits = 0 := by rw [← s.length_restBits, hrest, List.length_nil]
    have hwrites := (writes_pieces hexact).bind (Store.writes_refList c.refs)
    rw [hflat, List.append_nil] at hwrites
    exact ⟨pieces, s, hrun, hmap, hflat, hexact, hleft, hwrites.ofStore h⟩

/-- Thirteen bits and two references, parted inside the first byte, and cut across both bytes. -/
theorem Cell.recut_straddling :
    (Cell.node [0xB5, 0x68] 13 [.empty, .node [0xFF] 8 []]).NormalNode ∧ 5 ≤ 13 ∧ 1 ≤ 2 ∧
      Cut.totalBits [.bytes 3, .nat 7, .bytes 0, .bytes 3] = 13 ∧
      (∃ data children s,
        (Load.front 5 1).run (Cell.node [0xB5, 0x68] 13 [.empty, .node [0xFF] 8 []]).toSlice =
          .ok (data, children) s ∧
        Cell.ofStore (do
          Store.bytes data 5
          Store.refList children
          Store.slice s) = .ok (.node [0xB5, 0x68] 13 [.empty, .node [0xFF] 8 []])) ∧
      ∃ pieces s, ([.bytes 3, .nat 7, .bytes 0, .bytes 3].mapM Cut.load).run
          (Cell.node [0xB5, 0x68] 13 [.empty, .node [0xFF] 8 []]).toSlice = .ok pieces s ∧
        pieces.flatMap Piece.bits = [true, false, true, true, false, true, false, true,
          false, true, true, false, true] := by
  have hnormal : (Cell.node [0xB5, 0x68] 13 [.empty, .node [0xFF] 8 []]).NormalNode :=
    normalNode_build [.word 0x16AD 13, .ref .empty, .ref (.node [0xFF] 8 [])]
  obtain ⟨hfront, hcuts⟩ := Cell.recut _ hnormal
  obtain ⟨pieces, s, hrun, -, hbits, -⟩ := hcuts [.bytes 3, .nat 7, .bytes 0, .bytes 3] rfl
  exact ⟨hnormal, by decide, by decide, rfl, hfront 5 1 (by decide) (by decide),
    pieces, s, hrun, hbits.trans rfl⟩

end CellAbi
