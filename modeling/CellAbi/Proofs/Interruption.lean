import Mathlib.Data.List.Forall2
import CellAbi.Proofs.Appending

/-!
# Interrupted stores

Addresses and slices are stored part by part.  A part is stored whole or not at all, but where one
fails, those in front of it have been stored: the builder is left as it was only when the very
first part is refused, or nothing was to be stored up to the one that is.

    op.step = op.parts.forM step                                            (`step_eq_forM_parts`)
    op.step.run (ofOps before) = .error e b → op.parts = done ++ failing :: rest ∧
      b.Holds (bits ++ pieces.flatten) (refs ++ done.flatMap refs)          (`ofOps_interrupted`)
-/

namespace CellAbi

namespace StoreOp

/-! ## Parts -/

/-- The parts of an operation, each of which stores one thing. -/
def parts : StoreOp → List StoreOp
  | address none => [word 0 2]
  | address (some (.standard a)) =>
    [word 2 2, bit false, int a.workchain.toInt 8, bytes a.hash.bytes 256]
  | address (some (.external a)) => [word 1 2, word a.bits.toUInt64 9, nat a.value a.bits]
  | slice s => bytes (Bits.toBytes s.restBits) s.remainingBits :: s.restRefs.map ref
  | op => [op]

theorem isPrimitive_of_mem_parts : ∀ {op part : StoreOp}, part ∈ op.parts → part.IsPrimitive
  | address none, _, h => by
    obtain rfl := List.mem_singleton.1 h
    trivial
  | address (some (.standard a)), part, h => by
    simp only [parts, List.mem_cons, List.not_mem_nil, or_false] at h
    obtain rfl | rfl | rfl | rfl := h <;> trivial
  | address (some (.external a)), part, h => by
    simp only [parts, List.mem_cons, List.not_mem_nil, or_false] at h
    obtain rfl | rfl | rfl := h <;> trivial
  | slice s, part, h => by
    obtain rfl | h := List.mem_cons.1 h
    · trivial
    · obtain ⟨c, -, rfl⟩ := List.mem_map.1 h
      trivial
  | bit _, _, h | word _ _, _, h | nat _ _, _, h | int _ _, _, h | bytes _ _, _, h | ref _, _, h
  | maybeRef _, _, h => by
    obtain rfl := List.mem_singleton.1 h
    trivial

/-- An operation is its parts, one after the other. -/
theorem step_eq_forM_parts : ∀ op : StoreOp, op.step = op.parts.forM step
  | slice s => by
    have hrefs : Store.refList s.restRefs = (s.restRefs.map ref).forM step := by
      rw [Store.refList, List.forM_eq_forM, List.forM_eq_forM, List.forM_map]
      rfl
    show (do Store.bytes _ _; Store.refList s.restRefs) = _
    rw [hrefs]
    rfl
  | address none | address (some (.standard _)) | address (some (.external _))
  | bit _ | word _ _ | nat _ _ | int _ _ | bytes _ _ | ref _ | maybeRef _ => by
    simp [parts, step, Store.address]

theorem parts_of_isPrimitive {op : StoreOp} (h : op.IsPrimitive) : op.parts = [op] := by
  cases op <;> first | rfl | exact h.elim

theorem length_of_spells {op : StoreOp} (hop : op.IsPrimitive) {bits : List Bool}
    (h : op.Spells bits) : bits.length = op.bitCount := by
  cases op with
  | bit b => rw [show bits = [b] from h]; rfl
  | word value width => exact h.1
  | nat value width => exact h.1
  | int value width => exact h.1
  | bytes data count => exact h.1
  | ref c => rw [show bits = [] from h]; rfl
  | maybeRef c => rw [show bits = [c.isSome] from h]; rfl
  | address a => exact hop.elim
  | slice s => exact hop.elim

/-! ## Running parts -/

/-- From these bits and references, `ops` are stored up to `failing`: the builder holds in addition
what `done` stores, and is left so by `failing`, which fails. -/
structure StopsAt (ops : List StoreOp) (bits : List Bool) (refs : List Cell) (done : List StoreOp)
    (failing : StoreOp) (e : CellError) (b : Builder) : Prop where
  split : ∃ rest, ops = done ++ failing :: rest
  holds : ∃ pieces, List.Forall₂ Spells done pieces ∧
    b.Holds (bits ++ pieces.flatten) (refs ++ done.flatMap StoreOp.refs)
  not_stored : ¬ (failing.Fits ∧ failing.HasRoom b)
  run_failing : failing.step.run b = .error e b

variable {ops done : List StoreOp} {op failing : StoreOp} {b b' : Builder} {bits : List Bool}
  {refs : List Cell} {e : CellError}

/-- A run of operations that fails stops at one of them. -/
theorem exists_stopsAt (hops : ∀ op ∈ ops, op.IsPrimitive) (hb : b.Holds bits refs)
    (h : (ops.forM step).run b = .error e b') :
    ∃ done failing, StopsAt ops bits refs done failing e b' := by
  induction ops generalizing b bits refs with
  | nil => cases h
  | cons op ops ih =>
    rw [List.forM_eq_forM, List.forM_cons, EStateM.run_bind] at h
    obtain ⟨hok, herror⟩ := run_primitive (hops op List.mem_cons_self) hb
    by_cases hcond : op.Fits ∧ op.HasRoom b
    · obtain ⟨mid, piece, hstep, hspells, hmid⟩ := hok hcond
      rw [hstep] at h
      obtain ⟨done, failing, ⟨rest, rfl⟩, ⟨pieces, hpieces, hb'⟩, hcond, hrun⟩ :=
        ih (fun op hop => hops op (List.mem_cons_of_mem _ hop)) hmid h
      refine ⟨op :: done, failing, ⟨rest, rfl⟩, ⟨piece :: pieces, .cons hspells hpieces, ?_⟩,
        hcond, hrun⟩
      rwa [List.flatten_cons, List.flatMap_cons, ← List.append_assoc, ← List.append_assoc]
    · obtain ⟨e', hstep⟩ := herror hcond
      rw [hstep] at h
      cases h
      refine ⟨[], op, ⟨ops, rfl⟩, ⟨[], .nil, ?_⟩, hcond, hstep⟩
      rwa [List.flatten_nil, List.flatMap_nil, List.append_nil, List.append_nil]

/-! ## What is kept -/

/-- Number of bits that operations store. -/
def bitSum : List StoreOp → Nat
  | [] => 0
  | op :: ops => op.bitCount + bitSum ops

theorem length_flatten_of_spells (hops : ∀ op ∈ ops, op.IsPrimitive) {pieces : List (List Bool)}
    (h : List.Forall₂ Spells ops pieces) : pieces.flatten.length = bitSum ops := by
  induction h with
  | nil => rfl
  | cons hspells _ ih =>
    rw [List.flatten_cons, List.length_append, bitSum,
      length_of_spells (hops _ List.mem_cons_self) hspells,
      ih fun op hop => hops op (List.mem_cons_of_mem _ hop)]

namespace StopsAt

theorem bitLen_eq (hops : ∀ op ∈ ops, op.IsPrimitive) (hb : b.Holds bits refs)
    (h : StopsAt ops bits refs done failing e b') : b'.bitLen = b.bitLen + bitSum done := by
  obtain ⟨⟨rest, rfl⟩, ⟨pieces, hpieces, hb'⟩, -⟩ := h
  rw [hb'.bitLen_eq, hb.bitLen_eq, List.length_append,
    length_flatten_of_spells (fun op hop => hops op (List.mem_append_left _ hop)) hpieces]

theorem refs_eq (hb : b.Holds bits refs) (h : StopsAt ops bits refs done failing e b') :
    b'.refs = b.refs ++ done.flatMap StoreOp.refs := by
  obtain ⟨-, ⟨pieces, -, hb'⟩, -⟩ := h
  rw [hb'.refs_eq, hb.refs_eq]

/-- The builder is left as it was exactly when nothing was to be stored up to the failure. -/
theorem eq_iff (hops : ∀ op ∈ ops, op.IsPrimitive) (hb : b.Holds bits refs)
    (h : StopsAt ops bits refs done failing e b') :
    b' = b ↔ bitSum done = 0 ∧ done.flatMap StoreOp.refs = [] := by
  constructor
  · rintro rfl
    have hlen := h.bitLen_eq hops hb
    exact ⟨by omega, List.append_right_eq_self.1 (h.refs_eq hb).symm⟩
  · rintro ⟨hbits, hrefs⟩
    obtain ⟨⟨rest, rfl⟩, ⟨pieces, hpieces, hb'⟩, -⟩ := h
    have hlen :=
      length_flatten_of_spells (fun op hop => hops op (List.mem_append_left _ hop)) hpieces
    rw [hrefs, List.length_eq_zero_iff.1 (hlen.trans hbits), List.append_nil,
      List.append_nil] at hb'
    exact (Builder.holds_iff.1 hb').1.trans (Builder.holds_iff.1 hb).1.symm

end StopsAt

/-! ## Refusals -/

/-- The very first part finds no room; or it is empty, and the reference behind it finds none. -/
def RefusedAtOnce (b : Builder) : StoreOp → Prop
  | address _ => b.availableBits < 2
  | slice s => b.availableBits < s.remainingBits ∨
      s.remainingBits = 0 ∧ b.refs.length = Cell.maxRefs
  | _ => True

/-- Every address starts with a tag of two bits. -/
theorem parts_address : ∀ a : Option Address, ∃ tag rest, (address a).parts = word tag 2 :: rest ∧
    (word tag 2).Fits
  | none => ⟨0, _, rfl, show (0 : UInt64).toNat < 2 ^ 2 by decide⟩
  | some (.standard _) => ⟨2, _, rfl, show (2 : UInt64).toNat < 2 ^ 2 by decide⟩
  | some (.external _) => ⟨1, _, rfl, show (1 : UInt64).toNat < 2 ^ 2 by decide⟩

/-- The bytes of bits have room for them. -/
theorem fits_bytes_toBytes (s : Slice) :
    (bytes (Bits.toBytes s.restBits) s.remainingBits).Fits := by
  have hle := (Bits.packed_toBytes s.restBits).le
  rwa [s.length_restBits] at hle

theorem bitSum_slice (s : Slice) (cs : List Cell) :
    bitSum (bytes (Bits.toBytes s.restBits) s.remainingBits :: cs.map ref) = s.remainingBits := by
  induction cs with
  | nil => rfl
  | cons c cs ih => exact (congrArg (s.remainingBits + ·) (Nat.zero_add _)).trans ih

theorem refs_slice (s : Slice) (cs : List Cell) :
    (bytes (Bits.toBytes s.restBits) s.remainingBits :: cs.map ref).flatMap StoreOp.refs = cs := by
  induction cs with
  | nil => rfl
  | cons c cs ih => exact congrArg (c :: ·) ih

namespace StopsAt

theorem eq_iff_address {a : Option Address} (hb : b.Holds bits refs)
    (h : StopsAt (address a).parts bits refs done failing e b') :
    b' = b ↔ b.availableBits < 2 := by
  have heq := h.eq_iff (fun _ => isPrimitive_of_mem_parts) hb
  have hlen := h.bitLen_eq (fun _ => isPrimitive_of_mem_parts) hb
  obtain ⟨tag, tail, hparts, hfits⟩ := parts_address a
  obtain ⟨⟨rest, hsplit⟩, ⟨pieces, -, hb'⟩, hcond, -⟩ := h
  rw [hparts] at hsplit
  cases done with
  | nil =>
    obtain rfl := heq.2 ⟨rfl, rfl⟩
    obtain ⟨rfl, -⟩ := List.cons.inj hsplit
    exact iff_of_true rfl (Nat.not_le.1 fun hroom => hcond ⟨hfits, hroom, hb.length_refs_le⟩)
  | cons first others =>
    obtain ⟨rfl, -⟩ := List.cons.inj hsplit
    have hsum : bitSum (word tag 2 :: others) = 2 + bitSum others := rfl
    have hlimit := hb'.bitLen_le
    refine iff_of_false (fun h => ?_) (Nat.not_lt.2 (show 2 ≤ Cell.maxBits - b.bitLen by omega))
    have := (heq.1 h).1
    omega

theorem eq_iff_slice {s : Slice} (hb : b.Holds bits refs)
    (h : StopsAt (slice s).parts bits refs done failing e b') :
    b' = b ↔ b.availableBits < s.remainingBits ∨
      s.remainingBits = 0 ∧ b.refs.length = Cell.maxRefs := by
  have heq := h.eq_iff (fun _ => isPrimitive_of_mem_parts) hb
  have hlen := h.bitLen_eq (fun _ => isPrimitive_of_mem_parts) hb
  have hrefs := congrArg List.length (h.refs_eq hb)
  obtain ⟨⟨rest, hsplit⟩, ⟨pieces, -, hb'⟩, hcond, -⟩ := h
  cases done with
  | nil =>
    obtain rfl := heq.2 ⟨rfl, rfl⟩
    obtain ⟨rfl, -⟩ := List.cons.inj hsplit
    exact iff_of_true rfl (.inl (Nat.not_le.1 fun hroom =>
      hcond ⟨fits_bytes_toBytes s, hroom, hb.length_refs_le⟩))
  | cons first others =>
    -- The bits are stored, so that it is a reference that found no room.
    have hsplit : bytes _ _ :: s.restRefs.map ref = first :: (others ++ failing :: rest) := hsplit
    obtain ⟨rfl, hothers⟩ := List.cons.inj hsplit
    obtain ⟨cs, tail, -, rfl, htail⟩ := List.map_eq_append_iff.1 hothers
    obtain ⟨c, -, -, rfl, -⟩ := List.map_eq_cons_iff.1 htail
    rw [bitSum_slice] at heq hlen
    rw [List.length_append, refs_slice] at hrefs
    rw [refs_slice, ← List.length_eq_zero_iff] at heq
    have hbits := hb'.bitLen_le
    have hlimit := hb'.length_refs_le
    have hfull : ¬ b'.refs.length + 1 ≤ Cell.maxRefs := fun hroom =>
      hcond ⟨trivial, Nat.zero_le _, hroom⟩
    rw [heq, Builder.availableBits]
    omega

/-- Nothing is kept exactly when the operation is refused at once. -/
theorem eq_iff_refusedAtOnce (hb : b.Holds bits refs)
    (h : StopsAt op.parts bits refs done failing e b') : b' = b ↔ op.RefusedAtOnce b := by
  by_cases hop : op.IsPrimitive
  · have heq := h.eq_iff (fun _ => isPrimitive_of_mem_parts) hb
    obtain ⟨⟨rest, hsplit⟩, -⟩ := h
    rw [parts_of_isPrimitive hop] at hsplit
    obtain ⟨rfl, -⟩ | ⟨-, hnil⟩ := List.singleton_eq_append_iff.1 hsplit
    · refine iff_of_true (heq.2 ⟨rfl, rfl⟩) ?_
      cases op <;> trivial
    · cases hnil
  · cases op with
    | address a => exact h.eq_iff_address hb
    | slice s => exact h.eq_iff_slice hb
    | _ => exact absurd trivial hop

end StopsAt

end StoreOp

/-! ## Failed operations -/

namespace Builder

/-- An operation that fails stops at one of its parts: the builder keeps what it held and what the
parts in front of that one store.  So it is left as it was exactly when the operation is refused at
once, which operations that store one thing always are. -/
theorem ofOps_interrupted (before : List StoreOp) (op : StoreOp) {e : CellError} {b : Builder}
    (h : op.step.run (ofOps before) = .error e b) :
    (∃ bits refs done failing, (ofOps before).Holds bits refs ∧
      StoreOp.StopsAt op.parts bits refs done failing e b) ∧
      (b = ofOps before ↔ op.RefusedAtOnce (ofOps before)) := by
  obtain ⟨bits, refs, hbefore, hlimits⟩ := ofOps_eq before
  have hholds : (ofOps before).Holds bits refs := holds_iff.2 ⟨hbefore, hlimits⟩
  rw [StoreOp.step_eq_forM_parts] at h
  obtain ⟨done, failing, hstops⟩ :=
    StoreOp.exists_stopsAt (fun _ => StoreOp.isPrimitive_of_mem_parts) hholds h
  exact ⟨⟨bits, refs, done, failing, hholds, hstops⟩, hstops.eq_iff_refusedAtOnce hholds⟩

/-- The address of a workchain that eight bits do not hold. -/
def unstorable : StandardAddress := ⟨128, List.replicate 32 0xFF, rfl⟩

/-- The tag and the anycast bit stay behind the bit that was there. -/
theorem ofOps_interrupted_unstorable :
    (StoreOp.address (some (.standard unstorable))).step.run (ofOps [.bit true]) =
        .error (.valueOutOfRange 128 8) ⟨[0xC0], 4, []⟩ ∧
      (∃ bits refs done failing, (ofOps [.bit true]).Holds bits refs ∧
        StoreOp.StopsAt (StoreOp.address (some (.standard unstorable))).parts bits refs done failing
          (.valueOutOfRange 128 8) ⟨[0xC0], 4, []⟩) ∧
      (⟨[0xC0], 4, []⟩ : Builder) ≠ ofOps [.bit true] := by
  have hrun : (StoreOp.address (some (.standard unstorable))).step.run (ofOps [.bit true]) =
    .error (.valueOutOfRange 128 8) ⟨[0xC0], 4, []⟩ := rfl
  obtain ⟨hstops, hiff⟩ := ofOps_interrupted _ _ hrun
  exact ⟨hrun, hstops, fun h => absurd (hiff.1 h) (show ¬ 1022 < 2 by decide)⟩

/-- What an address that cannot be stored leaves on the empty builder, and a slice of eight bits and
a reference on one with four references. -/
theorem interrupted_leaves_parts :
    ((Store.address (some (.standard unstorable))).run (ofOps []) =
        .error (.valueOutOfRange 128 8) ⟨[0x80], 3, []⟩ ∧
      (⟨[0x80], 3, []⟩ : Builder) ≠ ofOps []) ∧
      (Store.slice (Cell.node [0xFF] 8 [.empty]).toSlice).run
          (ofOps (List.replicate 4 (.ref .empty))) =
        .error .refOverflow ⟨[0xFF], 8, List.replicate 4 .empty⟩ ∧
      (⟨[0xFF], 8, List.replicate 4 .empty⟩ : Builder) ≠
        ofOps (List.replicate 4 (.ref .empty)) := by
  have hpacked : Bits.Packed [0xFF] 8 := ⟨rfl, fun _ hi => Bits.get_of_length_le hi⟩
  have hbytes : Bits.toBytes (List.replicate 8 true) = [0xFF] := hpacked.toBytes_take
  have hslice : Store.slice (Cell.node [0xFF] 8 [.empty]).toSlice =
      (do Store.bytes [0xFF] 8; Store.refList [.empty]) := by
    show (do Store.bytes (Bits.toBytes (List.replicate 8 true)) 8; Store.refList [.empty]) = _
    rw [hbytes]
  refine ⟨⟨rfl, fun h => ?_⟩, hslice ▸ rfl, fun h => ?_⟩
  · exact absurd (congrArg Builder.bitLen h) (show 3 ≠ 0 by decide)
  · exact absurd (congrArg Builder.bitLen h) (show 8 ≠ 0 by decide)

end Builder

end CellAbi
