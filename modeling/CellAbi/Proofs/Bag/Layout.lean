import CellAbi.Proofs.Bag.Frame
import CellAbi.Proofs.Bag.Tree

/-!
# Grammar of bags

A `Layout` spells out everything that a bag may hold: flags, widths, roots, an index, and one frame
per record.  Reading accepts exactly the bytes of valid layouts, with anything behind them, and the
result depends on the frames and the first root alone.

    read bytes = .ok c ↔ ∃ L rest, L.Valid ∧ L.root < L.frames.length ∧
      bytes = L.toBytes ++ rest ∧ L.tree = c                                      (`read_eq_ok_iff`)
-/

namespace CellAbi.Bag

/-! ## Header -/

/-- The fields of a header as they stand in the bytes. -/
structure Fields where
  flags : UInt8
  offsetSize : UInt8
  cellCount : Nat
  rootCount : Nat
  absent : Nat
  bodySize : Nat

namespace Fields

/-- Bytes of an index, from the low bits of the flags. -/
def size (f : Fields) : Nat := (f.flags &&& 0x07).toNat

def toBytes (f : Fields) : List UInt8 :=
  magic ++ (f.flags :: f.offsetSize :: (uintBytes f.size f.cellCount ++
    (uintBytes f.size f.rootCount ++ (uintBytes f.size f.absent ++
      uintBytes f.offsetSize.toNat f.bodySize))))

/-- What is kept of the fields for reading on. -/
def header (f : Fields) : Header where
  hasIndex := f.flags &&& 0x80 != 0
  hasChecksum := f.flags &&& 0x40 != 0
  size := f.size
  offsetSize := f.offsetSize.toNat
  cellCount := f.cellCount
  rootCount := f.rootCount
  bodySize := f.bodySize

structure Valid (f : Fields) : Prop where
  size_pos : 0 < f.size
  size_le : f.size ≤ 4
  offsetSize_pos : 0 < f.offsetSize.toNat
  offsetSize_le : f.offsetSize.toNat ≤ 8
  cellCount_lt : f.cellCount < 256 ^ f.size
  rootCount_pos : 0 < f.rootCount
  rootCount_le : f.rootCount ≤ f.cellCount
  absent_lt : f.absent < 256 ^ f.size
  bodySize_lt : f.bodySize < 256 ^ f.offsetSize.toNat

/-- The counts are within what `left` bytes can hold. -/
def Within (f : Fields) (left : Nat) : Prop :=
  f.cellCount * 2 ≤ left ∧ f.rootCount * f.size ≤ left ∧ f.bodySize ≤ left

end Fields

theorem run_header {h : Header} {bytes rest : List UInt8} :
    Header.read.run bytes = .ok (h, rest) ↔
      ∃ f : Fields, f.Valid ∧ f.Within rest.length ∧ f.header = h ∧ bytes = f.toBytes ++ rest := by
  unfold Header.read
  simp only [Read.run_bind, Read.run_take, Read.run_byte, Read.run_uint, Read.run_check,
    Read.run_get, Read.run_pure, beq_iff_eq, bne_iff_ne, ne_eq, Bool.and_eq_true, decide_eq_true_eq]
  constructor
  · intro h
    obtain ⟨found, s, ⟨-, rfl⟩, _, s, ⟨rfl, rfl⟩, h⟩ := h
    obtain ⟨flags, s, rfl, _, s, ⟨⟨hs, hs'⟩, rfl⟩, h⟩ := h
    obtain ⟨offset, s, rfl, _, s, ⟨⟨ho, ho'⟩, rfl⟩, h⟩ := h
    obtain ⟨cells, s, ⟨hcells, rfl⟩, h⟩ := h
    obtain ⟨roots, s, ⟨-, rfl⟩, h⟩ := h
    obtain ⟨absent, s, ⟨habsent, rfl⟩, h⟩ := h
    obtain ⟨body, s, ⟨hbody, rfl⟩, h⟩ := h
    obtain ⟨_, s, ⟨hroots, rfl⟩, _, s, ⟨hle, rfl⟩, h⟩ := h
    obtain ⟨left, s, ⟨rfl, rfl⟩, _, s, ⟨⟨⟨h1, h2⟩, h3⟩, rfl⟩, rfl, rfl⟩ := h
    refine ⟨⟨flags, offset, cells, roots, absent, body⟩, ⟨hs, hs', ho, ho', hcells,
      Nat.pos_of_ne_zero hroots, hle, habsent, hbody⟩, ⟨h1, h2, h3⟩, rfl, ?_⟩
    simp only [Fields.toBytes, Fields.size, List.append_assoc, List.cons_append]
  · rintro ⟨f, hf, ⟨h1, h2, h3⟩, rfl, rfl⟩
    have hroots := Nat.lt_of_le_of_lt hf.rootCount_le hf.cellCount_lt
    refine ⟨magic, _, ⟨rfl, List.append_assoc ..⟩, (), _, ⟨rfl, rfl⟩, f.flags, _, rfl, (), _,
      ⟨⟨hf.size_pos, hf.size_le⟩, rfl⟩, f.offsetSize, _, rfl, (), _,
      ⟨⟨hf.offsetSize_pos, hf.offsetSize_le⟩, rfl⟩, f.cellCount, _,
      ⟨hf.cellCount_lt, List.append_assoc ..⟩, f.rootCount, _, ⟨hroots, List.append_assoc ..⟩,
      f.absent, _, ⟨hf.absent_lt, List.append_assoc ..⟩, f.bodySize, rest,
      ⟨hf.bodySize_lt, rfl⟩, (), rest, ⟨Nat.ne_of_gt hf.rootCount_pos, rfl⟩, (), rest,
      ⟨hf.rootCount_le, rfl⟩, rest, rest, ⟨rfl, rfl⟩, (), rest, ⟨⟨⟨h1, h2⟩, h3⟩, rfl⟩, rfl, rfl⟩

/-! ## The steps behind the roots -/

/-- Passes over the index, if there is one. -/
def readIndex (h : Header) : Read Unit :=
  if h.hasIndex then do
    Read.check (h.cellCount * h.offsetSize < wordLimit) .indexOverflow
    let _ ← Read.take (h.cellCount * h.offsetSize)
    pure ()
  else pure ()

/-- Reads the records of a bag of `total` bytes; tells also how many bytes are left. -/
def readBody (total : Nat) (h : Header) : Read (List Record × Nat) := do
  let before := (← get).length
  Read.check (total - before + h.bodySize < wordLimit) .bodyOverflow
  let records ← readRecords h 0 h.cellCount
  let after := (← get).length
  Read.check (after + h.bodySize == before) .bodySize
  return (records, after)

/-- Checks the bytes before the last `after` against the checksum, if there is one. -/
def readChecksum (bytes : List UInt8) (h : Header) (after : Nat) : Read Unit :=
  if h.hasChecksum then do
    let stored ← Read.take 4
    Read.check (stored == Crc32c.trailer (bytes.take (bytes.length - after))) .checksum
  else pure ()

/-- The steps of reading a bag up to the roots and records. -/
def readContents (bytes : List UInt8) : Read (List Nat × List Record) := do
  let h ← Header.read
  let roots ← readRoots h h.rootCount
  readIndex h
  let (records, after) ← readBody bytes.length h
  readChecksum bytes h after
  return (roots, records)

theorem read_eq (bytes : List UInt8) :
    read bytes = (do
      let ((roots, records), _) ← (readContents bytes).run bytes
      let cells ← assemble 0 records
      match cells[roots.headD 0]? with
      | some c => return c
      | none => throw (.rootOutOfRange (roots.headD 0))) := by
  unfold read readContents
  refine congrArg (fun result : Except BagError ((List Nat × List Record) × List UInt8) =>
    result >>= _) (congrArg (StateT.run · bytes) ?_)
  refine bind_congr fun h => bind_congr fun roots => ?_
  unfold readIndex readBody readChecksum
  cases h.hasIndex <;> cases h.hasChecksum <;>
    simp only [if_true, if_false, Bool.false_eq_true, bind_assoc, pure_bind]

theorem run_readIndex {h : Header} {u : Unit} {bytes rest : List UInt8} :
    (readIndex h).run bytes = .ok (u, rest) ↔
      (h.hasIndex = true → h.cellCount * h.offsetSize < wordLimit) ∧
        ∃ index, index.length = (if h.hasIndex then h.cellCount * h.offsetSize else 0) ∧
          bytes = index ++ rest := by
  unfold readIndex
  cases hi : h.hasIndex
  · simp only [Bool.false_eq_true, if_false, Read.run_pure, false_implies, true_and,
      List.length_eq_zero_iff]
    constructor
    · rintro rfl
      exact ⟨[], rfl, rfl⟩
    · rintro ⟨_, rfl, rfl⟩
      rfl
  · simp only [if_true, Read.run_bind, Read.run_check, Read.run_take, Read.run_pure,
      decide_eq_true_eq, forall_const, true_and]
    constructor
    · rintro ⟨_, _, ⟨hlt, rfl⟩, index, _, ⟨hlen, rfl⟩, rfl⟩
      exact ⟨hlt, index, hlen, rfl⟩
    · rintro ⟨hlt, index, hlen, rfl⟩
      exact ⟨(), _, ⟨hlt, rfl⟩, index, rest, ⟨hlen, rfl⟩, rfl⟩

theorem run_readBody {h : Header} (hcount : h.cellCount ≤ 256 ^ h.size) {total after : Nat}
    {rs : List Record} {bytes rest : List UInt8} :
    (readBody total h).run bytes = .ok ((rs, after), rest) ↔
      total - bytes.length + h.bodySize < wordLimit ∧ after = rest.length ∧
        ∃ fs : List Frame, fs.length = h.cellCount ∧ ValidFrom h.cellCount 0 fs ∧
          fs.map Frame.record = rs ∧ (fs.flatMap (Frame.toBytes h.size)).length = h.bodySize ∧
          bytes = fs.flatMap (Frame.toBytes h.size) ++ rest := by
  unfold readBody
  simp only [Read.run_bind, Read.run_get, Read.run_check, Read.run_pure, run_readRecords hcount,
    decide_eq_true_eq, beq_iff_eq, Prod.mk.injEq]
  constructor
  · rintro ⟨_, _, ⟨rfl, rfl⟩, _, _, ⟨hlt, rfl⟩, _, _, ⟨fs, hlen, hfs, rfl, rfl⟩, _, _, ⟨rfl, rfl⟩,
      _, _, ⟨hsize, rfl⟩, ⟨rfl, rfl⟩, rfl⟩
    rw [List.length_append] at hsize
    exact ⟨hlt, rfl, fs, hlen, hfs, rfl, by omega, rfl⟩
  · rintro ⟨hlt, rfl, fs, hlen, hfs, rfl, hsize, rfl⟩
    exact ⟨_, _, ⟨rfl, rfl⟩, (), _, ⟨hlt, rfl⟩, _, _, ⟨fs, hlen, hfs, rfl, rfl⟩, _, _, ⟨rfl, rfl⟩,
      (), _, ⟨by rw [List.length_append]; omega, rfl⟩, ⟨rfl, rfl⟩, rfl⟩

theorem run_readChecksum {covered bytes rest : List UInt8} {h : Header} {u : Unit} :
    (readChecksum (covered ++ bytes) h bytes.length).run bytes = .ok (u, rest) ↔
      bytes = (if h.hasChecksum then Crc32c.trailer covered else []) ++ rest := by
  unfold readChecksum
  have htake : (covered ++ bytes).take ((covered ++ bytes).length - bytes.length) = covered := by
    rw [List.length_append, Nat.add_sub_cancel, List.take_left]
  rw [htake]
  cases h.hasChecksum
  · simp only [Bool.false_eq_true, if_false, Read.run_pure, List.nil_append, true_and]
  · simp only [if_true, Read.run_bind, Read.run_take, Read.run_check, beq_iff_eq]
    constructor
    · rintro ⟨stored, _, ⟨-, rfl⟩, rfl, rfl⟩
      rfl
    · rintro rfl
      exact ⟨Crc32c.trailer covered, rest, ⟨Crc32c.length_trailer _, rfl⟩, rfl, rfl⟩

/-- Anything but the checksum of what is covered is refused. -/
theorem run_readChecksum_of_ne {covered bytes : List UInt8} {h : Header}
    (hsum : h.hasChecksum = true) (hne : bytes.take 4 ≠ Crc32c.trailer covered) :
    (readChecksum (covered ++ bytes) h bytes.length).run bytes =
      .error (if bytes.length < 4 then .unexpectedEnd else .checksum) := by
  unfold readChecksum
  have htake : (covered ++ bytes).take ((covered ++ bytes).length - bytes.length) = covered := by
    rw [List.length_append, Nat.add_sub_cancel, List.take_left]
  rw [htake, if_pos hsum]
  by_cases hlen : bytes.length < 4
  · rw [if_pos hlen]
    exact Read.run_bind_of_error (Read.run_take_of_length_lt hlen) _
  · have hstored : (Read.take 4).run bytes = .ok (bytes.take 4, bytes.drop 4) :=
      Read.run_take.2 ⟨by rw [List.length_take]; omega, (List.take_append_drop ..).symm⟩
    rw [if_neg hlen, Read.run_bind_of_ok hstored, beq_false_of_ne hne]
    rfl

/-! ## Layouts -/

/-- Everything that a bag holds. -/
structure Layout where
  flags : UInt8
  offsetSize : UInt8
  absent : Nat
  roots : List Nat
  index : List UInt8
  frames : List Frame

namespace Layout

variable (L : Layout)

/-- Bytes of an index. -/
def size : Nat := (L.flags &&& 0x07).toNat

def body : List UInt8 := L.frames.flatMap (Frame.toBytes L.size)

def fields : Fields :=
  ⟨L.flags, L.offsetSize, L.frames.length, L.roots.length, L.absent, L.body.length⟩

/-- The bytes before the checksum. -/
def front : List UInt8 :=
  L.fields.toBytes ++ (L.roots.flatMap (uintBytes L.size) ++ (L.index ++ L.body))

def toBytes : List UInt8 :=
  L.front ++ if L.fields.header.hasChecksum then Crc32c.trailer L.front else []

def records : List Record := L.frames.map Frame.record

/-- The first root. -/
def root : Nat := L.roots.headD 0

/-- The cell that the bag stands for. -/
def tree : Cell := Bag.tree L.records L.root

structure Valid : Prop where
  fields : L.fields.Valid
  roots_lt : ∀ root ∈ L.roots, root < 256 ^ L.size
  index_length : L.index.length =
    if L.fields.header.hasIndex then L.frames.length * L.offsetSize.toNat else 0
  frames : ValidFrom L.frames.length 0 L.frames

variable {L}

theorem Valid.count_lt (h : L.Valid) : L.frames.length < 2 ^ 32 := by
  have hlt : L.frames.length < 256 ^ L.size := h.fields.cellCount_lt
  have hpow : 256 ^ L.size ≤ 256 ^ 4 := Nat.pow_le_pow_right (by decide) h.fields.size_le
  omega

theorem Valid.roots_le (h : L.Valid) : L.roots.length * L.size ≤ L.frames.length * 4 :=
  Nat.mul_le_mul h.fields.rootCount_le h.fields.size_le

theorem Valid.index_le (h : L.Valid) : L.index.length ≤ L.frames.length * 8 := by
  have hmul := Nat.mul_le_mul_left L.frames.length h.fields.offsetSize_le
  have hlen := h.index_length
  split at hlen
  · exact hlen ▸ hmul
  · omega

theorem Valid.body_le (h : L.Valid) :
    L.frames.length * 2 ≤ L.body.length ∧ L.body.length ≤ L.frames.length * 146 :=
  h.frames.length_body h.fields.size_le

theorem Valid.within (h : L.Valid) (rest : List UInt8) :
    L.fields.Within (L.roots.flatMap (uintBytes L.size) ++ (L.index ++ (L.body ++ rest))).length := by
  have hbody := h.body_le.1
  simp only [Fields.Within, List.length_append, length_flatMap_uintBytes]
  exact ⟨by show L.frames.length * 2 ≤ _; omega,
    by show L.roots.length * L.size ≤ _; omega, by show L.body.length ≤ _; omega⟩

theorem Valid.length_front_lt (h : L.Valid) : L.front.length < wordLimit := by
  have hcount := h.count_lt
  have hroots := h.roots_le
  have hindex := h.index_le
  have hbody := h.body_le.2
  have hsize := h.fields.size_le
  have hoffset := h.fields.offsetSize_le
  simp only [front, Fields.toBytes, List.length_append, List.length_cons, length_uintBytes,
    length_flatMap_uintBytes, show magic.length = 4 from rfl, show L.fields.offsetSize = L.offsetSize
    from rfl, wordLimit] at hoffset ⊢
  omega

/-- Reading gets through everything before the checksum, whatever follows. -/
theorem Valid.run_readContents (h : L.Valid) (rest : List UInt8) :
    (readContents (L.front ++ rest)).run (L.front ++ rest) =
      (readChecksum (L.front ++ rest) L.fields.header rest.length >>= fun _ =>
        pure (L.roots, L.records)).run rest := by
  have hcount : L.fields.header.cellCount ≤ 256 ^ L.fields.header.size :=
    Nat.le_of_lt h.fields.cellCount_lt
  have hlimit := h.length_front_lt
  have hheader : Header.read.run (L.front ++ rest) = .ok (L.fields.header,
      L.roots.flatMap (uintBytes L.size) ++ (L.index ++ (L.body ++ rest))) :=
    run_header.2 ⟨L.fields, h.fields, h.within rest, rfl, by simp [front]⟩
  have hroots : (readRoots L.fields.header L.fields.header.rootCount).run
      (L.roots.flatMap (uintBytes L.size) ++ (L.index ++ (L.body ++ rest))) =
        .ok (L.roots, L.index ++ (L.body ++ rest)) :=
    run_readRoots.2 ⟨rfl, h.roots_lt, rfl⟩
  have hindex : (readIndex L.fields.header).run (L.index ++ (L.body ++ rest)) =
      .ok ((), L.body ++ rest) := by
    refine run_readIndex.2 ⟨fun _ => ?_, L.index, h.index_length, rfl⟩
    have hmul : L.frames.length * L.offsetSize.toNat ≤ L.frames.length * 8 :=
      Nat.mul_le_mul_left L.frames.length h.fields.offsetSize_le
    have hlt := h.count_lt
    show L.frames.length * L.offsetSize.toNat < 2 ^ 64
    omega
  have hbody : (readBody (L.front ++ rest).length L.fields.header).run (L.body ++ rest) =
      .ok ((L.records, rest.length), rest) := by
    refine (run_readBody hcount).2 ⟨?_, rfl, L.frames, rfl, h.frames, rfl, rfl, rfl⟩
    have hlen : L.front.length = L.front.length - L.body.length + L.body.length := by
      simp only [front, List.length_append]
      omega
    show (L.front ++ rest).length - (L.body ++ rest).length + L.body.length < wordLimit
    rw [List.length_append, List.length_append]
    omega
  unfold readContents
  rw [Read.run_bind_of_ok hheader, Read.run_bind_of_ok hroots, Read.run_bind_of_ok hindex,
    Read.run_bind_of_ok hbody]

/-- The roots and records of a bag are read exactly from the bytes of valid layouts. -/
theorem run_readContents_iff {bytes rest : List UInt8} {roots : List Nat} {records : List Record} :
    (readContents bytes).run bytes = .ok ((roots, records), rest) ↔
      ∃ L : Layout, L.Valid ∧ bytes = L.toBytes ++ rest ∧ L.roots = roots ∧
        L.records = records := by
  constructor
  · intro h
    unfold readContents at h
    obtain ⟨head, s1, hhead, h1⟩ := Read.run_bind.1 h
    obtain ⟨f, hf, -, rfl, hbytes⟩ := run_header.1 hhead
    obtain ⟨found, s2, hroots, h2⟩ := Read.run_bind.1 h1
    obtain ⟨hcount, hlt, hs1⟩ := run_readRoots.1 hroots
    obtain ⟨u, s3, hindex, h3⟩ := Read.run_bind.1 h2
    obtain ⟨-, index, hlen, hs2⟩ := run_readIndex.1 hindex
    obtain ⟨⟨records', after⟩, s4, hbody, h4⟩ := Read.run_bind.1 h3
    obtain ⟨-, hafter, fs, hfs, hvalid, hrecords, hsize, hs3⟩ :=
      (run_readBody (Nat.le_of_lt hf.cellCount_lt)).1 hbody
    obtain ⟨u', s5, hsum, h5⟩ := Read.run_bind.1 h4
    obtain ⟨hresult, hs5⟩ := Read.run_pure.1 h5
    obtain ⟨rfl, rfl⟩ := Prod.mk.inj hresult
    let L : Layout := ⟨f.flags, f.offsetSize, f.absent, found, index, fs⟩
    have hL : L.fields = f := by
      show (⟨_, _, fs.length, found.length, _, _⟩ : Fields) = f
      rw [hfs, hcount]
      exact congrArg (Fields.mk f.flags f.offsetSize f.cellCount f.rootCount f.absent) hsize
    have hfront : bytes = L.front ++ s4 := by
      rw [hbytes, hs1, hs2, hs3]
      simp only [front, hL, List.append_assoc]
      rfl
    rw [hfront, hafter, run_readChecksum, ← hL] at hsum
    refine ⟨L, ⟨hL ▸ hf, hlt, ?_, ?_⟩, ?_, rfl, hrecords⟩
    · rw [hL, hlen, show L.frames.length = f.header.cellCount from hfs]
      rfl
    · rw [show L.frames.length = f.header.cellCount from hfs]
      exact hvalid
    · rw [hfront, hsum, hs5, toBytes, List.append_assoc]
  · rintro ⟨L, hL, rfl, rfl, rfl⟩
    rw [toBytes, List.append_assoc, hL.run_readContents, Read.run_bind]
    exact ⟨(), rest, run_readChecksum.2 rfl, Read.run_pure.2 ⟨rfl, rfl⟩⟩

theorem Valid.forward_records (h : L.Valid) : Forward L.records := by
  intro i r hr target ht
  rw [records, List.getElem?_map, Option.map_eq_some_iff] at hr
  obtain ⟨f, hf, rfl⟩ := hr
  obtain ⟨h1, h2⟩ := (h.frames.get hf).forward target ht
  rw [records, List.length_map]
  omega

end Layout

theorem read_of_run {bytes rest : List UInt8} {roots : List Nat} {records : List Record}
    (hrun : (readContents bytes).run bytes = .ok ((roots, records), rest))
    (hfwd : Forward records) :
    read bytes = if roots.headD 0 < records.length then .ok (tree records (roots.headD 0))
      else .error (.rootOutOfRange (roots.headD 0)) := by
  rw [read_eq, hrun]
  show (assemble 0 records >>= fun cells => _) = _
  rw [assemble_eq hfwd (List.drop_zero ..), ← List.range_eq_range']
  show (match ((List.range records.length).map (tree records))[roots.headD 0]? with
    | some c => Except.ok c
    | none => Except.error (BagError.rootOutOfRange (roots.headD 0))) = _
  split
  · next c hc =>
    obtain ⟨i, hi, rfl⟩ := Option.map_eq_some_iff.1 (List.getElem?_map .. ▸ hc)
    obtain ⟨hlt, rfl⟩ := List.getElem?_eq_some_iff.1 hi
    rw [List.length_range] at hlt
    rw [if_pos hlt, List.getElem_range]
  · next hc =>
    rw [List.getElem?_eq_none_iff, List.length_map, List.length_range] at hc
    rw [if_neg (Nat.not_lt.2 hc)]

/-- Reading accepts exactly the bytes of valid layouts whose first root exists. -/
theorem read_eq_ok_iff {bytes : List UInt8} {c : Cell} :
    read bytes = .ok c ↔
      ∃ (L : Layout) (rest : List UInt8), L.Valid ∧ L.root < L.frames.length ∧
        bytes = L.toBytes ++ rest ∧ L.tree = c := by
  constructor
  · intro h
    have hrun : ∃ out, (readContents bytes).run bytes = .ok out := by
      rw [read_eq] at h
      cases hc : (readContents bytes).run bytes with
      | error e => rw [hc] at h; cases h
      | ok out => exact ⟨out, rfl⟩
    obtain ⟨⟨⟨roots, records⟩, rest⟩, hrun⟩ := hrun
    obtain ⟨L, hL, hbytes, rfl, rfl⟩ := Layout.run_readContents_iff.1 hrun
    rw [read_of_run hrun hL.forward_records, Layout.records, List.length_map] at h
    split at h
    · next hroot => exact ⟨L, rest, hL, hroot, hbytes, Except.ok.inj h⟩
    · cases h
  · rintro ⟨L, rest, hL, hroot, rfl, rfl⟩
    have hrun : (readContents (L.toBytes ++ rest)).run (L.toBytes ++ rest) =
        .ok ((L.roots, L.records), rest) :=
      Layout.run_readContents_iff.2 ⟨L, hL, rfl, rfl, rfl⟩
    rw [read_of_run hrun hL.forward_records, Layout.records, List.length_map]
    exact if_pos hroot

end CellAbi.Bag
