import CellAbi.Proofs.Bag.Reading

/-!
# Frames

A frame is one record as it stands in a bag, its data still with the completion tag.  The steps
that read records, references and roots succeed exactly on the bytes of valid frames.

    (readRecords h index n).run bytes = .ok (rs, rest) ↔
      ∃ fs, fs.length = n ∧ ValidFrom h.cellCount index fs ∧ fs.map Frame.record = rs ∧
        bytes = fs.flatMap (Frame.toBytes h.size) ++ rest                       (`run_readRecords`)
-/

namespace CellAbi.Bag

/-! ## Frames -/

/-- One record as it stands in a bag, its data with the completion tag. -/
structure Frame where
  d1 : UInt8
  d2 : UInt8
  data : List UInt8
  refs : List Nat
deriving DecidableEq

/-- The data without the tag that the second descriptor byte announces, and the number of bits. -/
def content? (d2 : UInt8) (data : List UInt8) : Option (List UInt8 × Nat) :=
  if d2.toNat % 2 = 1 then stripTag? data else some (data, data.length * 8)

namespace Frame

def toBytes (size : Nat) (f : Frame) : List UInt8 :=
  f.d1 :: f.d2 :: (f.data ++ f.refs.flatMap (uintBytes size))

/-- The record that the frame stands for. -/
def record (f : Frame) : Record :=
  let (data, bitLen) := (content? f.d2 f.data).getD ([], 0)
  ⟨data, bitLen, f.refs⟩

/-- The frame may stand at `index` among `count` frames. -/
structure Valid (count index : Nat) (f : Frame) : Prop where
  ordinary : f.d1 &&& 0x08 = 0
  noHashes : f.d1 &&& 0x10 = 0
  refCount : f.refs.length = (f.d1 &&& 0x07).toNat
  refCount_le : f.refs.length ≤ Cell.maxRefs
  dataLength : f.data.length = (f.d2.toNat + 1) / 2
  tag : f.d2.toNat % 2 = 1 → f.data.getLast? ≠ some 0
  forward : ∀ target ∈ f.refs, index < target ∧ target < count

theorem Valid.content {count index : Nat} {f : Frame} (h : f.Valid count index) :
    content? f.d2 f.data = some (f.record.data, f.record.bitLen) := by
  have hsome : (content? f.d2 f.data).isSome := by
    unfold content?
    split
    · next hodd =>
      have hlen := h.dataLength
      have hne : f.data ≠ [] := by
        intro h0
        rw [h0, List.length_nil] at hlen
        omega
      refine stripTag?_isSome (List.getLast?_eq_some_getLast hne) fun h0 => h.tag hodd ?_
      rw [List.getLast?_eq_some_getLast hne, h0]
    · rfl
  obtain ⟨⟨data, bitLen⟩, hc⟩ := Option.isSome_iff_exists.1 hsome
  simp [record, hc]

end Frame

/-- Every frame is valid at its place; the first stands at `index`. -/
def ValidFrom (count : Nat) : Nat → List Frame → Prop
  | _, [] => True
  | index, f :: fs => f.Valid count index ∧ ValidFrom count (index + 1) fs

theorem ValidFrom.get {count index i : Nat} {fs : List Frame} {f : Frame}
    (h : ValidFrom count index fs) (hf : fs[i]? = some f) : f.Valid count (index + i) := by
  induction fs generalizing index i with
  | nil => simp at hf
  | cons g fs ih =>
    cases i with
    | zero =>
      simp only [List.getElem?_cons_zero, Option.some.injEq] at hf
      exact hf ▸ h.1
    | succ i =>
      rw [List.getElem?_cons_succ] at hf
      have := ih h.2 hf
      rwa [show index + 1 + i = index + (i + 1) by omega] at this

/-! ## Lengths -/

theorem Frame.length_toBytes (size : Nat) (f : Frame) :
    (f.toBytes size).length = f.data.length + f.refs.length * size + 2 := by
  simp only [toBytes, List.length_cons, List.length_append, length_flatMap_uintBytes]

/-- A frame takes two bytes at least, and 146 bytes at most: two descriptor bytes, 128 bytes of data
and four references of four bytes. -/
theorem ValidFrom.length_body {count index size : Nat} {fs : List Frame}
    (h : ValidFrom count index fs) (hsize : size ≤ 4) :
    fs.length * 2 ≤ (fs.flatMap (Frame.toBytes size)).length ∧
      (fs.flatMap (Frame.toBytes size)).length ≤ fs.length * 146 := by
  induction fs generalizing index with
  | nil => simp
  | cons f fs ih =>
    obtain ⟨hlow, hhigh⟩ := ih h.2
    have hdata : f.data.length ≤ 128 := by
      have hd2 : f.d2.toNat < 256 := f.d2.toNat_lt
      rw [h.1.dataLength]
      omega
    have hrefs : f.refs.length * size ≤ 4 * 4 := Nat.mul_le_mul h.1.refCount_le hsize
    rw [List.flatMap_cons, List.length_append, Frame.length_toBytes, List.length_cons]
    omega

/-! ## Reading frames -/

section
variable {h : Header} (hcount : h.cellCount ≤ 256 ^ h.size)

theorem run_readData {index : Nat} {d2 : UInt8} {bytes rest : List UInt8}
    {content : List UInt8 × Nat} :
    (readData index d2).run bytes = .ok (content, rest) ↔
      ∃ data, data.length = (d2.toNat + 1) / 2 ∧ content? d2 data = some content ∧
        bytes = data ++ rest := by
  unfold readData content?
  rw [Read.run_bind]
  simp only [Read.run_take]
  by_cases hodd : d2.toNat % 2 = 1
  · simp only [hodd, if_true]
    constructor
    · rintro ⟨data, mid, ⟨hlen, rfl⟩, hc⟩
      split at hc
      · next stripped hs =>
        obtain ⟨rfl, rfl⟩ := Read.run_pure.1 hc
        exact ⟨data, hlen, hs, rfl⟩
      · cases hc
    · rintro ⟨data, hlen, hs, rfl⟩
      refine ⟨data, rest, ⟨hlen, rfl⟩, ?_⟩
      rw [hs]
      exact Read.run_pure.2 ⟨rfl, rfl⟩
  · simp only [hodd, if_false, Read.run_pure, Option.some.injEq]
    constructor
    · rintro ⟨data, mid, ⟨hlen, rfl⟩, rfl, rfl⟩
      exact ⟨data, hlen, rfl, rfl⟩
    · rintro ⟨data, hlen, rfl, rfl⟩
      exact ⟨data, rest, ⟨hlen, rfl⟩, rfl, rfl⟩

include hcount

theorem run_readRefs {index n : Nat} {bytes rest : List UInt8} {refs : List Nat} :
    (readRefs h index n).run bytes = .ok (refs, rest) ↔
      refs.length = n ∧ (∀ target ∈ refs, index < target ∧ target < h.cellCount) ∧
        bytes = refs.flatMap (uintBytes h.size) ++ rest := by
  induction n generalizing bytes rest refs with
  | zero =>
    rw [readRefs, Read.run_pure, List.length_eq_zero_iff]
    constructor
    · rintro ⟨rfl, rfl⟩
      exact ⟨rfl, by simp, rfl⟩
    · rintro ⟨rfl, -, rfl⟩
      exact ⟨rfl, rfl⟩
  | succ n ih =>
    rw [readRefs]
    simp only [Read.run_bind, Read.run_uint, Read.run_check, Read.run_pure, ih,
      Bool.and_eq_true, decide_eq_true_eq]
    constructor
    · rintro ⟨target, _, ⟨-, rfl⟩, _, _, ⟨hok, rfl⟩, targets, _, ⟨hlen, hall, rfl⟩, rfl, rfl⟩
      refine ⟨by rw [List.length_cons, hlen], ?_, by rw [List.flatMap_cons, List.append_assoc]⟩
      intro t ht
      rcases List.mem_cons.1 ht with rfl | ht
      · exact hok
      · exact hall t ht
    · rintro ⟨hlen, hall, rfl⟩
      obtain _ | ⟨target, targets⟩ := refs
      · cases hlen
      have hok := hall target List.mem_cons_self
      refine ⟨target, _, ⟨by omega, by rw [List.flatMap_cons, List.append_assoc]⟩, (), _,
        ⟨hok, rfl⟩, targets, rest, ⟨by simpa using hlen, fun t ht => ?_, rfl⟩, rfl, rfl⟩
      exact hall t (List.mem_cons_of_mem _ ht)

theorem run_readRecord {index : Nat} {bytes rest : List UInt8} {r : Record} :
    (readRecord h index).run bytes = .ok (r, rest) ↔
      ∃ f : Frame, f.Valid h.cellCount index ∧ f.record = r ∧
        bytes = f.toBytes h.size ++ rest := by
  unfold readRecord
  simp only [Read.run_bind, Read.run_byte, Read.run_check, Read.run_pure, run_readData,
    run_readRefs hcount, beq_iff_eq, decide_eq_true_eq]
  constructor
  · rintro ⟨d1, _, rfl, d2, _, rfl, _, _, ⟨hord, rfl⟩, _, _, ⟨hhash, rfl⟩, _, _, ⟨hle, rfl⟩,
      ⟨data, bitLen⟩, _, ⟨raw, hlen, hc, rfl⟩, refs, _, ⟨hrefs, hfwd, rfl⟩, rfl, rfl⟩
    refine ⟨⟨d1, d2, raw, refs⟩, ⟨hord, hhash, hrefs, by rw [hrefs]; exact hle, hlen, ?_, hfwd⟩,
      ?_, by simp [Frame.toBytes]⟩
    · intro hodd h0
      simp [content?, show d2.toNat % 2 = 1 from hodd, stripTag?, show raw.getLast? = some 0 from h0]
        at hc
    · simp only [Frame.record, hc, Option.getD_some]
  · rintro ⟨f, hf, rfl, rfl⟩
    refine ⟨f.d1, _, rfl, f.d2, _, rfl, (), _, ⟨hf.ordinary, rfl⟩, (), _, ⟨hf.noHashes, rfl⟩,
      (), _, ⟨by rw [← hf.refCount]; exact hf.refCount_le, rfl⟩, _, _,
      ⟨f.data, hf.dataLength, hf.content, List.append_assoc ..⟩, f.refs, rest,
      ⟨hf.refCount, hf.forward, rfl⟩, rfl, rfl⟩

theorem run_readRecords {index n : Nat} {bytes rest : List UInt8} {rs : List Record} :
    (readRecords h index n).run bytes = .ok (rs, rest) ↔
      ∃ fs : List Frame, fs.length = n ∧ ValidFrom h.cellCount index fs ∧
        fs.map Frame.record = rs ∧ bytes = fs.flatMap (Frame.toBytes h.size) ++ rest := by
  induction n generalizing index bytes rest rs with
  | zero =>
    rw [readRecords, Read.run_pure]
    constructor
    · rintro ⟨rfl, rfl⟩
      exact ⟨[], rfl, trivial, rfl, rfl⟩
    · rintro ⟨fs, hlen, -, rfl, rfl⟩
      obtain rfl := List.length_eq_zero_iff.1 hlen
      exact ⟨rfl, rfl⟩
  | succ n ih =>
    rw [readRecords]
    simp only [Read.run_bind, Read.run_pure, run_readRecord hcount, ih]
    constructor
    · rintro ⟨r, _, ⟨f, hf, rfl, rfl⟩, _, _, ⟨fs, hlen, hfs, rfl, rfl⟩, rfl, rfl⟩
      exact ⟨f :: fs, by rw [List.length_cons, hlen], ⟨hf, hfs⟩, rfl,
        by rw [List.flatMap_cons, List.append_assoc]⟩
    · rintro ⟨fs, hlen, hfs, rfl, rfl⟩
      obtain _ | ⟨f, fs⟩ := fs
      · cases hlen
      exact ⟨f.record, _, ⟨f, hfs.1, rfl, by rw [List.flatMap_cons, List.append_assoc]⟩,
        fs.map Frame.record, rest, ⟨fs, by simpa using hlen, hfs.2, rfl, rfl⟩, rfl, rfl⟩

omit hcount

theorem run_readRoots {n : Nat} {bytes rest : List UInt8} {roots : List Nat} :
    (readRoots h n).run bytes = .ok (roots, rest) ↔
      roots.length = n ∧ (∀ root ∈ roots, root < 256 ^ h.size) ∧
        bytes = roots.flatMap (uintBytes h.size) ++ rest := by
  induction n generalizing bytes rest roots with
  | zero =>
    rw [readRoots, Read.run_pure, List.length_eq_zero_iff]
    constructor
    · rintro ⟨rfl, rfl⟩
      exact ⟨rfl, by simp, rfl⟩
    · rintro ⟨rfl, -, rfl⟩
      exact ⟨rfl, rfl⟩
  | succ n ih =>
    rw [readRoots]
    simp only [Read.run_bind, Read.run_uint, Read.run_pure, ih]
    constructor
    · rintro ⟨root, _, ⟨hlt, rfl⟩, roots, _, ⟨hlen, hall, rfl⟩, rfl, rfl⟩
      refine ⟨by rw [List.length_cons, hlen], ?_, by rw [List.flatMap_cons, List.append_assoc]⟩
      intro r hr
      rcases List.mem_cons.1 hr with rfl | hr
      · exact hlt
      · exact hall r hr
    · rintro ⟨hlen, hall, rfl⟩
      obtain _ | ⟨root, roots⟩ := roots
      · cases hlen
      exact ⟨root, _, ⟨hall root List.mem_cons_self, by rw [List.flatMap_cons, List.append_assoc]⟩,
        roots, rest, ⟨by simpa using hlen, fun r hr => hall r (List.mem_cons_of_mem _ hr), rfl⟩,
        rfl, rfl⟩

end

end CellAbi.Bag
