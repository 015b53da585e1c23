import CellAbi.Proofs.Bag.Layout

/-!
# Standard bags

Bags as other writers lay them out: ordinary records in normal form with the standard descriptor
bytes and completion tags, any widths that fit, with or without an index and a checksum.  Records
may be shared, and there may be more roots than one.

    ofBag B.toBytes = .ok (tree B.records B.root)                                 (`read_toBytes`)
-/

namespace CellAbi.Bag

/-! ## Records in normal form -/

/-- The record keeps its bits packed, and neither bits nor references are too many. -/
structure Record.Normal (r : Record) : Prop where
  packed : Bits.Packed r.data r.bitLen
  bitLen_le : r.bitLen ≤ Cell.maxBits
  refs_le : r.refs.length ≤ Cell.maxRefs

namespace Record

/-- The frame with the standard descriptor bytes and completion tag. -/
def frame (r : Record) : Frame where
  d1 := UInt8.ofNat r.refs.length
  d2 := UInt8.ofNat (r.bitLen / 8 + Bits.byteCount r.bitLen)
  data := Cell.taggedData r.data r.bitLen
  refs := r.refs

theorem toBytes_frame (size : Nat) (r : Record) : r.frame.toBytes size = r.toBytes size := by
  simp [frame, Frame.toBytes, toBytes, Cell.descriptors]

variable {r : Record}

theorem toNat_d2 (h : r.bitLen ≤ Cell.maxBits) :
    r.frame.d2.toNat = r.bitLen / 8 + Bits.byteCount r.bitLen := by
  have hle : r.bitLen ≤ 1023 := h
  show (UInt8.ofNat (r.bitLen / 8 + Bits.byteCount r.bitLen)).toNat = _
  rw [UInt8.toNat_ofNat']
  apply Nat.mod_eq_of_lt
  unfold Bits.byteCount
  omega

/-- The second descriptor byte is odd where the last byte is only partly used. -/
theorem d2_odd_iff (h : r.bitLen ≤ Cell.maxBits) :
    r.frame.d2.toNat % 2 = 1 ↔ r.bitLen % 8 ≠ 0 := by
  rw [toNat_d2 h]
  unfold Bits.byteCount
  omega

theorem record_frame (h : r.Normal) : r.frame.record = r := by
  have hcontent : content? r.frame.d2 r.frame.data = some (r.data, r.bitLen) := by
    unfold content?
    split
    · next hodd => exact stripTag?_taggedData h.packed ((d2_odd_iff h.bitLen_le).1 hodd)
    · next heven =>
      have hzero : r.bitLen % 8 = 0 := by
        have := d2_odd_iff h.bitLen_le
        omega
      have hlen := h.packed.1
      unfold Bits.byteCount at hlen
      rw [show r.frame.data = r.data from if_pos hzero, show r.data.length * 8 = r.bitLen by omega]
  rw [Frame.record, hcontent]
  rfl

theorem small_count : ∀ n, n ≤ 4 → UInt8.ofNat n &&& 0x08 = 0 ∧ UInt8.ofNat n &&& 0x10 = 0 ∧
    n = (UInt8.ofNat n &&& 0x07).toNat := by
  decide

theorem valid_frame (h : r.Normal) {count index : Nat}
    (hfwd : ∀ target ∈ r.refs, index < target ∧ target < count) : r.frame.Valid count index := by
  obtain ⟨hord, hhash, hrefs⟩ := small_count r.refs.length h.refs_le
  refine ⟨hord, hhash, hrefs, h.refs_le, ?_, fun hodd hlast => ?_, hfwd⟩
  · rw [toNat_d2 h.bitLen_le, show r.frame.data.length = r.data.length from length_taggedData ..,
      h.packed.1]
    unfold Bits.byteCount
    omega
  · have hstrip := stripTag?_taggedData h.packed ((d2_odd_iff h.bitLen_le).1 hodd)
    rw [stripTag?, show (Cell.taggedData r.data r.bitLen).getLast? = some 0 from hlast] at hstrip
    cases hstrip

end Record

theorem validFrom_frames {rs : List Record} (hnormal : ∀ r ∈ rs, r.Normal) {count index : Nat}
    (hfwd : ∀ i r, rs[i]? = some r → ∀ target ∈ r.refs, index + i < target ∧ target < count) :
    ValidFrom count index (rs.map Record.frame) := by
  induction rs generalizing index with
  | nil => trivial
  | cons r rs ih =>
    refine ⟨Record.valid_frame (hnormal r List.mem_cons_self) (hfwd 0 r rfl), ?_⟩
    refine ih (fun r hr => hnormal r (List.mem_cons_of_mem _ hr)) fun i r hr target ht => ?_
    have := hfwd (i + 1) r hr target ht
    omega

/-! ## Bags of records -/

/-- The flags byte. -/
def flagByte (size : Nat) (hasIndex hasChecksum : Bool) : UInt8 :=
  UInt8.ofNat size ||| (if hasIndex then 0x80 else 0) ||| (if hasChecksum then 0x40 else 0)

theorem flagByte_plain (size : Nat) : flagByte size false false = UInt8.ofNat size := by
  simp [flagByte]

theorem flagByte_spec : ∀ size, size ≤ 4 → ∀ hasIndex hasChecksum : Bool,
    (flagByte size hasIndex hasChecksum &&& 0x07).toNat = size ∧
      (flagByte size hasIndex hasChecksum &&& 0x80 != 0) = hasIndex ∧
      (flagByte size hasIndex hasChecksum &&& 0x40 != 0) = hasChecksum := by
  decide

/-- A bag of records in normal form, with the widths, roots and flags that its writer chose. -/
structure Standard where
  records : List Record
  roots : List Nat
  absent : Nat
  size : Nat
  offsetSize : Nat
  index : Option (List UInt8)
  hasChecksum : Bool
  normal : ∀ r ∈ records, r.Normal
  forward : Forward records
  roots_ne : roots ≠ []
  roots_le : roots.length ≤ records.length
  roots_lt : ∀ root ∈ roots, root < records.length
  size_pos : 0 < size
  size_le : size ≤ 4
  count_lt : records.length < 256 ^ size
  absent_lt : absent < 256 ^ size
  offsetSize_pos : 0 < offsetSize
  offsetSize_le : offsetSize ≤ 8
  body_lt : (records.flatMap (Record.toBytes size)).length < 256 ^ offsetSize
  index_length : ∀ bytes ∈ index, bytes.length = records.length * offsetSize

namespace Standard

variable (B : Standard)

def body : List UInt8 := B.records.flatMap (Record.toBytes B.size)

/-- The bytes before the checksum. -/
def front : List UInt8 :=
  magic ++ [flagByte B.size B.index.isSome B.hasChecksum, UInt8.ofNat B.offsetSize] ++
    uintBytes B.size B.records.length ++ uintBytes B.size B.roots.length ++
    uintBytes B.size B.absent ++ uintBytes B.offsetSize B.body.length ++
    B.roots.flatMap (uintBytes B.size) ++ B.index.getD [] ++ B.body

def toBytes : List UInt8 := B.front ++ if B.hasChecksum then Crc32c.trailer B.front else []

/-- The first root. -/
def root : Nat := B.roots.headD 0

theorem root_lt : B.root < B.records.length := by
  have hlt := B.roots_lt
  unfold root
  cases hroots : B.roots with
  | nil => exact absurd hroots B.roots_ne
  | cons root _ => exact hlt root (hroots ▸ List.mem_cons_self)

def layout : Layout where
  flags := flagByte B.size B.index.isSome B.hasChecksum
  offsetSize := UInt8.ofNat B.offsetSize
  absent := B.absent
  roots := B.roots
  index := B.index.getD []
  frames := B.records.map Record.frame

theorem size_layout : B.layout.size = B.size := (flagByte_spec B.size B.size_le _ _).1

theorem offsetSize_layout : B.layout.offsetSize.toNat = B.offsetSize := by
  have hle := B.offsetSize_le
  show (UInt8.ofNat B.offsetSize).toNat = _
  rw [UInt8.toNat_ofNat']
  exact Nat.mod_eq_of_lt (by omega)

theorem hasIndex_layout : B.layout.fields.header.hasIndex = B.index.isSome :=
  (flagByte_spec B.size B.size_le _ _).2.1

theorem hasChecksum_layout : B.layout.fields.header.hasChecksum = B.hasChecksum :=
  (flagByte_spec B.size B.size_le _ _).2.2

theorem records_layout : B.layout.records = B.records := by
  show (B.records.map Record.frame).map Frame.record = _
  rw [List.map_map]
  refine (List.map_congr_left fun r hr => ?_).trans (List.map_id B.records)
  exact Record.record_frame (B.normal r hr)

theorem length_frames_layout : B.layout.frames.length = B.records.length := List.length_map _

theorem body_layout : B.layout.body = B.body := by
  show (B.records.map Record.frame).flatMap (Frame.toBytes B.layout.size) = _
  rw [List.flatMap_map, B.size_layout]
  exact congrArg (B.records.flatMap ·) (funext (Record.toBytes_frame B.size))

theorem front_layout : B.layout.front = B.front := by
  have hsize : B.layout.fields.size = B.size := B.size_layout
  have hoffset : B.layout.fields.offsetSize.toNat = B.offsetSize := B.offsetSize_layout
  have hcount : B.layout.fields.cellCount = B.records.length := B.length_frames_layout
  have hbody : B.layout.fields.bodySize = B.body.length := congrArg List.length B.body_layout
  rw [Layout.front, Fields.toBytes, hsize, hoffset, hcount, hbody, B.size_layout, B.body_layout]
  simp only [front, List.append_assoc, List.cons_append, List.nil_append]
  rfl

theorem toBytes_layout : B.layout.toBytes = B.toBytes := by
  rw [toBytes, Layout.toBytes, B.front_layout, B.hasChecksum_layout]

theorem root_lt_layout : B.layout.root < B.layout.frames.length := by
  rw [B.length_frames_layout]
  exact B.root_lt

theorem tree_layout : B.layout.tree = Bag.tree B.records B.root := by
  rw [Layout.tree, B.records_layout]
  rfl

theorem valid_layout : B.layout.Valid := by
  have hcount := B.length_frames_layout
  refine ⟨⟨?_, ?_, ?_, ?_, ?_, ?_, ?_, ?_, ?_⟩, fun root hroot => ?_, ?_, ?_⟩
  · exact Nat.lt_of_lt_of_eq B.size_pos B.size_layout.symm
  · exact Nat.le_trans (Nat.le_of_eq B.size_layout) B.size_le
  · exact B.offsetSize_layout ▸ B.offsetSize_pos
  · exact B.offsetSize_layout ▸ B.offsetSize_le
  · show B.layout.frames.length < 256 ^ B.layout.size
    rw [hcount, B.size_layout]
    exact B.count_lt
  · exact List.length_pos_iff.2 B.roots_ne
  · show B.roots.length ≤ B.layout.frames.length
    rw [hcount]
    exact B.roots_le
  · show B.absent < 256 ^ B.layout.size
    rw [B.size_layout]
    exact B.absent_lt
  · show B.layout.body.length < 256 ^ B.layout.offsetSize.toNat
    rw [B.body_layout, B.offsetSize_layout]
    exact B.body_lt
  · rw [B.size_layout]
    exact Nat.lt_trans (B.roots_lt root hroot) B.count_lt
  · rw [B.hasIndex_layout, hcount, B.offsetSize_layout]
    show (B.index.getD []).length = _
    cases hindex : B.index with
    | none => rfl
    | some bytes => exact B.index_length bytes hindex
  · rw [hcount]
    refine validFrom_frames B.normal fun i r hr target ht => ?_
    have := B.forward i r hr target ht
    omega

/-! ## Reading -/

/-- Whatever stands behind the records, reading gets as far as the checksum. -/
theorem run_readContents (rest : List UInt8) :
    (readContents (B.front ++ rest)).run (B.front ++ rest) =
      (readChecksum (B.front ++ rest) B.layout.fields.header rest.length >>= fun _ =>
        pure (B.roots, B.records)).run rest := by
  have h := B.valid_layout.run_readContents rest
  rwa [B.front_layout, B.records_layout] at h

/-- The first root is read, whatever stands behind the bag. -/
theorem read_toBytes (rest : List UInt8) :
    read (B.toBytes ++ rest) = .ok (Bag.tree B.records B.root) :=
  read_eq_ok_iff.2
    ⟨B.layout, rest, B.valid_layout, B.root_lt_layout, B.toBytes_layout ▸ rfl, B.tree_layout⟩

/-- A trailer that does not begin with the checksum is refused. -/
theorem read_front_append (hsum : B.hasChecksum = true) {trailer : List UInt8}
    (h : trailer.take 4 ≠ Crc32c.trailer B.front) :
    read (B.front ++ trailer) =
      .error (if trailer.length < 4 then .unexpectedEnd else .checksum) := by
  have hcheck := run_readChecksum_of_ne (B.hasChecksum_layout.trans hsum) h
  rw [read_eq, run_readContents, Read.run_bind_of_error hcheck]
  rfl

/-- A standard bag stands for the unfolding of its first root.  With any other checksum it is
refused. -/
theorem ofBag_toBytes :
    Cell.ofBag B.toBytes = .ok (Bag.tree B.records B.root) ∧
      (B.hasChecksum = true → ∀ trailer : List UInt8,
        trailer.take 4 ≠ Crc32c.trailer B.front →
          Cell.ofBag (B.front ++ trailer) =
            .error (.invalidBag (if trailer.length < 4 then .unexpectedEnd else .checksum))) := by
  constructor
  · have h := B.read_toBytes []
    rw [List.append_nil] at h
    rw [Cell.ofBag, h]
    rfl
  · intro hsum trailer h
    rw [Cell.ofBag, B.read_front_append hsum h]
    rfl

/-- Two roots, an index and a checksum; the second record is shared by the first. -/
def shared : Standard where
  records := [⟨[0xa0], 3, [1, 1]⟩, ⟨[], 0, []⟩]
  roots := [0, 1]
  absent := 0
  size := 2
  offsetSize := 3
  index := some [0, 0, 7, 0, 0, 9]
  hasChecksum := true
  normal := by
    intro r hr
    simp only [List.mem_cons, List.not_mem_nil, or_false] at hr
    rcases hr with rfl | rfl
    · refine ⟨⟨rfl, fun i hi => ?_⟩, by decide, by decide⟩
      by_cases h : i < 8
      · have hall : ∀ i, i < 8 → 3 ≤ i → Bits.get [0xa0] i = false := by decide
        exact hall i h hi
      · exact Bits.get_of_length_le (by simpa using h)
    · exact ⟨Bits.packed_nil, by decide, by decide⟩
  forward := by
    intro i r hr target ht
    match i with
    | 0 =>
      obtain rfl := Option.some.inj hr
      simp only [List.mem_cons, List.not_mem_nil, or_false, or_self] at ht
      subst ht
      decide
    | 1 =>
      obtain rfl := Option.some.inj hr
      cases ht
    | i + 2 => cases hr
  roots_ne := by decide
  roots_le := by decide
  roots_lt := by decide
  size_pos := by decide
  size_le := by decide
  count_lt := by decide
  absent_lt := by decide
  offsetSize_pos := by decide
  offsetSize_le := by decide
  body_lt := by decide
  index_length := by decide

theorem ofBag_shared :
    Cell.ofBag shared.toBytes = .ok (.node [0xa0] 3 [.empty, .empty]) ∧
      Cell.ofBag (shared.front ++ [0, 0, 0, 0]) = .error (.invalidBag .checksum) := by
  have h := shared.ofBag_toBytes
  have htree : Bag.tree shared.records shared.root = .node [0xa0] 3 [.empty, .empty] := by
    have hleaf : Bag.tree shared.records 1 = .empty :=
      tree_eq (r := ⟨[], 0, []⟩) rfl (by decide)
    rw [tree_eq (r := ⟨[0xa0], 3, [1, 1]⟩) rfl (by decide)]
    simp only [List.map_cons, List.map_nil, hleaf]
  exact ⟨htree ▸ h.1, h.2 rfl [0, 0, 0, 0] (by decide +kernel)⟩

end Standard

end CellAbi.Bag
