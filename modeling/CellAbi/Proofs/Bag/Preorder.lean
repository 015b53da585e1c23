import CellAbi.Proofs.Bag.Standard
import CellAbi.Proofs.Descendants

/-!
# Written bags

Writing numbers the cells of a tree in preorder, so that the records of a subtree stand together
and every reference leads forward.  The records unfold to the tree again, and the bag is a standard
one.

    all.drop index = records index c ++ rest → tree all index = c                 (`tree_records`)
    read (c.toBag ++ rest) = .ok c          for `c` in normal form                (`read_toBag`)
-/

namespace CellAbi.Bag

/-! ## Widths -/

theorem pow_256 (k : Nat) : 256 ^ k = 2 ^ (8 * k) := by
  rw [Nat.pow_mul]

theorem byteWidth_pos (n : Nat) : 0 < byteWidth n := by
  unfold byteWidth
  omega

theorem byteWidth_le_iff {n k : Nat} (hk : 0 < k) : byteWidth n ≤ k ↔ n < 256 ^ k := by
  rw [pow_256, ← Bits.size_le_iff]
  unfold byteWidth Bits.byteCount
  omega

theorem lt_pow_byteWidth (n : Nat) : n < 256 ^ byteWidth n :=
  (byteWidth_le_iff (byteWidth_pos n)).1 (Nat.le_refl _)

/-! ## Numbering -/

theorem size_pos (c : Cell) : 0 < c.size := by
  cases c
  rw [Cell.size]
  omega

mutual

theorem length_records : ∀ (index : Nat) (c : Cell), (records index c).length = c.size
  | index, .node data bitLen refs => by
    rw [records, List.length_cons, length_recordsAll, Cell.size]

theorem length_recordsAll : ∀ (index : Nat) (cs : List Cell),
    (recordsAll index cs).length = Cell.sizeAll cs
  | _, [] => rfl
  | index, c :: cs => by
    rw [recordsAll, List.length_append, length_records, length_recordsAll, Cell.sizeAll]

end

theorem length_subtreeIndices (index : Nat) (cs : List Cell) :
    (subtreeIndices index cs).length = cs.length := by
  induction cs generalizing index with
  | nil => rfl
  | cons c cs ih => rw [subtreeIndices, List.length_cons, ih, List.length_cons]

theorem mem_subtreeIndices {index target : Nat} {cs : List Cell}
    (h : target ∈ subtreeIndices index cs) :
    index ≤ target ∧ target < index + Cell.sizeAll cs := by
  induction cs generalizing index with
  | nil => cases h
  | cons c cs ih =>
    have hpos := size_pos c
    rw [Cell.sizeAll]
    rcases List.mem_cons.1 h with rfl | h
    · omega
    · have := ih h
      omega

mutual

/-- References lead to later records of the same tree. -/
theorem forward_records {i target : Nat} {r : Record} : ∀ (index : Nat) (c : Cell),
    (records index c)[i]? = some r → target ∈ r.refs →
      index + i < target ∧ target < index + c.size
  | index, .node data bitLen refs => by
    intro hr ht
    rw [records] at hr
    rw [Cell.size]
    cases i with
    | zero =>
      obtain rfl := Option.some.inj hr
      have := mem_subtreeIndices ht
      omega
    | succ i =>
      have := forward_recordsAll (index + 1) refs hr ht
      omega

theorem forward_recordsAll {i target : Nat} {r : Record} : ∀ (index : Nat) (cs : List Cell),
    (recordsAll index cs)[i]? = some r → target ∈ r.refs →
      index + i < target ∧ target < index + Cell.sizeAll cs
  | _, [] => by
    intro hr
    cases hr
  | index, c :: cs => by
    intro hr ht
    rw [recordsAll] at hr
    rw [Cell.sizeAll]
    by_cases hi : i < c.size
    · rw [List.getElem?_append_left (by rw [length_records]; exact hi)] at hr
      have := forward_records index c hr ht
      omega
    · rw [List.getElem?_append_right (by rw [length_records]; omega), length_records] at hr
      have := forward_recordsAll (index + c.size) cs hr ht
      omega

end

mutual

/-- Every record is written for a node of the tree. -/
theorem mem_records {r : Record} : ∀ (index : Nat) (c : Cell), r ∈ records index c →
    ∃ d, c.Descends d ∧ r.data = d.data ∧ r.bitLen = d.bitLen ∧ r.refs.length = d.refs.length
  | index, .node data bitLen refs => by
    intro hr
    rw [records] at hr
    rcases List.mem_cons.1 hr with rfl | hr
    · exact ⟨_, .refl _, rfl, rfl, length_subtreeIndices ..⟩
    · obtain ⟨c, hc, d, hd, h⟩ := mem_recordsAll (index + 1) refs hr
      exact ⟨d, .child hc hd, h⟩

theorem mem_recordsAll {r : Record} : ∀ (index : Nat) (cs : List Cell), r ∈ recordsAll index cs →
    ∃ c ∈ cs, ∃ d, c.Descends d ∧ r.data = d.data ∧ r.bitLen = d.bitLen ∧
      r.refs.length = d.refs.length
  | _, [] => nofun
  | index, c :: cs => by
    intro hr
    rw [recordsAll] at hr
    rcases List.mem_append.1 hr with hr | hr
    · exact ⟨c, List.mem_cons_self, mem_records index c hr⟩
    · obtain ⟨d, hd, h⟩ := mem_recordsAll (index + c.size) cs hr
      exact ⟨d, List.mem_cons_of_mem _ hd, h⟩

end

theorem normal_records {index : Nat} {c : Cell} {r : Record} (hc : c.Normal)
    (hr : r ∈ records index c) : r.Normal := by
  obtain ⟨d, hd, hdata, hbits, hrefs⟩ := mem_records index c hr
  have h := hc.descends hd
  refine ⟨?_, ?_, ?_⟩
  · rw [hdata, hbits]
    exact h.packed
  · rw [hbits]
    exact h.2.2.1
  · rw [hrefs]
    exact h.2.2.2

/-! ## Unfolding -/

mutual

/-- The records of a tree, wherever they stand, unfold to the tree. -/
theorem tree_records {all : List Record} : ∀ (index : Nat) (c : Cell) (rest : List Record),
    all.drop index = records index c ++ rest → tree all index = c
  | index, .node data bitLen refs, rest => by
    intro h
    rw [records, List.cons_append] at h
    have hr : all[index]? = some ⟨data, bitLen, subtreeIndices (index + 1) refs⟩ := by
      rw [← Nat.add_zero index, ← List.getElem?_drop, h, List.getElem?_cons_zero]
    have hrest : all.drop (index + 1) = recordsAll (index + 1) refs ++ rest := by
      rw [← List.drop_drop, h, List.drop_one, List.tail_cons]
    rw [tree_eq hr fun target ht => (mem_subtreeIndices ht).1,
      map_tree_recordsAll _ refs rest hrest]

theorem map_tree_recordsAll {all : List Record} : ∀ (index : Nat) (cs : List Cell)
    (rest : List Record), all.drop index = recordsAll index cs ++ rest →
      (subtreeIndices index cs).map (tree all) = cs
  | _, [], _ => fun _ => rfl
  | index, c :: cs, rest => by
    intro h
    rw [recordsAll, List.append_assoc] at h
    have hrest : all.drop (index + c.size) = recordsAll (index + c.size) cs ++ rest := by
      rw [← List.drop_drop, h, ← length_records index c, List.drop_left]
    rw [subtreeIndices, List.map_cons, tree_records index c _ h,
      map_tree_recordsAll (index + c.size) cs rest hrest]

end

/-! ## Bags of trees -/

/-- With at most 129 bytes of data and four references of four bytes, a record takes 147 bytes at
most. -/
theorem length_flatMap_toBytes {size : Nat} (hsize : size ≤ 4) {rs : List Record}
    (h : ∀ r ∈ rs, r.data.length ≤ 129 ∧ r.refs.length ≤ Cell.maxRefs) :
    (rs.flatMap (Record.toBytes size)).length ≤ rs.length * 147 := by
  induction rs with
  | nil => exact Nat.zero_le _
  | cons r rs ih =>
    obtain ⟨hdata, hcount⟩ := h r List.mem_cons_self
    have hrefs : r.refs.length * size ≤ 4 * 4 := Nat.mul_le_mul hcount hsize
    have hrest := ih fun r hr => h r (List.mem_cons_of_mem _ hr)
    rw [List.flatMap_cons, List.length_append, ← Record.toBytes_frame, Frame.length_toBytes,
      List.length_cons, show r.frame.data.length = r.data.length from length_taggedData ..,
      show r.frame.refs = r.refs from rfl]
    omega

theorem Record.Normal.length_data {r : Record} (h : r.Normal) : r.data.length ≤ 128 := by
  have hbits : r.bitLen ≤ 1023 := h.bitLen_le
  rw [h.packed.1]
  unfold Bits.byteCount
  omega

theorem byteWidth_records_le {c : Cell} {k : Nat} (hk : 0 < k) :
    byteWidth (records 0 c).length ≤ k ↔ c.size < 256 ^ k := by
  rw [length_records]
  exact byteWidth_le_iff hk

/-- The offsets of a bag of fewer than `2 ^ 32` cells fit their width. -/
theorem byteWidth_body_le {c : Cell} (hsize : c.size < 2 ^ 32)
    (h : ∀ r ∈ records 0 c, r.data.length ≤ 129 ∧ r.refs.length ≤ Cell.maxRefs) :
    byteWidth ((records 0 c).flatMap
      (Record.toBytes (byteWidth (records 0 c).length))).length ≤ 8 := by
  have hbody := length_flatMap_toBytes ((byteWidth_records_le (by decide)).2 hsize) h
  rw [byteWidth_le_iff (by decide)]
  rw [length_records] at hbody ⊢
  omega

/-- The bag that is written for a tree, without index and checksum. -/
def written (c : Cell) (hc : c.Normal) (hsize : c.size < 2 ^ 32) : Standard where
  records := records 0 c
  roots := [0]
  absent := 0
  size := byteWidth (records 0 c).length
  offsetSize := byteWidth ((records 0 c).flatMap
    (Record.toBytes (byteWidth (records 0 c).length))).length
  index := none
  hasChecksum := false
  normal := fun _ hr => normal_records hc hr
  forward := fun i r hr target ht => by
    have := forward_records 0 c hr ht
    rw [length_records]
    omega
  roots_ne := List.cons_ne_nil _ _
  roots_le := by
    rw [length_records]
    exact size_pos c
  roots_lt := fun root hroot => by
    rw [List.mem_singleton.1 hroot, length_records]
    exact size_pos c
  size_pos := byteWidth_pos _
  size_le := (byteWidth_records_le (by decide)).2 hsize
  count_lt := lt_pow_byteWidth _
  absent_lt := Nat.pow_pos (by decide)
  offsetSize_pos := byteWidth_pos _
  offsetSize_le := by
    refine byteWidth_body_le hsize fun r hr => ?_
    have h := normal_records hc hr
    exact ⟨Nat.le_succ_of_le h.length_data, h.refs_le⟩
  body_lt := lt_pow_byteWidth _
  index_length := fun _ h => by cases h

theorem toBytes_written (c : Cell) (hc : c.Normal) (hsize : c.size < 2 ^ 32) :
    (written c hc hsize).toBytes = c.toBag := by
  simp only [Standard.toBytes, Standard.front, Standard.body, written, Option.isSome_none,
    flagByte_plain, Option.getD_none, Bool.false_eq_true, if_false, List.append_nil,
    List.length_singleton, List.flatMap_cons, List.flatMap_nil]
  rfl

theorem read_toBag {c : Cell} (hc : c.Normal) (hsize : c.size < 2 ^ 32) (rest : List UInt8) :
    read (c.toBag ++ rest) = .ok c := by
  have h := (written c hc hsize).read_toBytes rest
  rwa [toBytes_written, show tree (written c hc hsize).records (written c hc hsize).root = c from
    tree_records 0 c [] (by rw [List.append_nil]; rfl)] at h

/-- A bag that is written for a tree in normal form is read as the tree. -/
theorem ofBag_toBag (c : Cell) (hc : c.Normal) (hsize : c.size < 2 ^ 32) :
    Cell.ofBag c.toBag = .ok c := by
  have h := read_toBag hc hsize []
  rw [List.append_nil] at h
  rw [Cell.ofBag, h]
  rfl

theorem ofBag_toBag_pair :
    Cell.ofBag (Cell.toBag (.node [0xff] 8 [.node [] 0 [], .node [] 0 []])) =
      .ok (.node [0xff] 8 [.node [] 0 [], .node [] 0 []]) := by
  have hleaf : Cell.Normal (.node [] 0 []) :=
    ⟨⟨rfl, fun i _ => Bits.get_nil i, by decide, by decide⟩, trivial⟩
  refine ofBag_toBag _ ⟨⟨rfl, fun i hi => ?_, by decide, by decide⟩, hleaf, hleaf, trivial⟩
    (by decide)
  exact Bits.get_of_length_le hi

end CellAbi.Bag
