import CellAbi.Proofs.Bag.NormalForm

/-!
# Writing what was read

The bag that is written for a cell with a surplus byte announces one byte less than follows, so it
is not read as the same cell.  Writing and reading again is lossless on cells in normal form alone.

    read c.toBag = .ok c ↔ c.Normal ∧ c.size < 2 ^ 32                         (`read_toBag_iff`)
-/

namespace CellAbi.Bag

open Bits

/-! ## Injectivity -/

theorem uintBytes_inj {width a b : Nat} (ha : a < 256 ^ width) (hb : b < 256 ^ width)
    (h : uintBytes width a = uintBytes width b) : a = b := by
  rw [← ofUintBytes_uintBytes ha, ← ofUintBytes_uintBytes hb, h]

theorem flatMap_uintBytes_inj {width : Nat} {as bs : List Nat} (hlen : as.length = bs.length)
    (ha : ∀ a ∈ as, a < 256 ^ width) (hb : ∀ b ∈ bs, b < 256 ^ width)
    (h : as.flatMap (uintBytes width) = bs.flatMap (uintBytes width)) : as = bs := by
  induction as generalizing bs with
  | nil => exact (List.length_eq_zero_iff.1 hlen.symm).symm
  | cons a as ih =>
    obtain _ | ⟨b, bs⟩ := bs
    · cases hlen
    rw [List.flatMap_cons, List.flatMap_cons] at h
    obtain ⟨hhead, htail⟩ := List.append_inj h (by rw [length_uintBytes, length_uintBytes])
    rw [uintBytes_inj (ha a List.mem_cons_self) (hb b List.mem_cons_self) hhead,
      ih (by simpa using hlen) (fun a h => ha a (List.mem_cons_of_mem _ h))
        (fun b h => hb b (List.mem_cons_of_mem _ h)) htail]

/-- The bytes of a header can be told from what follows. -/
theorem Fields.toBytes_inj {f g : Fields} (hf : f.Valid) (hg : g.Valid) {x y : List UInt8}
    (h : f.toBytes ++ x = g.toBytes ++ y) : f = g ∧ x = y := by
  have hfr := Nat.lt_of_le_of_lt hf.rootCount_le hf.cellCount_lt
  have hgr := Nat.lt_of_le_of_lt hg.rootCount_le hg.cellCount_lt
  have hcells := hf.cellCount_lt
  have habsent := hf.absent_lt
  have hbody := hf.bodySize_lt
  obtain ⟨flags, offset, cells, roots, absent, body⟩ := f
  obtain ⟨flags', offset', cells', roots', absent', body'⟩ := g
  simp only [toBytes, List.append_assoc, List.cons_append] at h
  obtain ⟨-, hflags⟩ := List.append_inj h rfl
  rw [List.cons.injEq, List.cons.injEq] at hflags
  obtain ⟨rfl, rfl, hcounts⟩ := hflags
  obtain ⟨h1, t1⟩ := List.append_inj hcounts (by rw [length_uintBytes, length_uintBytes]; rfl)
  obtain ⟨h2, t2⟩ := List.append_inj t1 (by rw [length_uintBytes, length_uintBytes]; rfl)
  obtain ⟨h3, t3⟩ := List.append_inj t2 (by rw [length_uintBytes, length_uintBytes]; rfl)
  obtain ⟨h4, t4⟩ := List.append_inj t3 (by rw [length_uintBytes, length_uintBytes])
  obtain rfl := uintBytes_inj hcells hg.cellCount_lt h1
  obtain rfl := uintBytes_inj hfr hgr h2
  obtain rfl := uintBytes_inj habsent hg.absent_lt h3
  obtain rfl := uintBytes_inj hbody hg.bodySize_lt h4
  exact ⟨rfl, t4⟩

/-! ## Records that are read from what was written -/

section
variable {L : Layout} {size : Nat} {rest : List UInt8}

mutual

/-- Where the frames from `index` on spell the records of a tree, and unfold to it, the tree is in
normal form. -/
theorem normal_of_aligned (hL : L.Valid) (hsize : L.frames.length < 256 ^ size) :
    ∀ (index : Nat) (c : Cell) (post : List UInt8),
    index + c.size ≤ L.frames.length → Bag.tree L.records index = c →
      (L.frames.drop index).flatMap (Frame.toBytes size) ++ rest =
        (records index c).flatMap (Record.toBytes size) ++ post →
      c.Normal ∧ (L.frames.drop (index + c.size)).flatMap (Frame.toBytes size) ++ rest = post
  | index, .node data bitLen refs, post => by
    intro hle htree hbytes
    rw [Cell.size] at hle ⊢
    have hlt : index < L.frames.length := by omega
    have hf : L.frames[index]? = some L.frames[index] := List.getElem?_eq_getElem hlt
    generalize L.frames[index] = f at hf
    have hnode := hL.readNode hf
    have hvalid := hL.frames.get hf
    rw [htree] at hnode
    rw [hL.tree_node hf, Cell.node.injEq] at htree
    obtain ⟨rfl, rfl, hrefs⟩ := htree
    have hdrop : L.frames.drop index = f :: L.frames.drop (index + 1) := by
      obtain ⟨hlt, rfl⟩ := List.getElem?_eq_some_iff.1 hf
      exact List.drop_eq_getElem_cons hlt
    rw [hdrop, records, List.flatMap_cons, List.flatMap_cons, ← Record.toBytes_frame] at hbytes
    simp only [Frame.toBytes, List.append_assoc, List.cons_append, List.cons.injEq] at hbytes
    obtain ⟨-, hd2, hbytes⟩ := hbytes
    have hlen : f.record.data.length = byteCount f.record.bitLen := by
      let r : Record := ⟨f.record.data, f.record.bitLen, subtreeIndices (index + 1) refs⟩
      have hnat : f.d2.toNat = f.record.bitLen / 8 + byteCount f.record.bitLen :=
        (congrArg UInt8.toNat hd2).trans (r.toNat_d2 hnode.bitLen_le)
      rw [hvalid.record_spec.1, hvalid.dataLength, hnat]
      unfold byteCount
      omega
    obtain ⟨-, hrefBytes⟩ := List.append_inj hbytes
      (by rw [← hvalid.record_spec.1]; exact (length_taggedData ..).symm)
    have hcount : f.refs.length = (subtreeIndices (index + 1) refs).length := by
      rw [length_subtreeIndices, ← hrefs, List.length_map]
    obtain ⟨hspelled, hrest⟩ := List.append_inj hrefBytes (by
      rw [length_flatMap_uintBytes, length_flatMap_uintBytes, hcount]
      rfl)
    have htargets : f.refs = subtreeIndices (index + 1) refs := by
      refine flatMap_uintBytes_inj hcount (fun t ht => ?_) (fun t ht => ?_) hspelled
      · exact Nat.lt_trans (hvalid.forward t ht).2 hsize
      · have := (mem_subtreeIndices ht).2
        omega
    rw [htargets] at hrefs
    obtain ⟨hall, hpost⟩ :=
      normalAll_of_aligned hL hsize (index + 1) refs post (by omega) hrefs hrest
    refine ⟨⟨hnode.normalNode_iff.2 hlen, hall⟩, ?_⟩
    rwa [← Nat.add_assoc, Nat.add_right_comm]

theorem normalAll_of_aligned (hL : L.Valid) (hsize : L.frames.length < 256 ^ size) :
    ∀ (index : Nat) (cs : List Cell) (post : List UInt8),
    index + Cell.sizeAll cs ≤ L.frames.length →
      (subtreeIndices index cs).map (Bag.tree L.records) = cs →
      (L.frames.drop index).flatMap (Frame.toBytes size) ++ rest =
        (recordsAll index cs).flatMap (Record.toBytes size) ++ post →
      Cell.NormalAll cs ∧
        (L.frames.drop (index + Cell.sizeAll cs)).flatMap (Frame.toBytes size) ++ rest = post
  | index, [], post => fun _ _ h => ⟨trivial, h⟩
  | index, c :: cs, post => by
    intro hle htree hbytes
    rw [Cell.sizeAll] at hle ⊢
    rw [subtreeIndices, List.map_cons, List.cons.injEq] at htree
    rw [recordsAll, List.flatMap_append, List.append_assoc] at hbytes
    obtain ⟨hc, hrest⟩ := normal_of_aligned hL hsize index c _ (by omega) htree.1 hbytes
    obtain ⟨hcs, hpost⟩ :=
      normalAll_of_aligned hL hsize (index + c.size) cs post (by omega) htree.2 hrest
    exact ⟨⟨hc, hcs⟩, by rwa [← Nat.add_assoc]⟩

end

end

/-! ## Bags that are read again -/

theorem size_of_flag : ∀ width, width ≤ 8 → 0 < (UInt8.ofNat width &&& 0x07).toNat →
    (UInt8.ofNat width &&& 0x07).toNat ≤ 4 → (UInt8.ofNat width &&& 0x07).toNat = width := by
  decide

/-- The header of the bag that is written for a cell. -/
def headerOf (c : Cell) : Fields where
  flags := UInt8.ofNat (byteWidth (records 0 c).length)
  offsetSize := UInt8.ofNat (byteWidth ((records 0 c).flatMap
    (Record.toBytes (byteWidth (records 0 c).length))).length)
  cellCount := (records 0 c).length
  rootCount := 1
  absent := 0
  bodySize := ((records 0 c).flatMap (Record.toBytes (byteWidth (records 0 c).length))).length

section
variable {c : Cell}

theorem flags_headerOf (hlt : c.size < 2 ^ 32) :
    (headerOf c).size = byteWidth (records 0 c).length ∧ (headerOf c).header.hasIndex = false ∧
      (headerOf c).header.hasChecksum = false := by
  have h := flagByte_spec _ ((byteWidth_records_le (by decide)).2 hlt) false false
  rwa [flagByte_plain] at h

theorem valid_headerOf (hlt : c.size < 2 ^ 32) (hc : ∀ d, c.Descends d → d.ReadNode) :
    (headerOf c).Valid ∧ c.toBag = (headerOf c).toBytes ++
      (uintBytes (headerOf c).size 0 ++
        (records 0 c).flatMap (Record.toBytes (headerOf c).size)) := by
  have hsize := (flags_headerOf hlt).1
  have hoffset := byteWidth_body_le hlt fun r hr => by
    obtain ⟨d, hd, hdata, hbits, hrefs⟩ := mem_records 0 c hr
    have hnode := hc d hd
    rw [hdata, hrefs]
    exact ⟨hnode.length_data, hnode.refs_le⟩
  have hoffsetSize : (headerOf c).offsetSize.toNat = byteWidth (headerOf c).bodySize :=
    UInt8.toNat_ofNat_of_lt' (Nat.lt_of_le_of_lt hoffset (by decide))
  refine ⟨⟨?_, ?_, ?_, ?_, ?_, Nat.one_pos, ?_, Nat.pow_pos (by decide), ?_⟩, ?_⟩
  · rw [hsize]
    exact byteWidth_pos _
  · rw [hsize]
    exact (byteWidth_records_le (by decide)).2 hlt
  · rw [hoffsetSize]
    exact byteWidth_pos _
  · rw [hoffsetSize]
    exact hoffset
  · rw [hsize]
    exact lt_pow_byteWidth _
  · show 1 ≤ (records 0 c).length
    rw [length_records]
    exact size_pos c
  · rw [hoffsetSize]
    exact lt_pow_byteWidth _
  · rw [Fields.toBytes, hsize, hoffsetSize]
    simp only [Cell.toBag, ofRecords, List.append_assoc, List.cons_append, List.nil_append]
    rfl

end

/-- A width is written to the low bits of the flags, so that no width above four is read. -/
theorem size_lt_of_toBag_eq {L : Layout} {c : Cell} {rest : List UInt8} (hL : L.Valid)
    (hsize : c.size < wordLimit) (hbytes : c.toBag = L.toBytes ++ rest) : c.size < 2 ^ 32 := by
  have hwidth : byteWidth (records 0 c).length ≤ 8 := (byteWidth_records_le (by decide)).2 hsize
  have hflags : L.flags = UInt8.ofNat (byteWidth (records 0 c).length) := by
    obtain ⟨tail, htail⟩ : ∃ tail, c.toBag =
        magic ++ (UInt8.ofNat (byteWidth (records 0 c).length) :: tail) := by
      simp only [Cell.toBag, ofRecords, List.append_assoc, List.cons_append]
      exact ⟨_, rfl⟩
    obtain ⟨tail', htail'⟩ : ∃ tail', L.toBytes ++ rest = magic ++ (L.flags :: tail') := by
      simp only [Layout.toBytes, Layout.front, Fields.toBytes, List.append_assoc,
        List.cons_append]
      exact ⟨_, rfl⟩
    rw [htail, htail'] at hbytes
    exact (List.cons.inj (List.append_inj hbytes rfl).2).1.symm
  have hpos : 0 < (L.flags &&& 0x07).toNat := hL.fields.size_pos
  have hle : (L.flags &&& 0x07).toNat ≤ 4 := hL.fields.size_le
  rw [hflags] at hpos hle
  rw [size_of_flag _ hwidth hpos hle] at hle
  exact (byteWidth_records_le (by decide)).1 hle

/-- A written bag that is read as the same cell is that of a cell in normal form. -/
theorem normal_of_read_toBag {c : Cell} (hsize : c.size < wordLimit) (h : read c.toBag = .ok c) :
    c.Normal ∧ c.size < 2 ^ 32 := by
  obtain ⟨L, rest, hL, hroot, hbytes, htree⟩ := read_eq_ok_iff.1 h
  have hnodes : ∀ d, c.Descends d → d.ReadNode := fun d hd =>
    hL.readNode_of_descends hroot (htree ▸ hd)
  have hlt := size_lt_of_toBag_eq hL hsize hbytes
  obtain ⟨hsizes, hindex, hsum⟩ := flags_headerOf hlt
  obtain ⟨hheader, hbag⟩ := valid_headerOf hlt hnodes
  have hsplit : L.fields.toBytes ++ (L.roots.flatMap (uintBytes L.size) ++ (L.index ++ (L.body ++
      ((if L.fields.header.hasChecksum then Crc32c.trailer L.front else []) ++ rest)))) =
        (headerOf c).toBytes ++ (uintBytes (headerOf c).size 0 ++
          (records 0 c).flatMap (Record.toBytes (headerOf c).size)) := by
    rw [← hbag, hbytes]
    simp only [Layout.toBytes, Layout.front, List.append_assoc]
  obtain ⟨hfields, htail⟩ := Fields.toBytes_inj hL.fields hheader hsplit
  rw [hfields, hsum, if_neg Bool.false_ne_true, List.nil_append] at htail
  have hcount : L.frames.length = c.size :=
    (congrArg Fields.cellCount hfields).trans (length_records 0 c)
  have hsize' : L.size = (headerOf c).size := congrArg Fields.size hfields
  obtain ⟨root, hroots⟩ := List.length_eq_one_iff.1 (congrArg Fields.rootCount hfields)
  have hempty : L.index = [] := by
    have hlen := hL.index_length
    rw [hfields, hindex] at hlen
    exact List.length_eq_zero_iff.1 hlen
  rw [hroots, hempty, List.flatMap_singleton, List.nil_append, hsize'] at htail
  obtain ⟨hfirst, hbody⟩ := List.append_inj htail (by rw [length_uintBytes, length_uintBytes])
  have hroot0 : L.root = 0 := by
    rw [Layout.root, hroots]
    refine uintBytes_inj ?_ (Nat.pow_pos (by decide)) hfirst
    rw [← hsize']
    exact hL.roots_lt root (hroots ▸ List.mem_cons_self)
  have hspelled : (L.frames.drop 0).flatMap (Frame.toBytes (headerOf c).size) ++ rest =
      (records 0 c).flatMap (Record.toBytes (headerOf c).size) ++ [] := by
    rw [List.drop_zero, List.append_nil, ← hbody, ← hsize']
    rfl
  have hcells : L.frames.length < 256 ^ (headerOf c).size := hsize' ▸ hL.fields.cellCount_lt
  have htree0 : Bag.tree L.records 0 = c := hroot0 ▸ htree
  exact ⟨(normal_of_aligned hL hcells 0 c [] (by omega) htree0 hspelled).1, hlt⟩

theorem read_toBag_iff {c : Cell} (hsize : c.size < wordLimit) :
    read c.toBag = .ok c ↔ c.Normal ∧ c.size < 2 ^ 32 := by
  refine ⟨normal_of_read_toBag hsize, fun hc => ?_⟩
  have h := read_toBag hc.1 hc.2 []
  rwa [List.append_nil] at h

/-! ## Normal form -/

/-- The frames within reach of the first root have other bits than the tag in their last byte. -/
def Layout.TagsJoined (L : Layout) : Prop :=
  ∀ index f, Reaches L.records L.root index → L.frames[index]? = some f → ¬ f.LoneTag

/-- What is read is in normal form up to a surplus byte in the nodes whose tag stood alone.  Where
there is none, the node equals every other with its bits and references, read or built, and the tree
is read again from its bag. -/
theorem ofBag_normal_form (bytes : List UInt8) (c : Cell) (h : Cell.ofBag bytes = .ok c) :
    (∃ (L : Layout) (rest : List UInt8), L.Valid ∧ bytes = L.toBytes ++ rest ∧ c = L.tree ∧
      (c.Normal ↔ L.TagsJoined)) ∧
    (∀ d, c.Descends d → d.ReadNode) ∧
    (∀ d, ((∃ bytes', Cell.ofBag bytes' = .ok d) ∨ ∃ ops, d = (Builder.ofOps ops).build) →
      c.bits = d.bits → c.refs = d.refs →
        (c = d ↔ (c.NormalNode ↔ d.NormalNode)) ∧
          (c.NormalNode → d.NormalNode → c.hash = d.hash)) ∧
    (c.size < wordLimit → (Cell.ofBag c.toBag = .ok c ↔ c.Normal ∧ c.size < 2 ^ 32)) := by
  have hread : ∀ {bytes : List UInt8} {c : Cell}, Cell.ofBag bytes = .ok c ↔
      read bytes = .ok c := by
    intro bytes c
    unfold Cell.ofBag
    cases read bytes with
    | error e => exact iff_of_false nofun nofun
    | ok c' =>
      show Except.ok c' = _ ↔ _
      rw [Except.ok.injEq, Except.ok.injEq]
  have hnodes : ∀ {bytes : List UInt8} {c : Cell}, Cell.ofBag bytes = .ok c →
      ∀ d, c.Descends d → d.ReadNode := by
    intro bytes c h
    obtain ⟨L, rest, hL, hroot, -, rfl⟩ := read_eq_ok_iff.1 (hread.1 h)
    exact fun d hd => hL.readNode_of_descends hroot hd
  refine ⟨?_, hnodes h, fun d hd hbits hrefs => ?_, fun hsize => ?_⟩
  · obtain ⟨L, rest, hL, hroot, hbytes, htree⟩ := read_eq_ok_iff.1 (hread.1 h)
    exact ⟨L, rest, hL, hbytes, htree.symm, htree ▸ hL.normal_tree_iff hroot⟩
  · have hc := hnodes h c (.refl c)
    have hd : d.ReadNode := by
      rcases hd with ⟨bytes', h'⟩ | ⟨ops, rfl⟩
      · exact hnodes h' d (.refl d)
      · exact (Builder.normalNode_build ops).readNode
    have hiff := hc.eq_iff hd hbits hrefs
    exact ⟨hiff, fun h1 h2 => congrArg Cell.hash (hiff.2 (iff_of_true h1 h2))⟩
  · rw [hread]
    exact read_toBag_iff hsize

/-- A bag of one cell without bits, its tag in a byte of its own. -/
def loneTag : List UInt8 := magic ++ [1, 1, 1, 1, 0, 3, 0, 0x00, 0x01, 0x80]

theorem not_normal_surplus : ¬ Cell.Normal (.node [0] 0 []) := fun h => by
  have hlen := h.1.1
  cases hlen

theorem ofBag_normal_form_loneTag :
    Cell.ofBag (Cell.toBag (.node [0] 0 [])) ≠ .ok (.node [0] 0 []) := by
  intro h
  obtain ⟨-, -, -, hwritten⟩ := ofBag_normal_form loneTag (.node [0] 0 []) rfl
  exact not_normal_surplus ((hwritten (by decide)).1 h).1

/-- The cell of this bag holds the bits of the empty cell, is not equal to it, and is not read again
from its own bag. -/
theorem ofBag_loneTag_not_empty :
    Cell.ofBag loneTag = .ok (.node [0] 0 []) ∧ ¬ Cell.Normal (.node [0] 0 []) ∧
      Cell.bits (.node [0] 0 []) = Cell.empty.bits ∧ Cell.node [0] 0 [] ≠ .empty ∧
      Cell.ofBag (Cell.toBag (.node [0] 0 [])) = .error (.invalidBag .bodySize) :=
  ⟨rfl, not_normal_surplus, rfl, by decide, rfl⟩

end CellAbi.Bag
