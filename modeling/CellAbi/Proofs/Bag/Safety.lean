import CellAbi.Proofs.Bag.Guarded

/-!
# Hostile bags

Whatever the bytes of a bag are, reading them on a machine meets no fault: no operation wraps around
or loses bits, and no list is laid out for more elements than there are bytes.  The checks for sizes
beyond a machine word and for slots that are not filled yet never fail.
-/

namespace CellAbi.Bag

namespace Guarded

variable {input rest : List UInt8} {α : Type}

/-! ## Contents -/

/-- Reading the records and going on from there. -/
theorem body_follows (hinput : input.length < 2 ^ 62) (hrest : rest <:+ input) {h : Header}
    (hsize : h.size ≤ 4) (hroom : Cell.maxRefs ≤ input.length) (hcells : h.cellCount ≤ input.length)
    (hbody : h.bodySize ≤ input.length) {gnext : List Record → Scan α}
    {rnext : List Record × Nat → Read α}
    (hnext : ∀ records mid, mid <:+ input →
      FollowsAt input (gnext records) (rnext (records, mid.length)) mid) :
    FollowsAt input (body input h >>= gnext) (readBody input.length h >>= rnext) rest := by
  have hle := hrest.length_le
  have hword : input.length - rest.length + h.bodySize < wordLimit := by
    unfold wordLimit
    omega
  unfold body readBody
  simp only [bind_assoc, pure_bind]
  refine .get_left (.get_right ?_)
  refine (check_follows hrest (.inl (decide_eq_true hword))).bind fun _ mid hrest hcheck => ?_
  obtain rfl := (Read.run_check.1 hcheck).2
  refine .exactly (room_eq hcells) ?_
  refine (records_follows hinput hrest hsize hroom 0 _).bind fun records mid hmid _ => ?_
  have hend : (input.length - mid.length == input.length - rest.length + h.bodySize) =
      (mid.length + h.bodySize == rest.length) := by
    have := hmid.length_le
    rw [Bool.eq_iff_iff, beq_iff_eq, beq_iff_eq]
    omega
  refine .get_left (.get_right ?_)
  rw [hend]
  refine (check_follows hmid (.inr (by trivial))).bind fun _ last hlast hcheck => ?_
  obtain rfl := (Read.run_check.1 hcheck).2
  exact hnext records mid hlast

theorem contents_follows (hinput : input.length < 2 ^ 62) :
    FollowsAt input (contents input) (readContents input) input := by
  unfold contents readContents
  refine (header_follows hinput (List.suffix_refl _)).bind fun h mid hrest hheader => ?_
  obtain ⟨f, hf, ⟨hcells, -, hbody⟩, rfl, hbytes⟩ := run_header.1 hheader
  have hle := hrest.length_le
  have hroom : Cell.maxRefs ≤ input.length := by
    rw [hbytes]
    simp only [Fields.toBytes, List.length_append, show magic.length = 4 from rfl]
    show 4 ≤ _
    omega
  have hcount : f.cellCount * 2 ≤ input.length := Nat.le_trans hcells hle
  have hindex : f.cellCount * f.offsetSize.toNat < 2 ^ 62 := by
    have hlt : f.cellCount < 256 ^ 4 := Nat.lt_of_lt_of_le hf.cellCount_lt
      (Nat.pow_le_pow_right (by decide) hf.size_le)
    have hmul := Nat.mul_le_mul (Nat.le_of_lt hlt) hf.offsetSize_le
    omega
  have hroots := hf.rootCount_le
  refine .exactly (room_eq (show f.rootCount ≤ _ by omega)) ?_
  refine (roots_follows hinput hrest hf.size_le _).bind fun roots _ hrest _ => ?_
  refine (index_follows hinput hrest hindex).bind fun _ _ hrest _ => ?_
  refine body_follows hinput hrest hf.size_le hroom (show f.cellCount ≤ _ by omega)
    (Nat.le_trans hbody hle) fun records last hlast => ?_
  exact (checksum_follows hinput hlast f.header).bind fun _ _ hrest _ => .pure hrest _

/-! ## Cells -/

/-- The slots when the records from `index` on had their turn. -/
def slotsFrom (rs : List Record) (index : Nat) : List (Option Cell) :=
  (List.range rs.length).map fun i => if index ≤ i then some (tree rs i) else none

theorem getElem?_slotsFrom {rs : List Record} {index i : Nat} (hi : i < rs.length) :
    (slotsFrom rs index)[i]? = some (if index ≤ i then some (tree rs i) else none) := by
  rw [slotsFrom, List.getElem?_map, List.getElem?_range hi]
  rfl

theorem length_slotsFrom (rs : List Record) (index : Nat) :
    (slotsFrom rs index).length = rs.length := by
  rw [slotsFrom, List.length_map, List.length_range]

theorem filled_slotsFrom {rs : List Record} {index i : Nat} (h : index ≤ i) (e : BagError) :
    filled (slotsFrom rs index) i e = if i < rs.length then .ok (tree rs i) else .error e := by
  unfold filled
  by_cases hi : i < rs.length
  · rw [getElem?_slotsFrom hi, if_pos h, if_pos hi]
  · rw [List.getElem?_eq_none (by rw [length_slotsFrom]; omega), if_neg hi]

/-- References lead forward, so the slots they need are filled when a record has its turn. -/
theorem fill_eq {rs : List Record} (hfwd : Forward rs) {index : Nat} {r : Record}
    (hr : rs[index]? = some r) :
    fill r index (slotsFrom rs (index + 1)) = .ok (slotsFrom rs index) := by
  have hchildren : (r.refs.mapM fun target =>
      filled (slotsFrom rs (index + 1)) target (.danglingReference target)) =
      .ok (r.refs.map (tree rs)) := by
    refine Outcome.mapM_eq_ok fun target ht => ?_
    obtain ⟨hlt, hcount⟩ := hfwd index r hr target ht
    rw [filled_slotsFrom (Nat.succ_le_of_lt hlt), if_pos hcount]
  unfold fill
  rw [Outcome.bind_of_ok hchildren, ← tree_eq hr fun target ht => (hfwd index r hr target ht).1]
  refine congrArg Except.ok (List.ext_getElem? fun i => ?_)
  rw [List.getElem?_set, length_slotsFrom]
  by_cases hi : i < rs.length
  · rw [getElem?_slotsFrom hi, getElem?_slotsFrom hi]
    by_cases heq : index = i
    · rw [if_pos heq, if_pos (heq ▸ hi), if_pos (Nat.le_of_eq heq), heq]
    · have hiff : index + 1 ≤ i ↔ index ≤ i := by omega
      simp only [if_neg heq, hiff]
  · have hnone (k : Nat) : (slotsFrom rs k)[i]? = none :=
      List.getElem?_eq_none (by rw [length_slotsFrom]; omega)
    rw [hnone, hnone, if_neg (by rintro rfl; exact hi (List.getElem?_eq_some_iff.1 hr).1)]

/-- From the last record back, every slot is filled with the unfolding of its record. -/
theorem foldrM_fill {all rs : List Record} (hfwd : Forward all) {index : Nat}
    (h : all.drop index = rs) :
    (rs.zipIdx index).foldrM (fun (r, index) slots => fill r index slots)
      (List.replicate all.length none) = .ok (slotsFrom all index) := by
  -- The fold goes through the records behind first: when a record has its turn, their slots, which
  -- are all that it refers to, are filled.
  induction rs generalizing index with
  | nil =>
    have hlen : all.length ≤ index := List.drop_eq_nil_iff.1 h
    refine congrArg Except.ok (List.ext_getElem? fun i => ?_)
    by_cases hi : i < all.length
    · rw [getElem?_slotsFrom hi, List.getElem?_replicate_of_lt hi, if_neg (by omega)]
    · rw [List.getElem?_eq_none (by rw [List.length_replicate]; omega),
        List.getElem?_eq_none (by rw [length_slotsFrom]; omega)]
  | cons r rs ih =>
    have hr : all[index]? = some r := by
      rw [← Nat.add_zero index, ← List.getElem?_drop, h, List.getElem?_cons_zero]
    have hrest : all.drop (index + 1) = rs := by
      rw [← List.drop_drop, h, List.drop_one, List.tail_cons]
    rw [List.zipIdx_cons, List.foldrM_cons, ih hrest]
    exact fill_eq hfwd hr

theorem build_eq {rs : List Record} (hfwd : Forward rs) : build rs = .ok (slotsFrom rs 0) :=
  foldrM_fill hfwd (List.drop_zero ..)

/-! ## Whole bags -/

/-- Reading on a machine has the outcome of reading, and its errors are those that bytes can cause.
-/
theorem read_eq (hinput : input.length < 2 ^ 62) :
    Guarded.read input = (Bag.read input).mapError .refused ∧
      ∀ e, Bag.read input = .error e → e.Reachable := by
  have hfollows := contents_follows hinput
  unfold FollowsAt at hfollows
  rw [Nat.sub_self] at hfollows
  cases hrun : (readContents input).run input with
  | error e =>
    rw [hrun] at hfollows
    obtain ⟨hreach, hcontents⟩ := hfollows
    have hread : Bag.read input = .error e := by
      rw [Bag.read_eq, hrun]
      rfl
    unfold read
    rw [hcontents, hread]
    exact ⟨rfl, fun _ h => Except.error.inj h ▸ hreach⟩
  | ok out =>
    obtain ⟨⟨roots, records⟩, last⟩ := out
    rw [hrun] at hfollows
    obtain ⟨-, hcontents⟩ := hfollows
    obtain ⟨L, hL, hbytes, rfl, rfl⟩ := Layout.run_readContents_iff.1 hrun
    have hroom : L.records.length ≤ input.length := by
      have hbody := hL.body_le.1
      rw [hbytes, Layout.records, List.length_map]
      simp only [Layout.toBytes, Layout.front, List.length_append]
      omega
    have hread := read_of_run hrun hL.forward_records
    unfold read
    rw [hcontents]
    refine ⟨(Outcome.bind_of_ok (room_eq hroom) _).trans ?_, fun e herror => ?_⟩
    · rw [build_eq hL.forward_records, hread]
      exact congrArg (Except.mapError Stop.refused) (filled_slotsFrom (Nat.zero_le _) _)
    · rw [hread] at herror
      split at herror
      · cases herror
      · exact Except.error.inj herror ▸ trivial

end Guarded

/-- Reading bytes of any content on a machine has the result of reading them in unbounded numbers:
no operation is out of the range of its type, no shift is too far, and no list is laid out for more
elements than there are bytes.  Three errors never occur, and no cell of an accepted bag has more
bits than a cell may have. -/
theorem read_faultless (input : List UInt8) (h : input.length < 2 ^ 62) :
    Guarded.read input = (read input).mapError .refused ∧
      read input ≠ .error .indexOverflow ∧ read input ≠ .error .bodyOverflow ∧
      (∀ target, read input ≠ .error (.danglingReference target)) ∧
      ∀ c d, read input = .ok c → c.Descends d → d.bitLen ≤ 1023 := by
  obtain ⟨hread, hreach⟩ := Guarded.read_eq h
  refine ⟨hread, hreach _, hreach _, fun target => hreach _, fun c d hc hd => ?_⟩
  obtain ⟨L, rest, hL, hroot, -, rfl⟩ := read_eq_ok_iff.1 hc
  exact (hL.readNode_of_descends hroot hd).bitLen_le

/-- A cell with one reference, and a header that announces more cells than there are bytes. -/
theorem read_faultless_extremes :
    (Cell.node [0xFF] 8 [.empty]).toBag.length < 2 ^ 62 ∧
      (magic ++ [1, 8, 0xFF, 1, 0, 0, 0, 0, 0, 0, 0, 0, 0, 0]).length < 2 ^ 62 ∧
      Guarded.read (Cell.node [0xFF] 8 [.empty]).toBag = .ok (.node [0xFF] 8 [.empty]) ∧
      Guarded.read (magic ++ [1, 8, 0xFF, 1, 0, 0, 0, 0, 0, 0, 0, 0, 0, 0]) =
        .error (.refused .countsExceedData) := by
  refine ⟨by decide, by decide, ?_, ?_⟩
  · exact (read_faultless (Cell.node [0xFF] 8 [.empty]).toBag (by decide)).1.trans rfl
  · exact (read_faultless (magic ++ _) (by decide)).1.trans rfl

end CellAbi.Bag
