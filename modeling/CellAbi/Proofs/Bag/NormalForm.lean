import CellAbi.Proofs.Bag.Preorder
import CellAbi.Proofs.Building

/-!
# Cells as read

A cell read from a bag is in normal form, except where a completion tag stood alone in the last
byte: there the cleared byte stays.  Such cells hold the same bits as others and differ from them.

    c.Normal ↔ no reachable frame has a lone tag                               (`normal_tree_iff`)
    c = d ↔ (c.NormalNode ↔ d.NormalNode)     for cells with equal bits and references (`eq_iff`)
    read c.toBag = .ok c ↔ c.Normal ∧ c.size < 2 ^ 32                         (`read_toBag_iff`)
-/

namespace CellAbi

open Bits

namespace Cell

/-! ## Nodes as read -/

/-- A node as reading leaves it: in normal form, or with one clear byte more behind full bytes. -/
structure ReadNode (c : Cell) : Prop where
  length : c.data.length = byteCount c.bitLen ∨
    c.bitLen % 8 = 0 ∧ c.data.length = byteCount c.bitLen + 1
  clear : ∀ i, c.bitLen ≤ i → get c.data i = false
  bitLen_le : c.bitLen ≤ maxBits
  refs_le : c.refs.length ≤ maxRefs

theorem NormalNode.readNode {c : Cell} (h : c.NormalNode) : c.ReadNode :=
  ⟨.inl h.1, h.2.1, h.2.2.1, h.2.2.2⟩

theorem ReadNode.normalNode_iff {c : Cell} (h : c.ReadNode) :
    c.NormalNode ↔ c.data.length = byteCount c.bitLen :=
  ⟨fun hc => hc.1, fun hlen => ⟨hlen, h.clear, h.bitLen_le, h.refs_le⟩⟩

theorem ReadNode.length_data {c : Cell} (h : c.ReadNode) : c.data.length ≤ 129 := by
  have hlen := h.length
  have hle : c.bitLen ≤ 1023 := h.bitLen_le
  unfold byteCount at hlen
  omega

theorem ReadNode.length_bits {c : Cell} (h : c.ReadNode) :
    c.bits.length = c.bitLen ∧ c.bitLen ≤ 8 * c.data.length := by
  have hle : c.bitLen ≤ 8 * c.data.length := by
    have hlen := h.length
    unfold byteCount at hlen
    omega
  refine ⟨?_, hle⟩
  rw [bits, List.length_take, length_ofBytes]
  omega

/-- Nodes with equal bits and references differ at most in a clear byte at the end. -/
theorem ReadNode.eq_iff {c d : Cell} (hc : c.ReadNode) (hd : d.ReadNode) (hbits : c.bits = d.bits)
    (hrefs : c.refs = d.refs) : c = d ↔ (c.NormalNode ↔ d.NormalNode) := by
  constructor
  · rintro rfl
    exact Iff.rfl
  · intro h
    obtain ⟨hlenc, hlec⟩ := hc.length_bits
    obtain ⟨hlend, hled⟩ := hd.length_bits
    have hn : c.bitLen = d.bitLen := by rw [← hlenc, ← hlend, hbits]
    have hlen : c.data.length = d.data.length := by
      rw [hc.normalNode_iff, hd.normalNode_iff, hn] at h
      have h1 := hc.length
      have h2 := hd.length
      rw [hn] at h1
      omega
    have hdata : c.data = d.data := by
      apply bytes_ext hlen
      intro i _
      by_cases hi : i < c.bitLen
      · have hget := getElem?_take_ofBytes hlec hi
        rw [show (ofBytes c.data).take c.bitLen = d.bits from hbits, bits,
          getElem?_take_ofBytes hled (hn ▸ hi)] at hget
        exact (Option.some.inj hget).symm
      · rw [hc.clear i (by omega), hd.clear i (by omega)]
    cases c
    cases d
    exact congr (congr (congrArg _ hdata) hn) hrefs

end Cell

namespace Bag

/-! ## Frames with a lone tag -/

/-- The completion tag is the only bit of the last data byte. -/
def Frame.LoneTag (f : Frame) : Prop := f.d2.toNat % 2 = 1 ∧ f.data.getLast? = some 0x80

instance (f : Frame) : Decidable f.LoneTag := inferInstanceAs (Decidable (_ ∧ _))

/-- What a valid frame stands for. -/
theorem Frame.Valid.record_spec {f : Frame} {count index : Nat} (h : f.Valid count index) :
    f.record.data.length = f.data.length ∧ f.record.bitLen ≤ Cell.maxBits ∧
      (∀ i, f.record.bitLen ≤ i → get f.record.data i = false) ∧
      f.record.data.length = byteCount f.record.bitLen + (if f.LoneTag then 1 else 0) ∧
      (f.LoneTag → f.record.bitLen % 8 = 0) := by
  have hd2 : f.d2.toNat < 256 := f.d2.toNat_lt
  have hlen := h.dataLength
  have hcontent := h.content
  unfold content? at hcontent
  by_cases hodd : f.d2.toNat % 2 = 1
  · rw [if_pos hodd] at hcontent
    obtain ⟨hsame, hlt, -, -, hpast, hget⟩ := stripTag?_spec hcontent
    obtain ⟨hcount, hfull⟩ := length_of_stripTag? hcontent
    refine ⟨hsame, ?_, fun i hi => ?_, ?_, fun hlone => hfull hlone.2⟩
    · show f.record.bitLen ≤ 1023
      omega
    · rw [hget]
      by_cases hn : i = f.record.bitLen
      · rw [decide_eq_false (not_not_intro hn), Bool.and_false]
      · rw [hpast i (by omega), Bool.false_and]
    · have hiff : f.LoneTag ↔ f.data.getLast? = some 0x80 := and_iff_right hodd
      simp only [hiff]
      exact hcount
  · rw [if_neg hodd, Option.some.injEq, Prod.mk.injEq] at hcontent
    obtain ⟨hdata, hbits⟩ := hcontent
    have hlone : ¬ f.LoneTag := fun hl => hodd hl.1
    rw [← hdata, ← hbits, if_neg hlone]
    refine ⟨rfl, ?_, fun i hi => get_of_length_le (by omega), ?_, fun hl => absurd hl hlone⟩
    · show f.data.length * 8 ≤ 1023
      omega
    · unfold byteCount
      omega

/-! ## Reachable records -/

/-- A chain of references leads from one record to another. -/
inductive Reaches (rs : List Record) : Nat → Nat → Prop
  | refl (index : Nat) : Reaches rs index index
  | step {index target last : Nat} {r : Record} : rs[index]? = some r → target ∈ r.refs →
      Reaches rs target last → Reaches rs index last

theorem Reaches.lt {rs : List Record} (hfwd : Forward rs) {index last : Nat}
    (h : Reaches rs index last) (hlt : index < rs.length) : last < rs.length := by
  induction h with
  | refl => exact hlt
  | step hr ht _ ih => exact ih (hfwd _ _ hr _ ht).2

theorem Reaches.descends {rs : List Record} (hfwd : Forward rs) {index last : Nat}
    (h : Reaches rs index last) : (tree rs index).Descends (tree rs last) := by
  induction h with
  | refl => exact .refl _
  | @step index target last r hr ht _ ih =>
    refine .child ?_ ih
    rw [tree_eq hr fun t ht => (hfwd _ _ hr t ht).1]
    exact List.mem_map_of_mem ht

/-- What hangs below an unfolding are the unfoldings of the records within reach. -/
theorem descends_tree {rs : List Record} (hfwd : Forward rs) {c d : Cell} (h : c.Descends d)
    {index : Nat} (hlt : index < rs.length) (hc : c = tree rs index) :
    ∃ last, Reaches rs index last ∧ d = tree rs last := by
  induction h generalizing index with
  | refl c => exact ⟨index, .refl index, hc⟩
  | @child c d e hmem _ ih =>
    have hr : rs[index]? = some rs[index] := List.getElem?_eq_getElem hlt
    rw [hc, tree_eq hr fun t ht => (hfwd _ _ hr t ht).1] at hmem
    obtain ⟨target, ht, rfl⟩ := List.mem_map.1 hmem
    obtain ⟨last, hreach, rfl⟩ := ih (hfwd _ _ hr target ht).2 rfl
    exact ⟨last, .step hr ht hreach, rfl⟩

namespace Layout

variable {L : Layout}

theorem Valid.tree_node (h : L.Valid) {index : Nat} {f : Frame} (hf : L.frames[index]? = some f) :
    Bag.tree L.records index =
      .node f.record.data f.record.bitLen (f.refs.map (Bag.tree L.records)) := by
  have hr : L.records[index]? = some f.record := by
    rw [records, List.getElem?_map, hf]
    rfl
  exact tree_eq hr fun target ht => (h.forward_records index _ hr target ht).1

theorem Valid.readNode (h : L.Valid) {index : Nat} {f : Frame} (hf : L.frames[index]? = some f) :
    (Bag.tree L.records index).ReadNode := by
  have hvalid := h.frames.get hf
  obtain ⟨-, hbits, hclear, hlen, hfull⟩ := hvalid.record_spec
  rw [h.tree_node hf]
  refine ⟨?_, hclear, hbits, ?_⟩
  · by_cases hlone : f.LoneTag
    · rw [if_pos hlone] at hlen
      exact .inr ⟨hfull hlone, hlen⟩
    · rw [if_neg hlone] at hlen
      exact .inl hlen
  · show (f.refs.map _).length ≤ _
    rw [List.length_map]
    exact hvalid.refCount_le

theorem Valid.normalNode_iff (h : L.Valid) {index : Nat} {f : Frame}
    (hf : L.frames[index]? = some f) :
    (Bag.tree L.records index).NormalNode ↔ ¬ f.LoneTag := by
  obtain ⟨-, -, -, hlen, -⟩ := (h.frames.get hf).record_spec
  rw [(h.readNode hf).normalNode_iff, h.tree_node hf]
  show f.record.data.length = byteCount f.record.bitLen ↔ _
  by_cases hlone : f.LoneTag
  · rw [if_pos hlone] at hlen
    exact iff_of_false (by omega) (not_not_intro hlone)
  · rw [if_neg hlone] at hlen
    exact iff_of_true hlen hlone

theorem Valid.readNode_of_descends (h : L.Valid) (hroot : L.root < L.frames.length) {d : Cell}
    (hd : L.tree.Descends d) : d.ReadNode := by
  have hlt : L.root < L.records.length := by rwa [records, List.length_map]
  obtain ⟨last, hreach, rfl⟩ := descends_tree h.forward_records hd hlt rfl
  have hlast := hreach.lt h.forward_records hlt
  rw [records, List.length_map] at hlast
  exact h.readNode (List.getElem?_eq_getElem hlast)

/-- The cell of a bag is in normal form where no frame within reach has a lone tag. -/
theorem Valid.normal_tree_iff (h : L.Valid) (hroot : L.root < L.frames.length) :
    L.tree.Normal ↔ ∀ index f, Reaches L.records L.root index → L.frames[index]? = some f →
      ¬ f.LoneTag := by
  have hlt : L.root < L.records.length := by rwa [records, List.length_map]
  rw [Cell.normal_iff]
  constructor
  · intro hnormal index f hreach hf
    exact (h.normalNode_iff hf).1 (hnormal _ (hreach.descends h.forward_records))
  · intro hlone d hd
    obtain ⟨last, hreach, rfl⟩ := descends_tree h.forward_records hd hlt rfl
    have hlast := hreach.lt h.forward_records hlt
    rw [records, List.length_map] at hlast
    have hf : L.frames[last]? = some L.frames[last] := List.getElem?_eq_getElem hlast
    exact (h.normalNode_iff hf).2 (hlone last _ hreach hf)

end Layout

end Bag

end CellAbi
