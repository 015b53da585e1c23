import CellAbi.Proofs.Packing

/-!
# Descendants

A property of all nodes of a tree is a property of all its descendants, the tree itself among them.

    c.Normal ↔ ∀ d, c.Descends d → d.NormalNode                                    (`normal_iff`)
-/

namespace CellAbi.Cell

/-- The second cell is the first one or hangs below it. -/
inductive Descends : Cell → Cell → Prop
  | refl (c : Cell) : Descends c c
  | child {c d e : Cell} : d ∈ c.refs → Descends d e → Descends c e

theorem normalAll_iff {cs : List Cell} : NormalAll cs ↔ ∀ c ∈ cs, c.Normal := by
  induction cs with
  | nil => exact ⟨nofun, fun _ => trivial⟩
  | cons c cs ih => rw [NormalAll, ih, List.forall_mem_cons]

theorem Normal.descends {c d : Cell} (h : c.Normal) (hd : Descends c d) : d.NormalNode := by
  induction hd with
  | refl c =>
    cases c
    exact h.1
  | @child c d e hmem _ ih =>
    cases c
    exact ih (normalAll_iff.1 h.2 d hmem)

mutual

theorem normal_of_descends : ∀ c : Cell, (∀ d, Descends c d → d.NormalNode) → c.Normal
  | .node _ _ refs => fun h =>
    ⟨h _ (.refl _), normalAll_of_descends refs fun _ hc d hd => h d (.child hc hd)⟩

theorem normalAll_of_descends : ∀ cs : List Cell,
    (∀ c ∈ cs, ∀ d, Descends c d → d.NormalNode) → NormalAll cs
  | [] => fun _ => trivial
  | c :: cs => fun h => ⟨normal_of_descends c (h c List.mem_cons_self),
    normalAll_of_descends cs fun d hd => h d (List.mem_cons_of_mem _ hd)⟩

end

theorem normal_iff {c : Cell} : c.Normal ↔ ∀ d, Descends c d → d.NormalNode :=
  ⟨fun h _ hd => h.descends hd, normal_of_descends c⟩

theorem NormalNode.packed {c : Cell} (h : c.NormalNode) : Bits.Packed c.data c.bitLen :=
  ⟨h.1, h.2.1⟩

end CellAbi.Cell
