import CellAbi.Cell.Bag
import CellAbi.Proofs.Outcome

/-!
# Unfolding of records

The records of a bag refer to one another by index, always forward.  `tree rs i` is the cell tree
below record `i`; a record that is referred to more than once becomes a subtree at every place.

    tree rs i = .node r.data r.bitLen (r.refs.map (tree rs))   for rs[i]? = some r      (`tree_eq`)

Building the records from the last one back gives all these trees (`assemble_eq`).
-/

namespace CellAbi.Bag

/-- The unfolding of record `index`.  References that do not lead forward are cut. -/
def tree (rs : List Record) (index : Nat) : Cell :=
  match _h : rs[index]? with
  | none => .empty
  | some r =>
    .node r.data r.bitLen
      (r.refs.map fun target => if index < target then tree rs target else .empty)
termination_by rs.length - index
decreasing_by
  have := (List.getElem?_eq_some_iff.1 _h).1
  omega

/-- Every reference leads to a later record. -/
def Forward (rs : List Record) : Prop :=
  ∀ i r, rs[i]? = some r → ∀ target ∈ r.refs, i < target ∧ target < rs.length

theorem tree_eq {rs : List Record} {index : Nat} {r : Record} (h : rs[index]? = some r)
    (hfwd : ∀ target ∈ r.refs, index < target) :
    tree rs index = .node r.data r.bitLen (r.refs.map (tree rs)) := by
  rw [tree]
  split
  · next h' => rw [h] at h'; cases h'
  · next r' h' =>
    rw [h, Option.some.injEq] at h'
    subst h'
    congr 1
    apply List.map_congr_left
    intro target ht
    rw [if_pos (hfwd target ht)]

/-- Building from the last record back yields the unfolding of every record. -/
theorem assemble_eq {all : List Record} (hfwd : Forward all) {index : Nat} {rs : List Record}
    (h : all.drop index = rs) :
    assemble index rs = .ok ((List.range' index rs.length).map (tree all)) := by
  induction rs generalizing index with
  | nil => rfl
  | cons r rs ih =>
    have hr : all[index]? = some r := by
      rw [← Nat.add_zero index, ← List.getElem?_drop, h, List.getElem?_cons_zero]
    have hrest : all.drop (index + 1) = rs := by
      rw [← List.drop_drop, h, List.drop_one, List.tail_cons]
    have hlen : all.length = index + 1 + rs.length := by
      have h1 := (List.getElem?_eq_some_iff.1 hr).1
      have h2 := congrArg List.length hrest
      rw [List.length_drop] at h2
      omega
    rw [assemble, ih hrest]
    simp only [bind, Except.bind]
    rw [Outcome.mapM_eq_ok (g := tree all)]
    · simp only [pure, Except.pure, List.length_cons, List.range'_succ, List.map_cons]
      rw [tree_eq hr fun target ht => (hfwd index r hr target ht).1]
    · intro target ht
      obtain ⟨h1, h2⟩ := hfwd index r hr target ht
      rw [List.getElem?_map, List.getElem?_range' (by omega)]
      simp only [Option.map_some, show index + 1 + 1 * (target - (index + 1)) = target by omega]

end CellAbi.Bag
