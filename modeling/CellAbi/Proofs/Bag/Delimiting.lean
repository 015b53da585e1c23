import Mathlib.Logic.ExistsUnique
import CellAbi.Proofs.Bag.Preorder
import CellAbi.Proofs.Outcome

/-!
# Where a bag ends

Reading a bag ends at its last byte, whatever stands behind it, so that no bag is the beginning of
another one.  A bag that is cut short is refused, and more bytes behind it change nothing.

    L.toBytes ++ rest = M.toBytes ++ rest' → rest = rest'                           (`rest_eq`)
    ofBag bytes = .ok c → ∃! k, k ≤ bytes.length ∧ Delimits (bytes.take k) c  (`ofBag_delimited`)
-/

namespace CellAbi.Bag

/-- The bytes are a bag of the cell from the first to the last one: they are not read when some of
them are missing, and they are read as the cell when others follow. -/
structure Delimits (front : List UInt8) (c : Cell) : Prop where
  truncated : ∀ bytes, bytes <+: front → bytes ≠ front → ∃ e, Cell.ofBag bytes = .error e
  extended : ∀ bytes, front <+: bytes → Cell.ofBag bytes = .ok c

variable {L M : Layout} {c d : Cell} {front bytes rest rest' : List UInt8}

theorem ofBag_eq_ok_iff : Cell.ofBag bytes = .ok c ↔ read bytes = .ok c :=
  Outcome.mapError_eq_ok

/-- Both layouts are read from the same bytes, and reading leaves one rest. -/
theorem Layout.Valid.rest_eq (hL : L.Valid) (hM : M.Valid)
    (h : L.toBytes ++ rest = M.toBytes ++ rest') : rest = rest' := by
  have hrunL : (readContents (L.toBytes ++ rest)).run (L.toBytes ++ rest) =
      .ok ((L.roots, L.records), rest) := Layout.run_readContents_iff.2 ⟨L, hL, rfl, rfl, rfl⟩
  have hrunM : (readContents (L.toBytes ++ rest)).run (L.toBytes ++ rest) =
      .ok ((M.roots, M.records), rest') := Layout.run_readContents_iff.2 ⟨M, hM, h, rfl, rfl⟩
  exact congrArg Prod.snd (Except.ok.inj (hrunL.symm.trans hrunM))

theorem Layout.Valid.delimits (hL : L.Valid) (hroot : L.root < L.frames.length) :
    Delimits L.toBytes L.tree where
  truncated bytes hprefix hne := by
    obtain ⟨missing, hmissing⟩ := hprefix
    cases hbag : Cell.ofBag bytes with
    | error e => exact ⟨e, rfl⟩
    | ok c =>
      obtain ⟨M, rest, hM, -, hbytes, -⟩ := read_eq_ok_iff.1 (ofBag_eq_ok_iff.1 hbag)
      have hsame : L.toBytes ++ [] = M.toBytes ++ (rest ++ missing) := by
        rw [List.append_nil, ← List.append_assoc, ← hbytes, hmissing]
      have hnil := (List.append_eq_nil_iff.1 (hL.rest_eq hM hsame).symm).2
      rw [hnil, List.append_nil] at hmissing
      exact absurd hmissing hne
  extended bytes hprefix := by
    obtain ⟨rest, hrest⟩ := hprefix
    exact ofBag_eq_ok_iff.2 (read_eq_ok_iff.2 ⟨L, rest, hL, hroot, hrest.symm, rfl⟩)

/-- No bag goes on where another one ends. -/
theorem Delimits.eq_of_prefix (h : Delimits front c) (h' : Delimits bytes d)
    (hfront : front <+: bytes) : front = bytes := by
  refine Classical.byContradiction fun hne => ?_
  obtain ⟨e, herror⟩ := h'.truncated front hfront hne
  cases (h.extended front (List.prefix_refl front)).symm.trans herror

/-- Of the fronts of some bytes, one alone can be a bag from the first to the last byte. -/
theorem Delimits.eq_of_fronts (h : Delimits front c) (h' : Delimits rest d)
    (hfront : front <+: bytes) (hrest : rest <+: bytes) : front = rest := by
  rcases Nat.le_total front.length rest.length with hle | hle
  · exact h.eq_of_prefix h' (List.prefix_of_prefix_length_le hfront hrest hle)
  · exact (h'.eq_of_prefix h (List.prefix_of_prefix_length_le hrest hfront hle)).symm

theorem delimits_toBag (hc : c.Normal) (hsize : c.size < 2 ^ 32) : Delimits c.toBag c := by
  have h := (written c hc hsize).valid_layout.delimits (written c hc hsize).root_lt_layout
  rwa [Standard.toBytes_layout, toBytes_written, Standard.tree_layout,
    show tree (written c hc hsize).records (written c hc hsize).root = c from
      tree_records 0 c [] (by rw [List.append_nil]; rfl)] at h

/-- Bytes that are read begin with a bag, which ends at one place only; and what is written for a
cell in normal form is such a bag up to its last byte. -/
theorem ofBag_delimited :
    (∀ bytes c, Cell.ofBag bytes = .ok c → ∃! k, k ≤ bytes.length ∧ Delimits (bytes.take k) c) ∧
      ∀ c : Cell, c.Normal → c.size < 2 ^ 32 → Delimits c.toBag c := by
  refine ⟨fun bytes c h => ?_, fun c hc hsize => delimits_toBag hc hsize⟩
  obtain ⟨L, rest, hL, hroot, rfl, rfl⟩ := read_eq_ok_iff.1 (ofBag_eq_ok_iff.1 h)
  have hfront := hL.delimits hroot
  refine ⟨L.toBytes.length, ⟨by rw [List.length_append]; omega, by rwa [List.take_left]⟩, ?_⟩
  rintro k ⟨hle, hk⟩
  have heq := hk.eq_of_fronts hfront (List.take_prefix k _) (List.prefix_append ..)
  rw [← heq, List.length_take, Nat.min_eq_left hle]

/-- The bag of two cells, with a byte behind it. -/
theorem ofBag_delimited_trailing :
    Cell.ofBag (Cell.toBag (.node [0xff] 8 [.empty]) ++ [0x2a]) = .ok (.node [0xff] 8 [.empty]) ∧
      (∃! k, k ≤ (Cell.toBag (.node [0xff] 8 [.empty]) ++ [0x2a]).length ∧
        Delimits ((Cell.toBag (.node [0xff] 8 [.empty]) ++ [0x2a]).take k)
          (.node [0xff] 8 [.empty])) ∧
      Delimits (Cell.toBag .empty) .empty := by
  have hempty : Cell.empty.Normal := ⟨⟨rfl, fun i _ => Bits.get_nil i, by decide, by decide⟩, trivial⟩
  have hread : Cell.ofBag (Cell.toBag (.node [0xff] 8 [.empty]) ++ [0x2a]) =
      .ok (.node [0xff] 8 [.empty]) := rfl
  exact ⟨hread, ofBag_delimited.1 _ _ hread, ofBag_delimited.2 _ hempty (by decide)⟩

end CellAbi.Bag
