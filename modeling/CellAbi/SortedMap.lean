import CellAbi.Sorted

/-!
# Sorted maps

A finite map as its list of entries in strictly ascending order of keys.  A map is determined by
its entries, so two maps with the same content are equal.
-/

namespace CellAbi

structure SortedMap (κ α : Type) [Ord κ] where
  entries : List (κ × α)
  ascending : Sorted.Ascending entries

namespace SortedMap

variable {κ α : Type} [Ord κ]

/-- The map of some entries; of entries with one key the last counts. -/
def ofList [Std.TransOrd κ] (entries : List (κ × α)) : SortedMap κ α :=
  ⟨Sorted.ofList entries, Sorted.ascending_ofList entries⟩

theorem ext {m n : SortedMap κ α} (h : m.entries = n.entries) : m = n := by
  cases m; cases n; cases h; rfl

end SortedMap

end CellAbi
