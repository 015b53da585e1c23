/-!
# Sorted association lists

Entries in strictly ascending order of their keys.  JSON objects, tuple values and native maps are
kept this way, so that equal contents are equal lists.
-/

namespace CellAbi.Sorted

variable {κ : Type} {α : Type} [Ord κ]

/-- Puts an entry in its place; an entry with the same key is replaced. -/
def insert (key : κ) (value : α) : List (κ × α) → List (κ × α)
  | [] => [(key, value)]
  | (k, v) :: rest =>
    match compare key k with
    | .lt => (key, value) :: (k, v) :: rest
    | .eq => (key, value) :: rest
    | .gt => (k, v) :: insert key value rest

/-- The sorted list of some entries; of entries with one key the last counts. -/
def ofList (entries : List (κ × α)) : List (κ × α) :=
  entries.foldl (fun sorted (k, v) => insert k v sorted) []

def lookup (key : κ) (entries : List (κ × α)) : Option α :=
  (entries.find? fun (k, _) => compare key k == .eq).map Prod.snd

def erase (key : κ) (entries : List (κ × α)) : List (κ × α) :=
  entries.filter fun (k, _) => compare key k != .eq

/-- Keys strictly ascend. -/
def Ascending (entries : List (κ × α)) : Prop :=
  entries.Pairwise fun a b => compare a.1 b.1 = .lt

theorem mem_insert {key : κ} {value : α} {entries : List (κ × α)} {e : κ × α}
    (h : e ∈ insert key value entries) : e = (key, value) ∨ e ∈ entries := by
  induction entries with
  | nil => simpa [insert] using h
  | cons head rest ih =>
    obtain ⟨k, v⟩ := head
    simp only [insert] at h
    split at h
    · simpa using h
    · rcases List.mem_cons.1 h with h | h
      · exact .inl h
      · exact .inr (List.mem_cons_of_mem _ h)
    · rcases List.mem_cons.1 h with h | h
      · exact .inr (h ▸ List.mem_cons_self ..)
      · exact (ih h).imp id (List.mem_cons_of_mem _)

theorem ascending_insert [Std.TransOrd κ] (key : κ) (value : α) {entries : List (κ × α)}
    (h : Ascending entries) : Ascending (insert key value entries) := by
  induction entries with
  | nil => simp [insert, Ascending]
  | cons head rest ih =>
    obtain ⟨k, v⟩ := head
    rw [Ascending, List.pairwise_cons] at h
    simp only [insert]
    split
    · next hlt =>
      refine List.pairwise_cons.2 ⟨fun e he => ?_, List.pairwise_cons.2 h⟩
      rcases List.mem_cons.1 he with rfl | he
      · exact hlt
      · exact Std.TransCmp.lt_trans hlt (h.1 e he)
    · next heq =>
      refine List.pairwise_cons.2 ⟨fun e he => ?_, h.2⟩
      exact Std.TransCmp.lt_of_eq_of_lt heq (h.1 e he)
    · next hgt =>
      refine List.pairwise_cons.2 ⟨fun e he => ?_, ih h.2⟩
      rcases mem_insert he with rfl | he
      · exact Std.OrientedCmp.lt_of_gt hgt
      · exact h.1 e he

theorem ascending_ofList [Std.TransOrd κ] (entries : List (κ × α)) :
    Ascending (ofList entries) := by
  suffices ∀ start : List (κ × α), Ascending start →
      Ascending (entries.foldl (fun sorted (k, v) => insert k v sorted) start) from
    this [] List.Pairwise.nil
  induction entries with
  | nil => exact fun _ h => h
  | cons e rest ih => exact fun start h => ih _ (ascending_insert e.1 e.2 h)

end CellAbi.Sorted
