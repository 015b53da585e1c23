import Mathlib.Data.List.Perm.Subperm
import CellAbi.Sorted

/-!
# Sorting entries

With pairwise different keys, sorting only reorders.  In any case the sorted list has the keys of
the given one, and an ascending list is determined by its keys and what is looked up.

    (ofList entries).Perm entries    for pairwise different keys                    (`perm_ofList`)
    (ofList entries).length = entries.length ↔ the keys are pairwise different (`length_ofList_iff`)
    lookup key entries = some value ↔ (key, value) ∈ entries    for ascending ones (`lookup_eq_some`)
    ofList entries = l    for permutations of an ascending list                (`ofList_eq_of_perm`)
    l.map Prod.fst = m.map Prod.fst    for ascending `l`, `m` with the same keys     (`keys_eq`)
-/

namespace CellAbi.Sorted

variable {κ α β : Type} [Ord κ]

theorem ofList_eq (entries : List (κ × α)) :
    ofList entries = entries.foldl (fun sorted e => insert e.1 e.2 sorted) [] := rfl

theorem lookup_cons (key : κ) (e : κ × α) (rest : List (κ × α)) :
    lookup key (e :: rest) = if compare key e.1 = .eq then some e.2 else lookup key rest := by
  cases e with
  | mk k v =>
    unfold lookup
    cases h : compare key k <;> simp [h]

theorem erase_cons (name : κ) (e : κ × α) (rest : List (κ × α)) :
    erase name (e :: rest) = if compare name e.1 = .eq then erase name rest
      else e :: erase name rest := by
  cases e with
  | mk k v =>
    unfold erase
    cases h : compare name k <;> simp [h]

/-- What is found under a name corresponds where the entries do so one by one. -/
theorem exists_lookup_of_forall₂ {R : α → β → Prop} {l : List (κ × α)} {m : List (κ × β)}
    (h : List.Forall₂ (fun a b => b.1 = a.1 ∧ R a.2 b.2) l m) {key : κ} {value : α}
    (hvalue : lookup key l = some value) : ∃ other, lookup key m = some other ∧ R value other := by
  induction h with
  | nil => cases hvalue
  | cons hhead _ ih =>
    rw [lookup_cons] at hvalue
    rw [lookup_cons, hhead.1]
    split at hvalue
    · next heq =>
      obtain rfl := Option.some.inj hvalue
      rw [if_pos heq]
      exact ⟨_, rfl, hhead.2⟩
    · next hne =>
      rw [if_neg hne]
      exact ih hvalue

theorem lookup_erase_self (name : κ) (entries : List (κ × α)) :
    lookup name (erase name entries) = none := by
  induction entries with
  | nil => rfl
  | cons e rest ih =>
    rw [erase_cons]
    split
    · exact ih
    · next hname => rw [lookup_cons, if_neg hname, ih]

theorem ascending_map (f : α → β) {entries : List (κ × α)} (h : Ascending entries) :
    Ascending (entries.map fun e => (e.1, f e.2)) := by
  rw [Ascending, List.pairwise_map]
  exact h

/-! ## Members -/

theorem mem_of_lookup [Std.LawfulEqOrd κ] {key : κ} {value : α} {entries : List (κ × α)}
    (h : lookup key entries = some value) : (key, value) ∈ entries := by
  induction entries with
  | nil => cases h
  | cons e rest ih =>
    rw [lookup_cons] at h
    split at h
    · next heq =>
      obtain rfl := Std.compare_eq_iff_eq.1 heq
      obtain rfl := Option.some.inj h
      exact List.mem_cons_self
    · exact List.mem_cons_of_mem _ (ih h)

theorem mem_ofList {entries : List (κ × α)} {e : κ × α} (h : e ∈ ofList entries) :
    e ∈ entries := by
  suffices ∀ start : List (κ × α),
      e ∈ entries.foldl (fun sorted e => insert e.1 e.2 sorted) start → e ∈ start ∨ e ∈ entries by
    exact (this [] h).resolve_left List.not_mem_nil
  clear h
  induction entries with
  | nil => exact fun _ => .inl
  | cons head rest ih =>
    intro start he
    rcases ih _ he with he | he
    · rcases mem_insert he with rfl | he
      · exact .inr List.mem_cons_self
      · exact .inl he
    · exact .inr (List.mem_cons_of_mem _ he)

/-! ## Different keys -/

variable [Std.LawfulEqOrd κ]

theorem lookup_erase {key name : κ} (hne : key ≠ name) (entries : List (κ × α)) :
    lookup key (erase name entries) = lookup key entries := by
  induction entries with
  | nil => rfl
  | cons e rest ih =>
    rw [erase_cons, lookup_cons]
    split
    · next hname =>
      obtain rfl := Std.compare_eq_iff_eq.1 hname
      rw [if_neg fun h => hne (Std.compare_eq_iff_eq.1 h), ih]
    · rw [lookup_cons, ih]

/-- What is found after another entry is gone was there before. -/
theorem lookup_of_lookup_erase {key name : κ} {value : α} {entries : List (κ × α)}
    (h : lookup key (erase name entries) = some value) : lookup key entries = some value := by
  by_cases hne : key = name
  · rw [hne, lookup_erase_self] at h
    cases h
  · rwa [lookup_erase hne] at h

theorem perm_insert {key : κ} {entries : List (κ × α)} (h : ∀ e ∈ entries, e.1 ≠ key) (value : α) :
    (insert key value entries).Perm ((key, value) :: entries) := by
  induction entries with
  | nil => exact .refl _
  | cons head rest ih =>
    rw [insert]
    split
    · exact .refl _
    · next heq =>
      exact absurd (Std.compare_eq_iff_eq.1 heq).symm (h _ List.mem_cons_self)
    · exact ((ih fun e he => h e (List.mem_cons_of_mem _ he)).cons head).trans (.swap ..)

/-- Sorting entries with pairwise different keys only reorders them. -/
theorem perm_ofList {entries : List (κ × α)} (h : entries.Pairwise fun a b => a.1 ≠ b.1) :
    (ofList entries).Perm entries := by
  suffices ∀ start : List (κ × α), (start ++ entries).Pairwise (fun a b => a.1 ≠ b.1) →
      (entries.foldl (fun sorted e => insert e.1 e.2 sorted) start).Perm (start ++ entries) from
    this [] h
  clear h
  induction entries with
  | nil =>
    intro start _
    rw [List.append_nil]
    exact .refl _
  | cons e rest ih =>
    intro start h
    have hnew : ∀ d ∈ start, d.1 ≠ e.1 :=
      fun d hd => (List.pairwise_append.1 h).2.2 d hd e List.mem_cons_self
    have hins : (insert e.1 e.2 start ++ rest).Perm (start ++ e :: rest) :=
      ((perm_insert hnew e.2).append_right rest).trans List.perm_middle.symm
    have hdistinct := h.perm hins.symm fun hne => Ne.symm hne
    exact (ih _ hdistinct).trans hins

/-- Every key is kept. -/
theorem mem_keys_insert {key k : κ} {value : α} {entries : List (κ × α)} :
    k ∈ (insert key value entries).map Prod.fst ↔ k = key ∨ k ∈ entries.map Prod.fst := by
  induction entries with
  | nil => simp [insert]
  | cons head rest ih =>
    rw [insert]
    split
    · simp
    · next heq =>
      obtain rfl := Std.compare_eq_iff_eq.1 heq
      simp
    · simp [ih, or_left_comm]

theorem mem_keys_ofList {k : κ} {entries : List (κ × α)} :
    k ∈ (ofList entries).map Prod.fst ↔ k ∈ entries.map Prod.fst := by
  suffices ∀ start : List (κ × α),
      k ∈ (entries.foldl (fun sorted e => insert e.1 e.2 sorted) start).map Prod.fst ↔
        k ∈ start.map Prod.fst ∨ k ∈ entries.map Prod.fst by
    rw [ofList_eq, this []]
    simp
  induction entries with
  | nil => simp
  | cons e rest ih =>
    intro start
    rw [List.foldl_cons, ih, mem_keys_insert, List.map_cons, List.mem_cons, or_assoc, or_left_comm]

/-! ## Ascending lists -/

theorem lookup_eq_some {key : κ} {value : α} {entries : List (κ × α)} (h : Ascending entries) :
    lookup key entries = some value ↔ (key, value) ∈ entries := by
  induction entries with
  | nil => exact iff_of_false nofun List.not_mem_nil
  | cons e rest ih =>
    obtain ⟨hhead, htail⟩ := List.pairwise_cons.1 h
    rw [lookup_cons, List.mem_cons]
    split
    · next heq =>
      obtain rfl := Std.compare_eq_iff_eq.1 heq
      have hrest : (e.1, value) ∉ rest := fun hmem => by
        have hlt := hhead _ hmem
        rw [Std.compare_self] at hlt
        cases hlt
      simp [hrest, Prod.ext_iff, eq_comm]
    · next hne =>
      have hhead : (key, value) ≠ e := by
        rintro rfl
        exact hne Std.compare_self
      rw [ih htail, or_iff_right hhead]

/-- With pairwise different keys, every entry is found after sorting. -/
theorem lookup_ofList [Std.TransOrd κ] {key : κ} {value : α} {entries : List (κ × α)}
    (h : entries.Pairwise fun a b => a.1 ≠ b.1) :
    lookup key (ofList entries) = some value ↔ (key, value) ∈ entries := by
  rw [lookup_eq_some (ascending_ofList entries), (perm_ofList h).mem_iff]

theorem value_unique {key : κ} {v w : α} {entries : List (κ × α)} (h : Ascending entries)
    (hv : (key, v) ∈ entries) (hw : (key, w) ∈ entries) : v = w := by
  have hlookup := (lookup_eq_some h).2 hv
  rw [(lookup_eq_some h).2 hw] at hlookup
  exact (Option.some.inj hlookup).symm

theorem nodup_keys {entries : List (κ × α)} (h : Ascending entries) :
    (entries.map Prod.fst).Nodup := by
  refine List.pairwise_map.2 (List.Pairwise.imp (fun hlt heq => ?_) h)
  rw [heq, Std.compare_self] at hlt
  cases hlt

/-- The sorted list has some of the given keys, each once. -/
theorem subperm_keys_ofList [Std.TransOrd κ] (entries : List (κ × α)) :
    ((ofList entries).map Prod.fst).Subperm (entries.map Prod.fst) :=
  List.subperm_of_subset (nodup_keys (ascending_ofList entries)) fun _ => mem_keys_ofList.1

theorem length_ofList_le [Std.TransOrd κ] (entries : List (κ × α)) :
    (ofList entries).length ≤ entries.length := by
  have hle := (subperm_keys_ofList entries).length_le
  rwa [List.length_map, List.length_map] at hle

/-- Sorting keeps all entries only if no two of them have one key. -/
theorem length_ofList_iff [Std.TransOrd κ] {entries : List (κ × α)} :
    (ofList entries).length = entries.length ↔ entries.Pairwise fun a b => a.1 ≠ b.1 := by
  constructor
  · intro h
    have hle : (entries.map Prod.fst).length ≤ ((ofList entries).map Prod.fst).length := by
      rw [List.length_map, List.length_map]
      exact Nat.le_of_eq h.symm
    have hperm := (subperm_keys_ofList entries).perm_of_length_le hle
    have hnodup := hperm.nodup_iff.1 (nodup_keys (ascending_ofList entries))
    exact List.pairwise_map.1 hnodup
  · exact fun h => (perm_ofList h).length_eq

/-- Whatever the order of the entries, sorting them gives the ascending one. -/
theorem ofList_eq_of_perm [Std.TransOrd κ] {entries l : List (κ × α)} (h : entries.Perm l)
    (hl : Ascending l) : ofList entries = l := by
  have hdistinct : entries.Pairwise fun a b => a.1 ≠ b.1 :=
    List.pairwise_map.1 ((h.map Prod.fst).nodup_iff.2 (nodup_keys hl))
  refine ((perm_ofList hdistinct).trans h).eq_of_pairwise (fun a b _ _ hab hba => ?_)
    (ascending_ofList entries) hl
  rw [Std.OrientedCmp.gt_of_lt hba] at hab
  cases hab

/-- Ascending lists with the same keys have them in the same order. -/
theorem keys_eq [Std.TransOrd κ] {l : List (κ × α)} {m : List (κ × β)} (hl : Ascending l)
    (hm : Ascending m) (h : ∀ k, k ∈ l.map Prod.fst ↔ k ∈ m.map Prod.fst) :
    l.map Prod.fst = m.map Prod.fst := by
  have hperm := (List.perm_ext_iff_of_nodup (nodup_keys hl) (nodup_keys hm)).2 h
  have hl' : (l.map Prod.fst).Pairwise fun a b => compare a b = .lt := List.pairwise_map.2 hl
  have hm' : (m.map Prod.fst).Pairwise fun a b => compare a b = .lt := List.pairwise_map.2 hm
  refine hperm.eq_of_pairwise (fun a b _ _ hab hba => ?_) hl' hm'
  rw [Std.OrientedCmp.gt_of_lt hba] at hab
  cases hab

/-! ## Entries one by one -/

section

variable {R : α → β → Prop}

omit [Ord κ] [Std.LawfulEqOrd κ] in
/-- Under the same different keys, entries go together one by one as soon as every entry of the
first list has one of the second that it goes with. -/
theorem forall₂_iff_of_keys {l : List (κ × α)} {m : List (κ × β)}
    (hkeys : l.map Prod.fst = m.map Prod.fst) (hnodup : (l.map Prod.fst).Nodup) :
    List.Forall₂ (fun e f => e.1 = f.1 ∧ R e.2 f.2) l m ↔
      ∀ e ∈ l, ∃ f ∈ m, e.1 = f.1 ∧ R e.2 f.2 := by
  induction l generalizing m with
  | nil =>
    obtain rfl := List.map_eq_nil_iff.1 hkeys.symm
    exact iff_of_true .nil nofun
  | cons d l ih =>
    cases m with
    | nil => cases hkeys
    | cons g m =>
      obtain ⟨hkey, hkeys⟩ := List.cons.inj hkeys
      obtain ⟨hnew, hnodup⟩ := List.nodup_cons.1 hnodup
      rw [List.forall₂_cons, ih hkeys hnodup, List.forall_mem_cons]
      constructor
      · rintro ⟨hhead, hrest⟩
        exact ⟨⟨g, List.mem_cons_self, hhead⟩, fun e he =>
          (hrest e he).imp fun f hf => ⟨List.mem_cons_of_mem _ hf.1, hf.2⟩⟩
      · rintro ⟨⟨f, hf, hname, hR⟩, hrest⟩
        constructor
        · rcases List.mem_cons.1 hf with rfl | hf
          · exact ⟨hname, hR⟩
          · refine absurd ?_ hnew
            rw [hkeys, hname]
            exact List.mem_map_of_mem hf
        · intro e he
          obtain ⟨f, hf, hname, hR⟩ := hrest e he
          rcases List.mem_cons.1 hf with rfl | hf
          · refine absurd ?_ hnew
            rw [hkey, ← hname]
            exact List.mem_map_of_mem he
          · exact ⟨f, hf, hname, hR⟩

variable [Std.TransOrd κ]

theorem forall₂_iff_of_ascending {l : List (κ × α)} {m : List (κ × β)} (hl : Ascending l)
    (hm : Ascending m) :
    List.Forall₂ (fun e f => e.1 = f.1 ∧ R e.2 f.2) l m ↔
      l.length = m.length ∧ ∀ e ∈ l, ∃ f ∈ m, e.1 = f.1 ∧ R e.2 f.2 := by
  constructor
  · intro h
    have hkeys : l.map Prod.fst = m.map Prod.fst := by
      rw [← List.forall₂_eq_eq_eq, List.forall₂_map_left_iff, List.forall₂_map_right_iff]
      exact h.imp fun _ _ => And.left
    exact ⟨h.length_eq, (forall₂_iff_of_keys hkeys (nodup_keys hl)).1 h⟩
  · rintro ⟨hlen, h⟩
    have hsubset : l.map Prod.fst ⊆ m.map Prod.fst := by
      intro k hk
      obtain ⟨e, he, rfl⟩ := List.mem_map.1 hk
      obtain ⟨f, hf, hkey, -⟩ := h e he
      exact hkey ▸ List.mem_map_of_mem hf
    have hle : (m.map Prod.fst).length ≤ (l.map Prod.fst).length := by
      simp [hlen]
    have hperm := (List.subperm_of_subset (nodup_keys hl) hsubset).perm_of_length_le hle
    exact (forall₂_iff_of_keys (keys_eq hl hm fun _ => hperm.mem_iff) (nodup_keys hl)).2 h

/-- Sorting entries under the same different keys keeps those together that were. -/
theorem forall₂_ofList {l : List (κ × α)} {m : List (κ × β)}
    (hkeys : l.map Prod.fst = m.map Prod.fst) (hdistinct : l.Pairwise fun a b => a.1 ≠ b.1) :
    List.Forall₂ (fun e f => e.1 = f.1 ∧ R e.2 f.2) (ofList l) (ofList m) ↔
      List.Forall₂ (fun e f => e.1 = f.1 ∧ R e.2 f.2) l m := by
  have hnodup : (l.map Prod.fst).Nodup := List.pairwise_map.2 hdistinct
  have hdistinct' : m.Pairwise fun a b => a.1 ≠ b.1 := List.pairwise_map.1 (hkeys ▸ hnodup)
  have hsorted : (ofList l).map Prod.fst = (ofList m).map Prod.fst := by
    refine keys_eq (ascending_ofList l) (ascending_ofList m) fun k => ?_
    rw [mem_keys_ofList, mem_keys_ofList, hkeys]
  rw [forall₂_iff_of_keys hsorted (nodup_keys (ascending_ofList l)),
    forall₂_iff_of_keys hkeys hnodup]
  simp only [(perm_ofList hdistinct).mem_iff, (perm_ofList hdistinct').mem_iff]

end

end CellAbi.Sorted
