import Mathlib.Data.Option.Basic
import CellAbi.Proofs.Json.Standing
import CellAbi.Schema.Json

/-!
# Reading records back

A record is written as the object of those of its members that are there.  A document that stands
for that object has, under the name of each, what stands for the member, and nothing under the name
of one that is left out.  So a record is read back if each of its members is.

    d.StandsFor levels (.ofMembers (present members)) → ofDocument? finds the members in `d`
                                                                               (`exists_members`)
    read.Inverts write a → what stands for `write a` is read as a member `a`
                    (`required_of_found`, `withDefault_of_found`, `optional_of_found`)
    read.StaysWithin write levels → lists that are read stay within one level more
                                                                            (`list_staysWithin`)
-/

namespace CellAbi

open Document

/-! ## Readers -/

namespace Reader

variable {α : Type} {read : Reader α} {write : α → Json} {levels : Nat} {d : Document}

/-- What is written of `a` is read as `a`, from whatever document stands for it. -/
def Inverts (read : Reader α) (write : α → Json) (a : α) : Prop :=
  ∀ levels d, d.StandsFor levels (write a) → read levels d = some a

/-- What is read from so many levels is written with no more. -/
def StaysWithin (read : Reader α) (write : α → Json) (levels : Nat) : Prop :=
  ∀ d a, read levels d = some a → (write a).nesting ≤ levels

theorem string_inverts (s : String) : string.Inverts .string s := by
  intro levels d h
  rw [h.eq_string]
  rfl

theorem bool_inverts (b : Bool) : bool.Inverts .bool b := by
  intro levels d h
  rw [h.eq_bool]
  rfl

theorem nat32_eq_some {n m : Nat} :
    nat32 levels (.number (some (.integer n))) = some m ↔ n < 2 ^ 32 ∧ m = n := by
  rw [nat32]
  split
  · rw [Option.some.injEq, Int.toNat_natCast]
    omega
  · simp only [reduceCtorEq, false_iff]
    omega

theorem nat32_inverts {n : Nat} (hn : n < 2 ^ 32) :
    nat32.Inverts (fun n : Nat => .integer n) n := by
  intro levels d h
  rw [h.eq_number]
  exact nat32_eq_some.2 ⟨hn, rfl⟩

theorem lt_of_nat32 {n : Nat} (h : nat32 levels d = some n) : n < 2 ^ 32 := by
  unfold nat32 at h
  split at h
  · split at h
    · next hbounds =>
      obtain rfl := Option.some.inj h
      omega
    · cases h
  · cases h

theorem optional_eq (read : Reader α) (levels : Nat) {d : Document} (hd : d ≠ .null) :
    optional read levels d = (read levels d).map some := by
  cases d with
  | null => exact absurd rfl hd
  | bool | number | string | array | object => rfl

section
variable {read' : Reader α}

theorem optional_congr (h : ∀ d, read levels d = read' levels d) (d : Document) :
    optional read levels d = optional read' levels d := by
  by_cases hd : d = .null
  · rw [hd]
    rfl
  · rw [optional_eq read levels hd, optional_eq read' levels hd, h]

theorem list_congr (h : ∀ inner < levels, ∀ d, read inner d = read' inner d) (d : Document) :
    list read levels d = list read' levels d := by
  unfold list
  split
  · exact congrArg (List.mapM · _) (funext (h _ (Nat.lt_succ_self _)))
  · rfl

end

/-- What is there is not written as null, so that it is read as being there. -/
theorem optional_of_standsFor {a : α} (hnull : write a ≠ .null) (h : read.Inverts write a)
    (hd : d.StandsFor levels (write a)) : optional read levels d = some (some a) := by
  have hne : d ≠ .null := by
    rintro rfl
    exact hnull (Option.some.inj hd.toJson?_eq).symm
  rw [optional_eq read levels hne, h levels d hd, Option.map_some]

theorem read_of_optional {a : α} (h : optional read levels d = some (some a)) :
    read levels d = some a := by
  have hne : d ≠ .null := by
    rintro rfl
    cases h
  rw [optional_eq read levels hne] at h
  obtain ⟨_, ha, hsome⟩ := Option.map_eq_some_iff.1 h
  rw [ha, hsome]

theorem list_inverts {as : List α} (h : ∀ a ∈ as, read.Inverts write a) :
    (list read).Inverts (fun as => .array (as.map write)) as := by
  intro levels d hd
  obtain ⟨inner, items, rfl, rfl, hitems⟩ := hd.exists_items
  have hall := (List.forall₂_and_left _ _).2 ⟨h, (List.forall₂_map_right_iff.1 hitems).flip⟩
  rw [list, mapM_eq_some]
  exact (hall.imp fun a d had => had.1 inner d had.2).flip

theorem string_staysWithin (levels : Nat) : string.StaysWithin .string levels :=
  fun _ _ _ => Nat.zero_le _

theorem list_staysWithin (h : ∀ inner, levels = inner + 1 → read.StaysWithin write inner) :
    (list read).StaysWithin (fun as => .array (as.map write)) levels := by
  intro d as hread
  unfold list at hread
  split at hread
  · next inner items =>
    refine Json.nesting_array_le.2 (List.forall_mem_map.2 fun a ha => ?_)
    obtain ⟨d, hd⟩ := exists_of_mem_mapM hread ha
    exact h inner rfl d a hd
  · cases hread

end Reader

/-! ## Members that were found -/

namespace Members

/-- With no name repeated, each known member is found. -/
theorem exists_ofObject? (names : List String) {entries : List (String × Document)}
    (hnodup : (entries.map Prod.fst).Nodup) :
    ∃ m, ofObject? names (entries.map fun e => (some e.1, e.2)) = some m ∧
      ∀ name ∈ names, m.lookup name = entries.lookup name := by
  induction entries with
  | nil => exact ⟨[], rfl, fun _ _ => rfl⟩
  | cons e entries ih =>
    obtain ⟨hnew, hnodup⟩ := List.nodup_cons.1 hnodup
    obtain ⟨m, hm, hlookup⟩ := ih hnodup
    rw [List.map_cons, ofObject?, hm]
    cases hknown : names.contains e.1 with
    | false =>
      refine ⟨m, by simp, fun name hname => ?_⟩
      have hne : (name == e.1) = false := beq_eq_false_iff_ne.2 fun heq => by
        rw [← heq, List.contains_iff_mem.2 hname] at hknown
        cases hknown
      rw [List.lookup_cons, hne, hlookup name hname]
    | true =>
      have hfree : m.lookup e.1 = none := by
        rw [hlookup _ (List.contains_iff_mem.1 hknown), List.lookup_eq_none_iff]
        exact fun f hf => bne_iff_ne.2 fun heq => hnew (heq ▸ List.mem_map_of_mem hf)
      refine ⟨e :: m, by simp [hfree], fun name hname => ?_⟩
      rw [List.lookup_cons, List.lookup_cons, hlookup name hname]

theorem levels_of_ofDocument? {names : List String} {levels inner : Nat} {d : Document}
    {m : Members} (h : ofDocument? names levels d = some (inner, m)) : levels = inner + 1 := by
  unfold ofDocument? at h
  split at h
  · obtain ⟨_, -, hm⟩ := Option.bind_eq_some_iff.1 h
    cases hm
    rfl
  · split at h
    · cases h
      rfl
    · cases h
  · cases h

section
variable {α : Type} {read : Reader α} {write : α → Json} {name : String} {levels : Nat}
  {m : Members} {a default : α} {value : Option α}

theorem withDefault_congr {read' : Reader α} (h : ∀ d, read levels d = read' levels d) :
    withDefault read default name levels m = withDefault read' default name levels m := by
  unfold withDefault
  split
  · rfl
  · exact h _

theorem required_of_found (h : read.Inverts write a)
    (hfound : Option.Rel (StandsFor levels) (m.lookup name) (some (write a))) :
    required read name levels m = some a := by
  unfold required
  generalize m.lookup name = found at hfound ⊢
  cases hfound with
  | some hd => exact h levels _ hd

theorem withDefault_of_found (h : read.Inverts write a)
    (hfound : Option.Rel (StandsFor levels) (m.lookup name) (some (write a))) :
    withDefault read default name levels m = some a := by
  unfold withDefault
  generalize m.lookup name = found at hfound ⊢
  cases hfound with
  | some hd => exact h levels _ hd

/-- A member that is left out is none when it is missing; one that is there is not null. -/
theorem optional_of_found (h : ∀ a ∈ value, read.Inverts write a)
    (hfound : Option.Rel (StandsFor levels) (m.lookup name) (value.map write))
    (hnull : ∀ a, write a ≠ .null) :
    withDefault (Reader.optional read) none name levels m = some value := by
  unfold withDefault
  generalize m.lookup name = found at hfound ⊢
  cases value with
  | none =>
    cases hfound with
    | none => rfl
  | some a =>
    cases hfound with
    | some hd => exact Reader.optional_of_standsFor (hnull a) (h a rfl) hd

theorem exists_of_withDefault (h : withDefault read default name levels m = some a) :
    a = default ∨ ∃ d, read levels d = some a := by
  unfold withDefault at h
  split at h
  · exact .inl (Option.some.inj h).symm
  · exact .inr ⟨_, h⟩

theorem exists_of_optional
    (h : withDefault (Reader.optional read) none name levels m = some value) :
    ∀ a ∈ value, ∃ d, read levels d = some a := by
  rintro a rfl
  obtain h | ⟨d, hd⟩ := exists_of_withDefault h
  · cases h
  · exact ⟨d, Reader.read_of_optional hd⟩

end

end Members

/-! ## Members that are written -/

/-- The members of a record that are there. -/
def present (members : List (String × Option Json)) : List (String × Json) :=
  members.filterMap fun e => e.2.map (e.1, ·)

variable {members : List (String × Option Json)} {levels : Nat} {d : Document}

theorem mem_present {name : String} {j : Json} :
    (name, j) ∈ present members ↔ (name, some j) ∈ members := by
  simp only [present, List.mem_filterMap, Option.map_eq_some_iff, Prod.mk.injEq]
  constructor
  · rintro ⟨⟨k, v⟩, hmem, j, rfl, rfl, rfl⟩
    exact hmem
  · exact fun h => ⟨_, h, j, rfl, rfl, rfl⟩

theorem nodup_present (h : (members.map Prod.fst).Nodup) :
    ((present members).map Prod.fst).Nodup := by
  refine List.pairwise_map.2 (List.Pairwise.filterMap _ ?_ (List.pairwise_map.1 h))
  intro e f hne a ha b hb
  obtain ⟨_, -, rfl⟩ := Option.map_eq_some_iff.1 ha
  obtain ⟨_, -, rfl⟩ := Option.map_eq_some_iff.1 hb
  exact hne

theorem lookup_present (h : (members.map Prod.fst).Nodup) {name : String} {value : Option Json}
    (he : (name, value) ∈ members) : (present members).lookup name = value := by
  refine Option.ext fun j => ?_
  rw [lookup_eq_some_of_nodup (nodup_present h), mem_present]
  constructor
  · intro hj
    have hvalue := (lookup_eq_some_of_nodup h).2 hj
    rw [(lookup_eq_some_of_nodup h).2 he] at hvalue
    exact Option.some.inj hvalue
  · rintro rfl
    exact he

/-- In a document of a record, its reader finds every member that is there. -/
theorem Document.StandsFor.exists_members (hnames : (members.map Prod.fst).Nodup)
    (h : d.StandsFor levels (.ofMembers (present members))) :
    ∃ inner m, Members.ofDocument? (members.map Prod.fst) levels d = some (inner, m) ∧
      ∀ e ∈ members, Option.Rel (StandsFor inner) (m.lookup e.1) e.2 := by
  obtain ⟨inner, entries, rfl, rfl, hnodup, hlookup⟩ := h.exists_lookup (nodup_present hnames)
  obtain ⟨m, hm, hfound⟩ := Members.exists_ofObject? (members.map Prod.fst) hnodup
  refine ⟨inner, m, ?_, fun e he => ?_⟩
  · rw [Members.ofDocument?, hm]
    rfl
  · have hrel := hlookup e.1
    rwa [← hfound e.1 (List.mem_map_of_mem he), lookup_present hnames he] at hrel

theorem isExact_present (h : ∀ e ∈ members, ∀ j ∈ e.2, j.IsExact) :
    (Json.ofMembers (present members)).IsExact :=
  Json.isExact_ofMembers fun e he => h _ (mem_present.1 he) e.2 rfl

theorem nesting_present_le (h : ∀ e ∈ members, ∀ j ∈ e.2, j.nesting ≤ levels) :
    (Json.ofMembers (present members)).nesting ≤ levels + 1 :=
  Json.nesting_ofMembers_le fun e he => h _ (mem_present.1 he) e.2 rfl

end CellAbi
