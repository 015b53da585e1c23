import Mathlib.Data.List.Nodup
import CellAbi.Proofs.Json.Printing
import CellAbi.Proofs.Sorted

/-!
# Documents and the values they stand for

A document stands for a value if it has the value and no object in it repeats a name.  Its members
may come in any order: they are found under the names of the entries of the value.

    d.StandsFor levels (.array js) → the items stand for `js` one by one           (`exists_items`)
    d.StandsFor levels (.ofMembers es) → what is found in it stands for what is found in `es`
                                                                                  (`exists_lookup`)
    j.IsExact → j.nesting ≤ levels → j.toDocument.StandsFor levels j        (`standsFor_toDocument`)
-/

namespace CellAbi

/-! ## Nesting -/

namespace Json

mutual

/-- The number of arrays and objects that stand inside each other. -/
def nesting : Json → Nat
  | array items => itemsNesting items + 1
  | object members => membersNesting members + 1
  | _ => 0

def itemsNesting : List Json → Nat
  | [] => 0
  | item :: rest => max (nesting item) (itemsNesting rest)

def membersNesting : List (String × Json) → Nat
  | [] => 0
  | (_, value) :: rest => max (nesting value) (membersNesting rest)

end

variable {levels : Nat}

theorem itemsNesting_le {items : List Json} :
    itemsNesting items ≤ levels ↔ ∀ item ∈ items, item.nesting ≤ levels := by
  induction items with
  | nil => exact iff_of_true (Nat.zero_le _) nofun
  | cons item rest ih => rw [itemsNesting, Nat.max_le, ih, List.forall_mem_cons]

theorem membersNesting_le {members : List (String × Json)} :
    membersNesting members ≤ levels ↔ ∀ m ∈ members, m.2.nesting ≤ levels := by
  induction members with
  | nil => exact iff_of_true (Nat.zero_le _) nofun
  | cons m rest ih => rw [membersNesting, Nat.max_le, ih, List.forall_mem_cons]

theorem nesting_array_le {items : List Json} :
    (array items).nesting ≤ levels + 1 ↔ ∀ item ∈ items, item.nesting ≤ levels := by
  rw [nesting, Nat.add_le_add_iff_right, itemsNesting_le]

theorem nesting_object_le {members : List (String × Json)} :
    (object members).nesting ≤ levels + 1 ↔ ∀ m ∈ members, m.2.nesting ≤ levels := by
  rw [nesting, Nat.add_le_add_iff_right, membersNesting_le]

end Json

/-! ## One by one -/

section
variable {α β : Type}

theorem mapM_eq_some {f : α → Option β} {l : List α} {bs : List β} :
    l.mapM f = some bs ↔ List.Forall₂ (fun a b => f a = some b) l bs := by
  induction l generalizing bs with
  | nil =>
    rw [List.mapM_nil, List.forall₂_nil_left_iff, Option.pure_def, Option.some.injEq, eq_comm]
  | cons a l ih =>
    rw [List.mapM_cons, List.forall₂_cons_left_iff]
    simp only [Option.bind_eq_bind, Option.bind_eq_some_iff, Option.pure_def, Option.some.injEq, ih]
    constructor
    · rintro ⟨b, hb, bs', hbs, rfl⟩
      exact ⟨b, bs', hb, hbs, rfl⟩
    · rintro ⟨b, bs', hb, hbs, rfl⟩
      exact ⟨b, hb, bs', hbs, rfl⟩

theorem exists_of_mem_mapM {f : α → Option β} {l : List α} {bs : List β} (h : l.mapM f = some bs)
    {b : β} (hb : b ∈ bs) : ∃ a, f a = some b := by
  have hall := mapM_eq_some.1 h
  clear h
  induction hall with
  | nil => cases hb
  | cons hhead _ ih =>
    rcases List.mem_cons.1 hb with rfl | hb
    · exact ⟨_, hhead⟩
    · exact ih hb

theorem lookup_eq_some_of_nodup {l : List (String × α)} (h : (l.map Prod.fst).Nodup) {name : String}
    {a : α} : l.lookup name = some a ↔ (name, a) ∈ l := by
  induction l with
  | nil => exact iff_of_false nofun List.not_mem_nil
  | cons e l ih =>
    obtain ⟨k, b⟩ := e
    rw [List.map_cons, List.nodup_cons] at h
    rw [List.lookup_cons, List.mem_cons, Prod.mk.injEq]
    split
    · next heq =>
      obtain rfl := eq_of_beq heq
      have hnew : (name, a) ∉ l := fun hmem => h.1 (List.mem_map.2 ⟨_, hmem, rfl⟩)
      simp [hnew, eq_comm]
    · next hne =>
      have hne : name ≠ k := fun heq => by
        rw [heq, beq_self_eq_true] at hne
        cases hne
      simp [ih h.2, hne]

/-- Entries that are sorted alike are found alike. -/
theorem lookup_eq_of_ofList_eq {l m : List (String × α)} (hl : (l.map Prod.fst).Nodup)
    (hm : (m.map Prod.fst).Nodup) (h : Sorted.ofList l = Sorted.ofList m) (name : String) :
    l.lookup name = m.lookup name := by
  have hperm : l.Perm m := by
    have hsorted := Sorted.perm_ofList (List.pairwise_map.1 hl)
    rw [h] at hsorted
    exact hsorted.symm.trans (Sorted.perm_ofList (List.pairwise_map.1 hm))
  refine Option.ext fun a => ?_
  rw [lookup_eq_some_of_nodup hl, lookup_eq_some_of_nodup hm, hperm.mem_iff]

theorem rel_lookup {R : α → β → Prop} {l : List (String × α)} {m : List (String × β)}
    (h : List.Forall₂ (fun e f => e.1 = f.1 ∧ R e.2 f.2) l m) (name : String) :
    Option.Rel R (l.lookup name) (m.lookup name) := by
  induction h with
  | nil => exact .none
  | @cons e f _ _ hhead _ ih =>
    rw [List.lookup_cons, List.lookup_cons, hhead.1]
    split
    · exact .some hhead.2
    · exact ih

end

/-! ## What a document stands for -/

namespace Document

/-- No object has two members of one name. -/
inductive Unrepeated : Document → Prop where
  | null : Unrepeated null
  | bool (value : Bool) : Unrepeated (bool value)
  | number (value : Option JsonNumber) : Unrepeated (number value)
  | string (text : Option String) : Unrepeated (string text)
  | array {items : List Document} (h : ∀ item ∈ items, Unrepeated item) : Unrepeated (array items)
  | object {members : List (Option String × Document)} (hnodup : (members.map Prod.fst).Nodup)
    (h : ∀ m ∈ members, Unrepeated m.2) : Unrepeated (object members)

theorem unrepeated_array {items : List Document} :
    (array items).Unrepeated ↔ ∀ item ∈ items, item.Unrepeated :=
  ⟨fun h => by cases h; assumption, .array⟩

theorem unrepeated_object {members : List (Option String × Document)} :
    (object members).Unrepeated ↔
      (members.map Prod.fst).Nodup ∧ ∀ m ∈ members, m.2.Unrepeated :=
  ⟨fun h => by cases h; exact ⟨‹_›, ‹_›⟩, fun h => .object h.1 h.2⟩

/-- The document, in which no name is repeated, has the value and nests no deeper than that. -/
structure StandsFor (levels : Nat) (d : Document) (j : Json) : Prop where
  unrepeated : d.Unrepeated
  toJson?_eq : d.toJson? levels = some j

variable {levels : Nat} {d : Document}

theorem itemsToJson?_eq_some {items : List Document} {js : List Json} :
    itemsToJson? levels items = some js ↔
      List.Forall₂ (fun d j => d.toJson? levels = some j) items js := by
  have hmapM : itemsToJson? levels items = items.mapM (toJson? levels) := by
    induction items with
    | nil => rfl
    | cons item rest ih => rw [itemsToJson?, ih, List.mapM_cons]
  rw [hmapM, mapM_eq_some]

theorem membersToJson?_eq_some {members : List (Option String × Document)}
    {es : List (String × Json)} :
    membersToJson? levels members = some es ↔
      List.Forall₂ (fun m e => m.1 = some e.1 ∧ m.2.toJson? levels = some e.2) members es := by
  have hmapM : membersToJson? levels members =
      members.mapM fun m => do return (← m.1, ← m.2.toJson? levels) := by
    induction members with
    | nil => rfl
    | cons m rest ih =>
      rw [membersToJson?, ih, List.mapM_cons]
      simp only [bind_assoc, pure_bind]
  have hmember (m : Option String × Document) (e : String × Json) :
      (do return (← m.1, ← m.2.toJson? levels)) = some e ↔
        m.1 = some e.1 ∧ m.2.toJson? levels = some e.2 := by
    simp [Option.bind_eq_some_iff, Prod.ext_iff]
  rw [hmapM, mapM_eq_some]
  simp only [hmember]

/-! ## Reading off the document -/

theorem StandsFor.eq_string {text : String} (h : d.StandsFor levels (.string text)) :
    d = string (some text) := by
  have hvalue := h.toJson?_eq
  cases d <;> cases levels <;> simp_all [toJson?, Json.ofMembers]

theorem StandsFor.eq_bool {value : Bool} (h : d.StandsFor levels (.bool value)) :
    d = bool value := by
  have hvalue := h.toJson?_eq
  cases d <;> cases levels <;> simp_all [toJson?, Json.ofMembers]

theorem StandsFor.eq_number {value : JsonNumber} (h : d.StandsFor levels (.number value)) :
    d = number (some value) := by
  have hvalue := h.toJson?_eq
  cases d <;> cases levels <;> simp_all [toJson?, Json.ofMembers]

theorem exists_items_of_toJson? {js : List Json} (h : d.toJson? levels = some (.array js)) :
    ∃ inner items, levels = inner + 1 ∧ d = array items ∧ itemsToJson? inner items = some js := by
  cases d <;> cases levels <;> simp_all [toJson?, Json.ofMembers]

theorem exists_members_of_toJson? {sorted : List (String × Json)}
    (h : d.toJson? levels = some (.object sorted)) :
    ∃ inner members es, levels = inner + 1 ∧ d = object members ∧
      membersToJson? inner members = some es ∧ Sorted.ofList es = sorted := by
  cases d <;> cases levels <;> simp_all [toJson?, Json.ofMembers]

theorem StandsFor.exists_items {js : List Json} (h : d.StandsFor levels (.array js)) :
    ∃ inner items, levels = inner + 1 ∧ d = array items ∧
      List.Forall₂ (StandsFor inner) items js := by
  obtain ⟨inner, items, rfl, rfl, hitems⟩ := exists_items_of_toJson? h.toJson?_eq
  have hall := (List.forall₂_and_left _ _).2
    ⟨unrepeated_array.1 h.unrepeated, itemsToJson?_eq_some.1 hitems⟩
  exact ⟨inner, items, rfl, rfl, hall.imp fun _ _ hitem => ⟨hitem.1, hitem.2⟩⟩

/-- The names of all members of an object can be read, and are those of the entries. -/
theorem exists_entries {members : List (Option String × Document)} {es : List (String × Json)}
    (h : membersToJson? levels members = some es) :
    ∃ entries : List (String × Document), members = entries.map (fun e => (some e.1, e.2)) ∧
      List.Forall₂ (fun e j => e.1 = j.1 ∧ e.2.toJson? levels = some j.2) entries es := by
  have hall := membersToJson?_eq_some.1 h
  clear h
  induction hall with
  | nil => exact ⟨[], rfl, .nil⟩
  | @cons m e _ _ hhead _ ih =>
    obtain ⟨entries, rfl, hentries⟩ := ih
    refine ⟨(e.1, m.2) :: entries, ?_, .cons ⟨rfl, hhead.2⟩ hentries⟩
    rw [List.map_cons, ← hhead.1]

/-- The members of an object are found under the names of the entries that they stand for, in
whatever order both are. -/
theorem StandsFor.exists_lookup {es : List (String × Json)} (hes : (es.map Prod.fst).Nodup)
    (h : d.StandsFor levels (.ofMembers es)) :
    ∃ inner, ∃ entries : List (String × Document), levels = inner + 1 ∧
      d = object (entries.map fun e => (some e.1, e.2)) ∧ (entries.map Prod.fst).Nodup ∧
      ∀ name, Option.Rel (StandsFor inner) (entries.lookup name) (es.lookup name) := by
  obtain ⟨inner, members, fs, rfl, rfl, hmembers, hsorted⟩ :=
    exists_members_of_toJson? h.toJson?_eq
  obtain ⟨entries, rfl, hentries⟩ := exists_entries hmembers
  obtain ⟨hnodup, hunrepeated⟩ := unrepeated_object.1 h.unrepeated
  have hkeys : (entries.map Prod.fst).Nodup := by
    refine List.Nodup.of_map some ?_
    rwa [List.map_map] at hnodup ⊢
  have hfs : entries.map Prod.fst = fs.map Prod.fst := by
    rw [← List.forall₂_eq_eq_eq, List.forall₂_map_left_iff, List.forall₂_map_right_iff]
    exact hentries.imp fun _ _ => And.left
  -- Sorting hides the order of the members, but not what is found under a name.
  have hstands := (List.forall₂_and_left _ _).2 ⟨List.forall_mem_map.1 hunrepeated, hentries⟩
  refine ⟨inner, entries, rfl, rfl, hkeys, fun name => ?_⟩
  rw [← lookup_eq_of_ofList_eq (hfs ▸ hkeys) hes hsorted name]
  exact rel_lookup (hstands.imp fun e f hef => ⟨hef.2.1, hef.1, hef.2.2⟩) name

/-! ## What is printed -/

theorem itemsToDocuments_eq (items : List Json) :
    Json.itemsToDocuments items = items.map Json.toDocument := by
  induction items with
  | nil => rfl
  | cons item rest ih => rw [Json.itemsToDocuments, ih, List.map_cons]

theorem membersToDocuments_eq (members : List (String × Json)) :
    Json.membersToDocuments members = members.map fun m => (some m.1, m.2.toDocument) := by
  induction members with
  | nil => rfl
  | cons m rest ih => rw [Json.membersToDocuments, ih, List.map_cons]

theorem unrepeated_toDocument {j : Json} (h : j.IsExact) : j.toDocument.Unrepeated := by
  induction h with
  | null => exact .null
  | bool value => exact .bool value
  | integer => exact .number _
  | string text => exact .string _
  | array _ ih =>
    rw [Json.toDocument, itemsToDocuments_eq]
    exact .array (List.forall_mem_map.2 ih)
  | object hascending _ ih =>
    rw [Json.toDocument, membersToDocuments_eq]
    refine .object ?_ (List.forall_mem_map.2 ih)
    rw [List.map_map]
    have hkeys := (Sorted.nodup_keys hascending).map fun _ _ => Option.some.inj
    rwa [List.map_map] at hkeys

theorem toJson?_toDocument {j : Json} (h : j.IsExact) (hlevels : j.nesting ≤ levels) :
    j.toDocument.toJson? levels = some j := by
  induction h generalizing levels with
  | null => rfl
  | bool => rfl
  | integer => rfl
  | string => rfl
  | @array items _ ih =>
    cases levels with
    | zero => exact absurd hlevels (Nat.not_succ_le_zero _)
    | succ levels =>
      have hitems : itemsToJson? levels (Json.itemsToDocuments items) = some items := by
        rw [itemsToDocuments_eq, itemsToJson?_eq_some, List.forall₂_map_left_iff, List.forall₂_same]
        exact fun item hmem => ih item hmem (Json.nesting_array_le.1 hlevels item hmem)
      rw [Json.toDocument, toJson?, hitems, Option.map_some]
  | @object members hascending _ ih =>
    cases levels with
    | zero => exact absurd hlevels (Nat.not_succ_le_zero _)
    | succ levels =>
      have hmembers : membersToJson? levels (Json.membersToDocuments members) = some members := by
        rw [membersToDocuments_eq, membersToJson?_eq_some, List.forall₂_map_left_iff,
          List.forall₂_same]
        exact fun m hmem => ⟨rfl, ih m hmem (Json.nesting_object_le.1 hlevels m hmem)⟩
      rw [Json.toDocument, toJson?, hmembers, Option.map_some, Json.ofMembers,
        Sorted.ofList_eq_of_perm (.refl _) hascending]

theorem standsFor_toDocument {j : Json} (h : j.IsExact) (hlevels : j.nesting ≤ levels) :
    j.toDocument.StandsFor levels j :=
  ⟨unrepeated_toDocument h, toJson?_toDocument h hlevels⟩

end Document

namespace Json

theorem isExact_ofMembers {es : List (String × Json)} (h : ∀ e ∈ es, e.2.IsExact) :
    (ofMembers es).IsExact :=
  .object (Sorted.ascending_ofList es) fun e he => h e (Sorted.mem_ofList he)

theorem nesting_ofMembers_le {levels : Nat} {es : List (String × Json)}
    (h : ∀ e ∈ es, e.2.nesting ≤ levels) : (ofMembers es).nesting ≤ levels + 1 :=
  nesting_object_le.2 fun e he => h e (Sorted.mem_ofList he)

end Json

end CellAbi
