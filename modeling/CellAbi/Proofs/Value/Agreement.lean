import Mathlib.Data.List.Forall2
import Mathlib.Data.List.Nodup
import CellAbi.Proofs.Outcome
import CellAbi.Proofs.Sorted
import CellAbi.Value.Basic

/-!
# Agreement of values

Equality of values passes over the order of the entries of maps, and of entries with equal keys it
counts no more than one.  Two values agree if each is equal to the other one.  Composite values
agree if their parts do:

    Agrees (array (v :: vs)) (array (w :: ws))   from `Agrees v w`, `Agrees (array vs) (array ws)`
    Agrees (map entries) (map ws)    for equally many entries with a partner each    (`agrees_map`)
    Agrees (map entries) (map ws)    converted to sorted entries and back   (`exists_agrees_map`)
    Agrees (tuple fields) (tuple (Sorted.ofList ws))   for the same names   (`agrees_tuple_ofList`)
-/

namespace CellAbi.Value

mutual

theorem equal_self : ∀ v : Value, equal v v = true
  | null => by rw [equal]
  | int _ => by rw [equal, beq_self_eq_true]
  | bool _ => by rw [equal, beq_self_eq_true]
  | string _ => by rw [equal, beq_self_eq_true]
  | bytes _ => by rw [equal, beq_self_eq_true]
  | cell _ => by rw [equal, beq_self_eq_true]
  | address _ => by rw [equal, beq_self_eq_true]
  | array items => by rw [equal, equalItems_self items]
  | map entries => by
    rw [equal_map, beq_self_eq_true, Bool.true_and, List.all_eq_true]
    intro e he
    obtain ⟨hk, hv⟩ := equalEntries_self entries e he
    exact List.any_eq_true.2 ⟨e, he, by rw [hk, hv]; rfl⟩
  | tuple fields => by rw [equal, equalFields_self fields]

theorem equalItems_self : ∀ items : List Value, equalItems items items = true
  | [] => by rw [equalItems]
  | v :: rest => by rw [equalItems, equal_self v, equalItems_self rest]; rfl

theorem equalEntries_self : ∀ entries : List (Value × Value), ∀ e ∈ entries,
    equal e.1 e.1 = true ∧ equal e.2 e.2 = true
  | [] => fun _ he => absurd he List.not_mem_nil
  | (k, v) :: rest =>
    List.forall_mem_cons.2 ⟨⟨equal_self k, equal_self v⟩, equalEntries_self rest⟩

theorem equalFields_self : ∀ fields : List (String × Value), equalFields fields fields = true
  | [] => by rw [equalFields]
  | (name, v) :: rest => by
    rw [equalFields, beq_self_eq_true, equal_self v, equalFields_self rest]
    rfl

end

/-! ## Composite values -/

theorem equal_array_iff {as bs : List Value} :
    equal (array as) (array bs) = true ↔ List.Forall₂ (fun v w => equal v w = true) as bs := by
  rw [equal]
  induction as generalizing bs with
  | nil => cases bs <;> simp [equalItems]
  | cons a as ih => cases bs <;> simp [equalItems, ih]

theorem equal_tuple_iff {as bs : List (String × Value)} :
    equal (tuple as) (tuple bs) = true ↔
      List.Forall₂ (fun e f => e.1 = f.1 ∧ equal e.2 f.2 = true) as bs := by
  rw [equal]
  induction as generalizing bs with
  | nil => cases bs <;> simp [equalFields]
  | cons e as ih =>
    cases bs with
    | nil => simp [equalFields]
    | cons f bs =>
      cases e
      cases f
      simp [equalFields, ih]

theorem equal_map_iff {as bs : List (Value × Value)} :
    equal (map as) (map bs) = true ↔ as.length = bs.length ∧
      ∀ e ∈ as, ∃ f ∈ bs, equal f.1 e.1 = true ∧ equal f.2 e.2 = true := by
  simp only [equal_map, hasEntry, Bool.and_eq_true, beq_iff_eq, List.all_eq_true, List.any_eq_true]

/-- Each of the values is equal to the other one. -/
def Agrees (v w : Value) : Prop := equal v w = true ∧ equal w v = true

variable {v w : Value}

theorem agrees_self (v : Value) : Agrees v v := ⟨equal_self v, equal_self v⟩

theorem agrees_array_cons {vs ws : List Value} (hhead : Agrees v w)
    (hrest : Agrees (array vs) (array ws)) : Agrees (array (v :: vs)) (array (w :: ws)) := by
  unfold Agrees at *
  simp only [equal] at hrest
  simp [equal, equalItems, hhead, hrest]

/-- Maps agree if they have equally many entries, and every entry of either has one of the other
that it agrees with. -/
theorem agrees_map {entries ws : List (Value × Value)} (hlen : ws.length = entries.length)
    (hto : ∀ e ∈ entries, ∃ f ∈ ws, Agrees e.1 f.1 ∧ Agrees e.2 f.2)
    (hfrom : ∀ f ∈ ws, ∃ e ∈ entries, Agrees e.1 f.1 ∧ Agrees e.2 f.2) :
    Agrees (map entries) (map ws) := by
  refine ⟨equal_map_iff.2 ⟨hlen.symm, fun e he => ?_⟩, equal_map_iff.2 ⟨hlen, fun f hf => ?_⟩⟩
  · obtain ⟨f, hf, hk, hv⟩ := hto e he
    exact ⟨f, hf, hk.2, hv.2⟩
  · obtain ⟨e, he, hk, hv⟩ := hfrom f hf
    exact ⟨e, he, hk.1, hv.1⟩

/-- Entries that are converted, sorted by converted keys and converted back give a map that agrees,
if the entries come back as ones that agree and different keys are converted to different ones. -/
theorem exists_agrees_map {κ β : Type} [Ord κ] [Std.LawfulEqOrd κ]
    {f : Value × Value → Except AbiError (κ × β)} {g : κ × β → Except AbiError (Value × Value)}
    {entries : List (Value × Value)} {es : List (κ × β)} (hes : entries.mapM f = .ok es)
    (hdistinct : entries.Pairwise fun d e => equal d.1 e.1 = false)
    (hkeys : ∀ d ∈ entries, ∀ e ∈ entries, ∀ p q, f d = .ok p → f e = .ok q →
      equal d.1 e.1 = false → p.1 ≠ q.1)
    (hback : ∀ e ∈ entries, ∀ p, f e = .ok p →
      ∃ w, g p = .ok w ∧ Agrees e.1 w.1 ∧ Agrees e.2 w.2) :
    ∃ ws, (Sorted.ofList es).mapM g = .ok ws ∧ Agrees (map entries) (map ws) := by
  obtain ⟨hlen, hto, hfrom⟩ := Outcome.mapM_spec hes
  -- No two converted entries have one key, so that sorting loses none of them.
  have hnames : es.Pairwise fun p q => p.1 ≠ q.1 := by
    refine (Outcome.pairwise_mapM (R := fun d e => ∀ p q, f d = .ok p → f e = .ok q → p.1 ≠ q.1)
      hes fun d _ e _ p q hp hq => ?_).1 (hdistinct.imp_of_mem fun hd he hde p q hp hq =>
        hkeys _ hd _ he p q hp hq hde)
    constructor
    · exact fun h => h p q hp hq
    · intro hne p' q' hp' hq'
      obtain rfl := Except.ok.inj (hp.symm.trans hp')
      obtain rfl := Except.ok.inj (hq.symm.trans hq')
      exact hne
  have hperm := Sorted.perm_ofList hnames
  -- What comes back agrees with whichever entry was converted.
  have hread : ∀ p ∈ Sorted.ofList es, ∃ w, g p = .ok w ∧
      ∀ e ∈ entries, f e = .ok p → Agrees e.1 w.1 ∧ Agrees e.2 w.2 := by
    intro p hp
    obtain ⟨e, he, hep⟩ := hfrom p (hperm.mem_iff.1 hp)
    obtain ⟨w, hw, -⟩ := hback e he p hep
    refine ⟨w, hw, fun d hd hdp => ?_⟩
    obtain ⟨w', hw', hagrees⟩ := hback d hd p hdp
    obtain rfl := Except.ok.inj (hw.symm.trans hw')
    exact hagrees
  obtain ⟨ws, hws, hlen', hto', hfrom'⟩ := Outcome.exists_mapM_eq_ok hread
  refine ⟨ws, hws, agrees_map (by rw [hlen', hperm.length_eq, hlen]) (fun e he => ?_) fun w hw => ?_⟩
  · obtain ⟨p, hp, hep⟩ := hto e he
    obtain ⟨w, hw, hpw⟩ := hto' p (hperm.mem_iff.2 hp)
    exact ⟨w, hw, hpw e he hep⟩
  · obtain ⟨p, hp, hpw⟩ := hfrom' w hw
    obtain ⟨e, he, hep⟩ := hfrom p (hperm.mem_iff.1 hp)
    exact ⟨e, he, hpw e he hep⟩

theorem agrees_tuple {fields ws : List (String × Value)}
    (hnames : fields.map Prod.fst = ws.map Prod.fst)
    (h : ∀ name v w, (name, v) ∈ fields → (name, w) ∈ ws → Agrees v w) :
    Agrees (tuple fields) (tuple ws) := by
  unfold Agrees
  simp only [equal]
  induction fields generalizing ws with
  | nil =>
    obtain rfl := List.map_eq_nil_iff.1 hnames.symm
    exact ⟨equalFields_self [], equalFields_self []⟩
  | cons e rest ih =>
    cases ws with
    | nil => cases hnames
    | cons f more =>
      obtain ⟨hname, hnames⟩ := List.cons.inj hnames
      have hhead := h e.1 e.2 f.2 List.mem_cons_self (hname ▸ List.mem_cons_self)
      have hrest := ih hnames fun name v w hv hw =>
        h name v w (List.mem_cons_of_mem _ hv) (List.mem_cons_of_mem _ hw)
      cases e
      cases f
      simp only at hname hhead
      simp [equalFields, hname, hhead.1, hhead.2, hrest]

/-- A tuple agrees with sorted fields of the same names that have values it agrees with. -/
theorem agrees_tuple_ofList {fields ws : List (String × Value)} (ha : Sorted.Ascending fields)
    (hnames : ∀ name, name ∈ fields.map Prod.fst ↔ name ∈ ws.map Prod.fst)
    (h : ∀ e ∈ ws, ∃ v, (e.1, v) ∈ fields ∧ Agrees v e.2) :
    Agrees (tuple fields) (tuple (Sorted.ofList ws)) := by
  refine agrees_tuple (Sorted.keys_eq ha (Sorted.ascending_ofList ws) fun name => ?_) ?_
  · rw [hnames, Sorted.mem_keys_ofList]
  · intro name v w hv hw
    obtain ⟨v', hv', hagrees⟩ := h _ (Sorted.mem_ofList hw)
    rwa [Sorted.value_unique ha hv hv']

/-! ## Parts of values that agree -/

/-- Values without parts; they are equal to themselves alone. -/
def isPlain : Value → Bool
  | array _ | map _ | tuple _ => false
  | _ => true

theorem eq_of_equal (hv : v.isPlain = true) (h : equal v w = true) : v = w := by
  cases v with
  | array _ | map _ | tuple _ => cases hv
  | _ => cases w <;> simp_all [equal]

theorem eq_of_equal_plain (hw : w.isPlain = true) (h : equal v w = true) : v = w := by
  cases w with
  | array _ | map _ | tuple _ => cases hw
  | _ => cases v <;> simp_all [equal]

theorem forall₂_of_agrees_array {items : List Value} (h : Agrees (array items) w) :
    ∃ ws, w = array ws ∧ List.Forall₂ Agrees items ws := by
  obtain ⟨hto, hfrom⟩ := h
  cases w with
  | array ws =>
    refine ⟨ws, rfl, (equal_array_iff.1 hto).mp (fun _ _ => And.intro) ?_⟩
    exact (equal_array_iff.1 hfrom).flip
  | _ => simp [equal] at hto

theorem forall₂_of_agrees_tuple {fields : List (String × Value)} (h : Agrees (tuple fields) w) :
    ∃ ws, w = tuple ws ∧ List.Forall₂ (fun e f => f.1 = e.1 ∧ Agrees e.2 f.2) fields ws := by
  obtain ⟨hto, hfrom⟩ := h
  cases w with
  | tuple ws =>
    refine ⟨ws, rfl, (equal_tuple_iff.1 hto).mp (fun e f hef hfe => ?_)
      (equal_tuple_iff.1 hfrom).flip⟩
    exact ⟨hfe.1, hef.2, hfe.2⟩
  | _ => simp [equal] at hto

/-- Where the keys are plain and different, every entry has its partner, of the same key. -/
theorem partners_of_agrees_map {entries : List (Value × Value)} (h : Agrees (map entries) w)
    (hplain : ∀ e ∈ entries, e.1.isPlain = true) (hkeys : (entries.map Prod.fst).Nodup) :
    ∃ ws, w = map ws ∧ ws.length = entries.length ∧
      (∀ e ∈ entries, ∃ f ∈ ws, f.1 = e.1 ∧ Agrees e.2 f.2) ∧
      ∀ f ∈ ws, ∃ e ∈ entries, f.1 = e.1 ∧ Agrees e.2 f.2 := by
  obtain ⟨hto, hfrom⟩ := h
  cases w with
  | map ws =>
    obtain ⟨-, hto⟩ := equal_map_iff.1 hto
    obtain ⟨hlen, hfrom⟩ := equal_map_iff.1 hfrom
    have hpartner : ∀ f ∈ ws, ∃ e ∈ entries, f.1 = e.1 ∧ equal e.2 f.2 = true := by
      intro f hf
      obtain ⟨e, he, hkey, hequal⟩ := hfrom f hf
      exact ⟨e, he, (eq_of_equal (hplain e he) hkey).symm, hequal⟩
    have hmutual : ∀ e ∈ entries, ∃ f ∈ ws, f.1 = e.1 ∧ Agrees e.2 f.2 := by
      intro e he
      obtain ⟨f, hf, hkey', hequal'⟩ := hto e he
      obtain ⟨d, hd, hkey, hequal⟩ := hpartner f hf
      have heq : d.1 = e.1 := eq_of_equal (hplain d hd) (hkey ▸ hkey')
      obtain rfl := List.inj_on_of_nodup_map hkeys hd he heq
      exact ⟨f, hf, hkey, hequal, hequal'⟩
    -- Equally many keys, and all of the first map are among those of the second.
    have hnodup : (ws.map Prod.fst).Nodup := by
      have hsubset : entries.map Prod.fst ⊆ ws.map Prod.fst := by
        intro k hk
        obtain ⟨e, he, rfl⟩ := List.mem_map.1 hk
        obtain ⟨f, hf, hkey, -⟩ := hmutual e he
        exact List.mem_map.2 ⟨f, hf, hkey⟩
      have hperm := (List.subperm_of_subset hkeys hsubset).perm_of_length_le (by simp [hlen])
      exact hperm.nodup_iff.1 hkeys
    refine ⟨ws, rfl, hlen, hmutual, fun f hf => ?_⟩
    obtain ⟨e, he, hkey, -⟩ := hpartner f hf
    obtain ⟨g, hg, hkey', hagrees⟩ := hmutual e he
    obtain rfl := List.inj_on_of_nodup_map hnodup hg hf (hkey'.trans hkey.symm)
    exact ⟨e, he, hkey, hagrees⟩
  | _ => simp [equal] at hto

/-- A relation of values whose parts are related likewise: equality of the terms, and agreement. -/
structure Partwise (R : Value → Value → Prop) : Prop where
  plain {v w : Value} : R v w → v.isPlain = true → w = v
  null {v : Value} : R v null → v = .null
  array {items : List Value} {w : Value} : R (array items) w →
    ∃ ws, w = .array ws ∧ List.Forall₂ R items ws
  map {entries : List (Value × Value)} {w : Value} : R (map entries) w →
    (∀ e ∈ entries, e.1.isPlain = true) → (entries.map Prod.fst).Nodup →
    ∃ ws, w = .map ws ∧ ws.length = entries.length ∧
      (∀ e ∈ entries, ∃ f ∈ ws, f.1 = e.1 ∧ R e.2 f.2) ∧
      ∀ f ∈ ws, ∃ e ∈ entries, f.1 = e.1 ∧ R e.2 f.2
  tuple {fields : List (String × Value)} {w : Value} : R (tuple fields) w →
    ∃ ws, w = .tuple ws ∧ List.Forall₂ (fun e f => f.1 = e.1 ∧ R e.2 f.2) fields ws

theorem partwise_eq : Partwise Eq where
  plain h _ := h.symm
  null h := h
  array := by
    rintro items w rfl
    exact ⟨items, rfl, List.forall₂_refl items⟩
  map := by
    rintro entries w rfl - -
    exact ⟨entries, rfl, rfl, fun e he => ⟨e, he, rfl, rfl⟩, fun e he => ⟨e, he, rfl, rfl⟩⟩
  tuple := by
    rintro fields w rfl
    exact ⟨fields, rfl, List.forall₂_same.2 fun _ _ => ⟨rfl, rfl⟩⟩

theorem partwise_agrees : Partwise Agrees where
  plain h hv := (eq_of_equal hv h.1).symm
  null h := (eq_of_equal rfl h.2).symm
  array := forall₂_of_agrees_array
  map := partners_of_agrees_map
  tuple := forall₂_of_agrees_tuple

end CellAbi.Value
