import CellAbi.Proofs.Value.Agreement
import CellAbi.Proofs.Value.Proper

/-!
# Laws of equality

Equality of values is reflexive and transitive.  It is symmetric on values none of whose maps, at any
depth, has two equal entries: there, maps are equal only if their entries go together one to one.
Two equal entries of one map, though, may both go with the same entry of the other map, and what that
map has besides is not looked for.

    equal a b = true → equal b c = true → equal a c = true                          (`equal_trans`)
    Unrepeated a → Unrepeated b → equal a b = equal b a                              (`equal_comm`)
-/

namespace CellAbi.Value

variable {a b c v w : Value}

/-! ## Values by their parts -/

/-- What holds of plain values, and of composite ones if it holds of their parts, holds of all. -/
@[elab_as_elim]
theorem parts_induction {motive : Value → Prop} (plain : ∀ v, v.isPlain = true → motive v)
    (array : ∀ items, (∀ item ∈ items, motive item) → motive (array items))
    (map : ∀ entries : List (Value × Value), (∀ e ∈ entries, motive e.1 ∧ motive e.2) →
      motive (map entries))
    (tuple : ∀ fields : List (String × Value), (∀ e ∈ fields, motive e.2) →
      motive (tuple fields)) (v : Value) : motive v := by
  match v with
  | .array items => exact array items fun item h => parts_induction plain array map tuple item
  | .map entries =>
    exact map entries fun e h =>
      ⟨parts_induction plain array map tuple e.1, parts_induction plain array map tuple e.2⟩
  | .tuple fields => exact tuple fields fun e h => parts_induction plain array map tuple e.2
  | .null | .int _ | .bool _ | .string _ | .bytes _ | .cell _ | .address _ => exact plain _ rfl
termination_by sizeOf v
decreasing_by
  · have := List.sizeOf_lt_of_mem h
    simp only [Value.array.sizeOf_spec]
    omega
  · have := sizeOf_key_lt h
    simp only [Value.map.sizeOf_spec]
    omega
  · have := sizeOf_value_lt h
    simp only [Value.map.sizeOf_spec]
    omega
  · have := sizeOf_field_lt h
    simp only [Value.tuple.sizeOf_spec]
    omega

/-! ## Transitivity -/

/-- By the parts of the value in the middle, since equality of maps compares the parts in the
opposite order. -/
theorem equal_trans : ∀ {a c : Value}, equal a b = true → equal b c = true →
    equal a c = true := by
  induction b using parts_induction with
  | plain b hb =>
    intro a c hab hbc
    rwa [← eq_of_equal hb hbc]
  | array bs ih =>
    intro a c hab hbc
    cases a with
    | array as =>
      cases c with
      | array cs =>
        obtain ⟨hlen, hab⟩ := List.forall₂_iff_get.1 (equal_array_iff.1 hab)
        obtain ⟨hlen', hbc⟩ := List.forall₂_iff_get.1 (equal_array_iff.1 hbc)
        refine equal_array_iff.2 (List.forall₂_iff_get.2 ⟨hlen.trans hlen', fun i ha hc => ?_⟩)
        exact ih _ (List.get_mem bs ⟨i, hlen ▸ ha⟩) (hab i ha _) (hbc i _ hc)
      | _ => simp [equal] at hbc
    | _ => simp [equal] at hab
  | map bs ih =>
    intro a c hab hbc
    cases a with
    | map as =>
      cases c with
      | map cs =>
        obtain ⟨hlen, hab⟩ := equal_map_iff.1 hab
        obtain ⟨hlen', hbc⟩ := equal_map_iff.1 hbc
        refine equal_map_iff.2 ⟨hlen.trans hlen', fun e he => ?_⟩
        obtain ⟨f, hf, hkey, hvalue⟩ := hab e he
        obtain ⟨g, hg, hkey', hvalue'⟩ := hbc f hf
        exact ⟨g, hg, (ih f hf).1 hkey' hkey, (ih f hf).2 hvalue' hvalue⟩
      | _ => simp [equal] at hbc
    | _ => simp [equal] at hab
  | tuple bs ih =>
    intro a c hab hbc
    cases a with
    | tuple as =>
      cases c with
      | tuple cs =>
        obtain ⟨hlen, hab⟩ := List.forall₂_iff_get.1 (equal_tuple_iff.1 hab)
        obtain ⟨hlen', hbc⟩ := List.forall₂_iff_get.1 (equal_tuple_iff.1 hbc)
        refine equal_tuple_iff.2 (List.forall₂_iff_get.2 ⟨hlen.trans hlen', fun i ha hc => ?_⟩)
        have hb : i < bs.length := hlen ▸ ha
        obtain ⟨hname, hvalue⟩ := hab i ha hb
        obtain ⟨hname', hvalue'⟩ := hbc i hb hc
        exact ⟨hname.trans hname', ih _ (List.get_mem bs ⟨i, hb⟩) hvalue hvalue'⟩
      | _ => simp [equal] at hbc
    | _ => simp [equal] at hab

theorem Agrees.symm (h : Agrees v w) : Agrees w v := ⟨h.2, h.1⟩

theorem Agrees.trans (h : Agrees a b) (h' : Agrees b c) : Agrees a c :=
  ⟨equal_trans h.1 h'.1, equal_trans h'.2 h.2⟩

/-! ## Entries one to one -/

/-- Where each of some things has a partner, and no two of them share one, the partners are all of
as many things. -/
theorem exists_forall₂_perm {α β : Type} {R : α → β → Prop} {as : List α} {bs : List β}
    (hlen : as.length = bs.length) (hpartner : ∀ a ∈ as, ∃ b ∈ bs, R a b)
    (hapart : as.Pairwise fun a a' => ∀ b ∈ bs, R a b → ¬ R a' b) :
    ∃ cs, List.Forall₂ R as cs ∧ cs.Perm bs := by
  induction as generalizing bs with
  | nil =>
    obtain rfl := List.length_eq_zero_iff.1 hlen.symm
    exact ⟨[], .nil, .refl _⟩
  | cons a as ih =>
    obtain ⟨⟨b, hb, hab⟩, hpartner⟩ := List.forall_mem_cons.1 hpartner
    obtain ⟨hhead, hapart⟩ := List.pairwise_cons.1 hapart
    obtain ⟨before, after, rfl⟩ := List.append_of_mem hb
    have hmiddle : (before ++ b :: after).Perm (b :: (before ++ after)) := List.perm_middle
    have hrest : ∀ a' ∈ as, ∃ b' ∈ before ++ after, R a' b' := by
      intro a' ha'
      obtain ⟨b', hb', hab'⟩ := hpartner a' ha'
      rcases List.mem_cons.1 (hmiddle.mem_iff.1 hb') with rfl | hb'
      · exact absurd hab' (hhead a' ha' b' hb hab)
      · exact ⟨b', hb', hab'⟩
    have hlen' : as.length = (before ++ after).length := by
      have := hmiddle.length_eq
      rw [← hlen, List.length_cons, List.length_cons] at this
      omega
    obtain ⟨cs, hcs, hperm⟩ := ih hlen' hrest (hapart.imp fun h b' hb' =>
      h b' (hmiddle.mem_iff.2 (List.mem_cons_of_mem b hb')))
    exact ⟨b :: cs, .cons hab hcs, (hperm.cons b).trans hmiddle.symm⟩

/-- No map, at any depth, has two equal entries. -/
def Unrepeated (v : Value) : Prop :=
  ∀ entries, Part (map entries) v →
    entries.Pairwise fun d e => ¬ (equal d.1 e.1 = true ∧ equal d.2 e.2 = true)

/-- Entries with different keys are different. -/
theorem Unrepeated.of_keys
    (h : ∀ entries, Part (map entries) v → entries.Pairwise fun d e => equal d.1 e.1 = false) :
    Unrepeated v := by
  intro entries he
  refine (h entries he).imp fun {d e} hne hequal => ?_
  exact Bool.false_ne_true (hne.symm.trans hequal.1)

theorem Unrepeated.part (h : Unrepeated v) (hw : Part w v) : Unrepeated w := fun entries he =>
  h entries (he.trans hw)

/-- Equality of the parts of two maps does not depend on which map comes first. -/
def PartsCommute (as bs : List (Value × Value)) : Prop :=
  ∀ e ∈ as, ∀ f ∈ bs, equal e.1 f.1 = equal f.1 e.1 ∧ equal e.2 f.2 = equal f.2 e.2

theorem PartsCommute.symm {as bs : List (Value × Value)} (h : PartsCommute as bs) :
    PartsCommute bs as := fun f hf e he => ⟨(h e he f hf).1.symm, (h e he f hf).2.symm⟩

/-- The entries of a map that has no two equal ones go together one to one with those of a map that
it is equal to. -/
theorem exists_partners {as bs : List (Value × Value)} (h : equal (map as) (map bs) = true)
    (hunrepeated : Unrepeated (map as)) (hcomm : PartsCommute as bs) :
    ∃ cs, List.Forall₂ (fun e f => Agrees e.1 f.1 ∧ Agrees e.2 f.2) as cs ∧ cs.Perm bs := by
  obtain ⟨hlen, hpartner⟩ := equal_map_iff.1 h
  refine exists_forall₂_perm hlen (fun e he => ?_) ?_
  · obtain ⟨f, hf, hkey, hvalue⟩ := hpartner e he
    obtain ⟨hk, hv⟩ := hcomm e he f hf
    exact ⟨f, hf, ⟨hk ▸ hkey, hkey⟩, ⟨hv ▸ hvalue, hvalue⟩⟩
  · refine (hunrepeated as (.self _)).imp fun hne f _ hd he => hne ?_
    exact ⟨(hd.1.trans he.1.symm).1, (hd.2.trans he.2.symm).1⟩

/-! ## Symmetry -/

/-- Two maps that are equal in one order are so in the other. -/
theorem equal_map_symm {as bs : List (Value × Value)} (h : equal (map as) (map bs) = true)
    (hunrepeated : Unrepeated (map as)) (hcomm : PartsCommute as bs) :
    equal (map bs) (map as) = true := by
  obtain ⟨cs, hcs, hperm⟩ := exists_partners h hunrepeated hcomm
  refine equal_map_iff.2 ⟨(equal_map_iff.1 h).1.symm, fun f hf => ?_⟩
  obtain ⟨i, hi, rfl⟩ := List.getElem_of_mem (hperm.mem_iff.2 hf)
  obtain ⟨hlen, hpairs⟩ := List.forall₂_iff_get.1 hcs
  have hpair := hpairs i (hlen ▸ hi) hi
  exact ⟨_, List.get_mem as ⟨i, hlen ▸ hi⟩, hpair.1.1, hpair.2.1⟩

/-- On values without repeated entries, equality does not depend on which one comes first. -/
theorem equal_comm : ∀ {b : Value}, Unrepeated a → Unrepeated b → equal a b = equal b a := by
  induction a using parts_induction with
  | plain a ha =>
    intro b _ _
    refine Bool.eq_iff_iff.2 ⟨fun h => ?_, fun h => ?_⟩
    · rw [eq_of_equal ha h]
      exact equal_self b
    · rw [eq_of_equal_plain ha h]
      exact equal_self a
  | array as ih =>
    intro b hua hub
    cases b with
    | array bs =>
      have hitems : ∀ i ha hb, equal (as.get ⟨i, ha⟩) (bs.get ⟨i, hb⟩) =
          equal (bs.get ⟨i, hb⟩) (as.get ⟨i, ha⟩) := fun i ha hb =>
        ih _ (List.get_mem ..) (hua.part (.item (List.get_mem ..) (.self _)))
          (hub.part (.item (List.get_mem ..) (.self _)))
      rw [Bool.eq_iff_iff, equal_array_iff, equal_array_iff, List.forall₂_iff_get,
        List.forall₂_iff_get]
      constructor
      · rintro ⟨hlen, h⟩
        exact ⟨hlen.symm, fun i hb ha => hitems i ha hb ▸ h i ha hb⟩
      · rintro ⟨hlen, h⟩
        exact ⟨hlen.symm, fun i ha hb => (hitems i ha hb).symm ▸ h i hb ha⟩
    | _ => simp [equal]
  | map as ih =>
    intro b hua hub
    cases b with
    | map bs =>
      have hcomm : PartsCommute as bs := fun e he f hf =>
        ⟨(ih e he).1 (hua.part (.key he (.self _))) (hub.part (.key hf (.self _))),
          (ih e he).2 (hua.part (.value he (.self _))) (hub.part (.value hf (.self _)))⟩
      exact Bool.eq_iff_iff.2 ⟨fun h => equal_map_symm h hua hcomm,
        fun h => equal_map_symm h hub hcomm.symm⟩
    | _ => simp [equal]
  | tuple as ih =>
    intro b hua hub
    cases b with
    | tuple bs =>
      have hfields : ∀ i ha hb, equal (as.get ⟨i, ha⟩).2 (bs.get ⟨i, hb⟩).2 =
          equal (bs.get ⟨i, hb⟩).2 (as.get ⟨i, ha⟩).2 := fun i ha hb =>
        ih _ (List.get_mem ..) (hua.part (.field (List.get_mem ..) (.self _)))
          (hub.part (.field (List.get_mem ..) (.self _)))
      rw [Bool.eq_iff_iff, equal_tuple_iff, equal_tuple_iff, List.forall₂_iff_get,
        List.forall₂_iff_get]
      constructor
      · rintro ⟨hlen, h⟩
        exact ⟨hlen.symm, fun i hb ha => ⟨(h i ha hb).1.symm, hfields i ha hb ▸ (h i ha hb).2⟩⟩
      · rintro ⟨hlen, h⟩
        exact ⟨hlen.symm, fun i ha hb =>
          ⟨(h i hb ha).1.symm, (hfields i ha hb).symm ▸ (h i hb ha).2⟩⟩
    | _ => simp [equal]

theorem partsCommute {as bs : List (Value × Value)} (ha : Unrepeated (map as))
    (hb : Unrepeated (map bs)) : PartsCommute as bs := fun _ he _ hf =>
  ⟨equal_comm (ha.part (.key he (.self _))) (hb.part (.key hf (.self _))),
    equal_comm (ha.part (.value he (.self _))) (hb.part (.value hf (.self _)))⟩

/-- Every value is equal to itself, and two values that are equal to one in the middle are equal;
and where the maps of both values have no two equal entries, at any depth, equality is mutual. -/
theorem equal_laws (a b c : Value) :
    equal a a = true ∧ (equal a b = true → equal b c = true → equal a c = true) ∧
      (Unrepeated a → Unrepeated b → equal a b = true → equal b a = true) :=
  ⟨equal_self a, equal_trans, fun ha hb h => equal_comm ha hb ▸ h⟩

/-- One entry twice. -/
def twice : Value := map [(int 1, bool true), (int 1, bool true)]

/-- That entry and another one. -/
def extended : Value := map [(int 1, bool true), (int 2, bool false)]

theorem equal_laws_extended :
    Unrepeated extended ∧ Unrepeated (map [(int 2, bool false), (int 1, bool true)]) ∧
      equal extended (map [(int 2, bool false), (int 1, bool true)]) = true ∧
      equal (map [(int 2, bool false), (int 1, bool true)]) extended = true := by
  have hsound : Sound extended := by simp [extended, Sound, SoundEntries, equal]
  have hsound' : Sound (map [(int 2, bool false), (int 1, bool true)]) := by
    simp [Sound, SoundEntries, equal]
  have hu := Unrepeated.of_keys hsound.regular.keys
  have hu' := Unrepeated.of_keys hsound'.regular.keys
  have hequal : equal extended (map [(int 2, bool false), (int 1, bool true)]) = true := by
    simp [extended, equal]
  exact ⟨hu, hu', hequal, (equal_laws extended _ extended).2.2 hu hu' hequal⟩

/-- Both entries of the one map go with the same entry of the other. -/
theorem equal_twice_extended :
    equal twice extended = true ∧ equal extended twice = false := by
  simp [twice, extended, equal]

end CellAbi.Value
