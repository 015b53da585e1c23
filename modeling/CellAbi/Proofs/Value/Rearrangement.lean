import Mathlib.Logic.Relation
import CellAbi.Proofs.Value.Equality

/-!
# Rearranged maps

The entries of a map stand in some order that does not matter.  A value is rearranged by putting the
entries of one of its maps in another order, be the map in an array, in a tuple, or in a key or a
value of another map.  Values whose maps have no two equal keys are equal if and only if one is got
from the other by rearranging it, one map after the other.

    equal a b = true ↔ ReflTransGen Rearranges a b                       (`equal_iff_rearranged`)
-/

namespace CellAbi.Value

open Relation

variable {a b v w : Value}

/-- The second value is the first one with the entries of one map, at any depth, in some order. -/
inductive Rearranges : Value → Value → Prop
  | entries {as bs : List (Value × Value)} (h : as.Perm bs) : Rearranges (map as) (map bs)
  | item {v w : Value} (h : Rearranges v w) (before after : List Value) :
    Rearranges (array (before ++ v :: after)) (array (before ++ w :: after))
  | key {k l : Value} (h : Rearranges k l) (v : Value) (before after : List (Value × Value)) :
    Rearranges (map (before ++ (k, v) :: after)) (map (before ++ (l, v) :: after))
  | value {v w : Value} (h : Rearranges v w) (k : Value) (before after : List (Value × Value)) :
    Rearranges (map (before ++ (k, v) :: after)) (map (before ++ (k, w) :: after))
  | field {v w : Value} (h : Rearranges v w) (name : String)
    (before after : List (String × Value)) :
    Rearranges (tuple (before ++ (name, v) :: after)) (tuple (before ++ (name, w) :: after))

/-! ## Rearranged values are equal -/

theorem forall₂_middle {α : Type} {R : α → α → Prop} (hrefl : ∀ a, R a a) {a b : α} (h : R a b)
    (before after : List α) : List.Forall₂ R (before ++ a :: after) (before ++ b :: after) :=
  List.rel_append (List.forall₂_same.2 fun a _ => hrefl a)
    (.cons h (List.forall₂_same.2 fun a _ => hrefl a))

/-- The entries agree. -/
def EntryAgrees (e f : Value × Value) : Prop := Agrees e.1 f.1 ∧ Agrees e.2 f.2

theorem entryAgrees_self (e : Value × Value) : EntryAgrees e e := ⟨agrees_self e.1, agrees_self e.2⟩

theorem agrees_map_of_forall₂ {as bs : List (Value × Value)} (h : List.Forall₂ EntryAgrees as bs) :
    Agrees (map as) (map bs) := by
  obtain ⟨hlen, hpairs⟩ := List.forall₂_iff_get.1 h
  refine agrees_map hlen.symm (fun e he => ?_) fun f hf => ?_
  · obtain ⟨i, hi, rfl⟩ := List.getElem_of_mem he
    exact ⟨_, List.get_mem bs ⟨i, hlen ▸ hi⟩, hpairs i hi _⟩
  · obtain ⟨i, hi, rfl⟩ := List.getElem_of_mem hf
    exact ⟨_, List.get_mem as ⟨i, hlen ▸ hi⟩, hpairs i _ hi⟩

/-- One map in another order makes no difference. -/
theorem Rearranges.agrees (h : Rearranges v w) : Agrees v w := by
  induction h with
  | entries h =>
    exact agrees_map h.length_eq.symm (fun e he => ⟨e, h.mem_iff.1 he, entryAgrees_self e⟩)
      fun e he => ⟨e, h.mem_iff.2 he, entryAgrees_self e⟩
  | @item v w _ before after ih =>
    have hmiddle : ∀ {v w : Value}, equal v w = true →
        equal (array (before ++ v :: after)) (array (before ++ w :: after)) = true := fun h =>
      equal_array_iff.2 (forall₂_middle (R := fun v w => equal v w = true) equal_self h before after)
    exact ⟨hmiddle ih.1, hmiddle ih.2⟩
  | key _ v before after ih =>
    exact agrees_map_of_forall₂ (forall₂_middle entryAgrees_self ⟨ih, agrees_self v⟩ before after)
  | value _ k before after ih =>
    exact agrees_map_of_forall₂ (forall₂_middle entryAgrees_self ⟨agrees_self k, ih⟩ before after)
  | field _ name before after ih =>
    have hself : ∀ e : String × Value, e.1 = e.1 ∧ equal e.2 e.2 = true := fun e =>
      ⟨rfl, equal_self e.2⟩
    exact ⟨equal_tuple_iff.2 (forall₂_middle hself ⟨rfl, ih.1⟩ before after),
      equal_tuple_iff.2 (forall₂_middle hself ⟨rfl, ih.2⟩ before after)⟩

theorem equal_of_rearranged (h : ReflTransGen Rearranges v w) : equal v w = true := by
  induction h with
  | refl => exact equal_self v
  | tail _ hstep ih => exact equal_trans ih hstep.agrees.1

/-! ## Equal values are rearranged -/

/-- Parts that are rearranged one by one, from the first to the last. -/
theorem reflTransGen_of_forall₂ {α β : Type} {r : β → β → Prop} {R : α → α → Prop} {f : List α → β}
    (hstep : ∀ before a b after, R a b →
      ReflTransGen r (f (before ++ a :: after)) (f (before ++ b :: after)))
    {as bs : List α} (h : List.Forall₂ R as bs) : ReflTransGen r (f as) (f bs) := by
  suffices ∀ before, ReflTransGen r (f (before ++ as)) (f (before ++ bs)) from this []
  induction h with
  | nil => exact fun before => .refl
  | @cons a b as bs hab _ ih =>
    intro before
    have hrest := ih (before ++ [b])
    rw [List.append_assoc, List.append_assoc] at hrest
    exact (hstep before a b as hab).trans hrest

theorem rearranged_array {as bs : List Value}
    (h : List.Forall₂ (ReflTransGen Rearranges) as bs) :
    ReflTransGen Rearranges (array as) (array bs) :=
  reflTransGen_of_forall₂ (fun before _ _ after hab =>
    hab.lift (fun v => array (before ++ v :: after)) fun _ _ h => .item h before after) h

theorem rearranged_map {as bs : List (Value × Value)}
    (h : List.Forall₂ (fun e f => ReflTransGen Rearranges e.1 f.1 ∧
      ReflTransGen Rearranges e.2 f.2) as bs) :
    ReflTransGen Rearranges (map as) (map bs) := by
  refine reflTransGen_of_forall₂ (fun before e f after hef => ?_) h
  have hkey : ReflTransGen Rearranges (map (before ++ (e.1, e.2) :: after))
      (map (before ++ (f.1, e.2) :: after)) :=
    hef.1.lift (fun k => map (before ++ (k, e.2) :: after)) fun _ _ h => .key h e.2 before after
  exact hkey.trans (hef.2.lift (fun v => map (before ++ (f.1, v) :: after)) fun _ _ h =>
    .value h f.1 before after)

theorem rearranged_tuple {as bs : List (String × Value)}
    (h : List.Forall₂ (fun e f => e.1 = f.1 ∧ ReflTransGen Rearranges e.2 f.2) as bs) :
    ReflTransGen Rearranges (tuple as) (tuple bs) := by
  refine reflTransGen_of_forall₂ (fun before e f after hef => ?_) h
  obtain ⟨name, v⟩ := e
  obtain ⟨name', w⟩ := f
  obtain ⟨rfl, hvw⟩ := hef
  exact hvw.lift (fun v => tuple (before ++ (name, v) :: after)) fun _ _ h =>
    .field h name before after

/-- Entries that go together one to one are brought into the same order first. -/
theorem rearranged_of_equal : ∀ {b : Value}, Unrepeated a → Unrepeated b → equal a b = true →
    ReflTransGen Rearranges a b := by
  induction a using parts_induction with
  | plain a ha =>
    intro b _ _ h
    rw [eq_of_equal ha h]
  | array as ih =>
    intro b hua hub h
    cases b with
    | array bs =>
      obtain ⟨hlen, hitems⟩ := List.forall₂_iff_get.1 (equal_array_iff.1 h)
      refine rearranged_array (List.forall₂_iff_get.2 ⟨hlen, fun i ha hb => ?_⟩)
      exact ih _ (List.get_mem ..) (hua.part (.item (List.get_mem ..) (.self _)))
        (hub.part (.item (List.get_mem ..) (.self _))) (hitems i ha hb)
    | _ => simp [equal] at h
  | map as ih =>
    intro b hua hub h
    cases b with
    | map bs =>
      obtain ⟨cs, hcs, hperm⟩ := exists_partners h hua (partsCommute hua hub)
      obtain ⟨hlen, hpairs⟩ := List.forall₂_iff_get.1 hcs
      refine (rearranged_map (List.forall₂_iff_get.2 ⟨hlen, fun i ha hc => ?_⟩)).tail
        (.entries hperm)
      have hmem := List.get_mem as ⟨i, ha⟩
      have hmem' := hperm.mem_iff.1 (List.get_mem cs ⟨i, hc⟩)
      obtain ⟨hkey, hvalue⟩ := hpairs i ha hc
      exact ⟨(ih _ hmem).1 (hua.part (.key hmem (.self _))) (hub.part (.key hmem' (.self _))) hkey.1,
        (ih _ hmem).2 (hua.part (.value hmem (.self _))) (hub.part (.value hmem' (.self _)))
          hvalue.1⟩
    | _ => simp [equal] at h
  | tuple as ih =>
    intro b hua hub h
    cases b with
    | tuple bs =>
      obtain ⟨hlen, hfields⟩ := List.forall₂_iff_get.1 (equal_tuple_iff.1 h)
      refine rearranged_tuple (List.forall₂_iff_get.2 ⟨hlen, fun i ha hb => ?_⟩)
      obtain ⟨hname, hvalue⟩ := hfields i ha hb
      exact ⟨hname, ih _ (List.get_mem ..) (hua.part (.field (List.get_mem ..) (.self _)))
        (hub.part (.field (List.get_mem ..) (.self _))) hvalue⟩
    | _ => simp [equal] at h

/-- Values whose maps have no two equal keys, at any depth, are equal iff one is the other with the
entries of its maps in another order. -/
theorem equal_iff_rearranged
    (ha : ∀ entries, Part (map entries) a → entries.Pairwise fun d e => equal d.1 e.1 = false)
    (hb : ∀ entries, Part (map entries) b → entries.Pairwise fun d e => equal d.1 e.1 = false) :
    equal a b = true ↔ ReflTransGen Rearranges a b :=
  ⟨rearranged_of_equal (.of_keys ha) (.of_keys hb), equal_of_rearranged⟩

/-- A map in a key and a map in a value, whose entries are given in the order of their keys or the
other way round. -/
def nested (flip : Bool) : Value :=
  let inner : Value := map (if flip then [(int 2, null), (int 1, null)]
    else [(int 1, null), (int 2, null)])
  map (if flip then [(int 0, null), (array [inner], tuple [("m", inner)])]
    else [(array [inner], tuple [("m", inner)]), (int 0, null)])

/-- Turned round at all depths. -/
theorem equal_iff_rearranged_nested :
    (∀ entries, Part (map entries) (nested false) →
        entries.Pairwise fun d e => equal d.1 e.1 = false) ∧
      (∀ entries, Part (map entries) (nested true) →
        entries.Pairwise fun d e => equal d.1 e.1 = false) ∧
      ReflTransGen Rearranges (nested false) (nested true) := by
  have hsound : Sound (nested false) := by
    simp [nested, Sound, SoundEntries, SoundItems, SoundFields, Sorted.Ascending, equal]
  have hsound' : Sound (nested true) := by
    simp [nested, Sound, SoundEntries, SoundItems, SoundFields, Sorted.Ascending, equal]
  have hequal : equal (nested false) (nested true) = true := by
    simp [nested, equal, equalItems, equalFields]
  exact ⟨hsound.regular.keys, hsound'.regular.keys,
    (equal_iff_rearranged hsound.regular.keys hsound'.regular.keys).1 hequal⟩

end CellAbi.Value
