import Mathlib.Data.List.Infix
import Mathlib.Data.List.TakeWhile
import CellAbi.Text.Blank

/-!
# Prefixes, suffixes and blanks around a text

What is cut off a text at either end, and what trimming drops: blanks, and only those at the ends.

    p.isPrefixOf? d = some rest ↔ d = p ++ rest                             (`isPrefixOf?_eq_some`)
    p.isSuffixOf? d = some rest ↔ d = rest ++ p                             (`isSuffixOf?_eq_some`)
    trim (front ++ d ++ back) = trim d    for blank `front` and `back`                  (`trim_pad`)
-/

namespace CellAbi.Text

variable {p d rest front back : List Char}

/-! ## Prefixes and suffixes -/

theorem isPrefixOf?_eq_some : p.isPrefixOf? d = some rest ↔ d = p ++ rest :=
  List.isPrefixOf?_eq_some_iff_append_eq.trans eq_comm

theorem isSuffixOf?_eq_some : p.isSuffixOf? d = some rest ↔ d = rest ++ p :=
  List.isSuffixOf?_eq_some_iff_append_eq.trans eq_comm

theorem isSuffixOf?_eq_none {c x : Char} (hd : d.getLast? = some c) (hp : p.getLast? = some x)
    (hne : c ≠ x) : p.isSuffixOf? d = none := by
  refine Option.eq_none_iff_forall_ne_some.2 fun rest h => hne ?_
  rw [isSuffixOf?_eq_some.1 h, List.getLast?_append, hp] at hd
  exact (Option.some.inj hd).symm

/-! ## Trimming -/

/-- All characters are blank. -/
def Blank (text : List Char) : Prop := ∀ c ∈ text, isBlank c = true

theorem dropWhile_isBlank (h : Blank front) (d : List Char) :
    (front ++ d).dropWhile isBlank = d.dropWhile isBlank := List.dropWhile_append_of_pos h

/-- Blanks at the ends make no difference. -/
theorem trim_pad (hfront : Blank front) (hback : Blank back) (d : List Char) :
    trim (front ++ d ++ back) = trim d := by
  have hreverse : Blank back.reverse := fun c hc => hback c (List.mem_reverse.1 hc)
  rw [trim, List.append_assoc, dropWhile_isBlank hfront, List.dropWhile_append]
  split
  · next hd =>
    rw [← List.append_nil back, dropWhile_isBlank hback, trim, List.isEmpty_iff.1 hd]
    rfl
  · rw [List.reverse_append, dropWhile_isBlank hreverse, trim]

theorem exists_eq_pad (d : List Char) :
    ∃ front back, Blank front ∧ Blank back ∧ d = front ++ trim d ++ back := by
  refine ⟨d.takeWhile isBlank, ((d.dropWhile isBlank).reverse.takeWhile isBlank).reverse,
    fun c hc => List.mem_takeWhile_imp hc,
    fun c hc => List.mem_takeWhile_imp (List.mem_reverse.1 hc), ?_⟩
  rw [trim, List.append_assoc, ← List.reverse_append, List.takeWhile_append_dropWhile,
    List.reverse_reverse, List.takeWhile_append_dropWhile]

theorem dropWhile_of_head {c : Char} {l : List Char} (hhead : l.head? = some c)
    (hc : isBlank c = false) : l.dropWhile isBlank = l := by
  cases l with
  | nil => cases hhead
  | cons x l =>
    obtain rfl := Option.some.inj hhead
    exact List.dropWhile_cons_of_neg (by rw [hc]; exact Bool.false_ne_true)

/-- A text that neither starts nor ends with a blank is left as it is. -/
theorem trim_of_ends {c x : Char} (hhead : d.head? = some c) (hc : isBlank c = false)
    (hlast : d.getLast? = some x) (hx : isBlank x = false) : trim d = d := by
  have hreverse : d.reverse.head? = some x := by rw [List.head?_reverse, hlast]
  rw [trim, dropWhile_of_head hhead hc, dropWhile_of_head hreverse hx, List.reverse_reverse]

/-- Before a text that ends with no blank, only the blanks in front are dropped. -/
theorem exists_trim_append {c x : Char} (hhead : p.head? = some c) (hc : isBlank c = false)
    (hlast : p.getLast? = some x) (hx : isBlank x = false) (d : List Char) :
    ∃ d', trim (d ++ p) = d' ++ p ∧ trim d' = trim d := by
  have hsplit : d = d.takeWhile isBlank ++ d.dropWhile isBlank :=
    List.takeWhile_append_dropWhile.symm
  have hfront : Blank (d.takeWhile isBlank) := fun c hc => List.mem_takeWhile_imp hc
  have hnil : Blank [] := fun _ h => absurd h List.not_mem_nil
  refine ⟨d.dropWhile isBlank, ?_, ?_⟩
  · have htrim := trim_pad hfront hnil (d.dropWhile isBlank ++ p)
    rw [List.append_nil, ← List.append_assoc, ← hsplit] at htrim
    rw [htrim]
    have hend : (d.dropWhile isBlank ++ p).getLast? = some x := by
      rw [List.getLast?_append, hlast]
      rfl
    cases hd : d.dropWhile isBlank with
    | nil => exact trim_of_ends hhead hc hlast hx
    | cons y l =>
      rw [hd] at hend
      refine trim_of_ends (c := y) rfl ?_ hend hx
      have hy := List.head?_dropWhile_not isBlank d
      rw [hd] at hy
      exact hy
  · have htrim := trim_pad hfront hnil (d.dropWhile isBlank)
    rw [List.append_nil, ← hsplit] at htrim
    exact htrim.symm

end CellAbi.Text
