import CellAbi.Native.Type
import CellAbi.Proofs.Bindings.Expression
import CellAbi.Proofs.Bindings.Index

/-!
# Lines of generated source

Generated source, cut at its line breaks, is the lines that it was put together from, as long as no
line has a break inside.  Only raw names can bring one: quoting escapes it, and neither the
expression of a parameter nor the text of a type has one.

    Unbroken (quoted text)     Unbroken p.expression     IsNative type.toText
    reader [] = none → (∀ text ∈ textsOf body, Unbroken text) →
      ((toText body).toList.splitOn '\n').filterMap (fun line => reader (unindent line)) =
        (textsOf body).filterMap fun text => reader (unindent text.toList)
                                                                        (`filterMap_splitOn`)
-/

namespace CellAbi

/-! ## Texts without line breaks -/

/-- The text has no line break. -/
def Unbroken (text : String) : Prop := '\n' ∉ text.toList

instance : DecidablePred Unbroken := fun text => inferInstanceAs (Decidable ('\n' ∉ text.toList))

@[simp]
theorem unbroken_append {a b : String} : Unbroken (a ++ b) ↔ Unbroken a ∧ Unbroken b := by
  rw [Unbroken, String.toList_append, List.mem_append, not_or]
  rfl

/-- What holds of all characters of the texts and of what stands between them. -/
theorem forall_mem_intercalate {P : Char → Prop} {separator : String} {texts : List String}
    (hseparator : ∀ c ∈ separator.toList, P c) (h : ∀ text ∈ texts, ∀ c ∈ text.toList, P c) :
    ∀ c ∈ (separator.intercalate texts).toList, P c := by
  induction texts with
  | nil => exact nofun
  | cons text rest ih =>
    obtain ⟨htext, hrest⟩ := List.forall_mem_cons.1 h
    cases rest with
    | nil => rwa [String.intercalate_singleton]
    | cons next rest =>
      rw [String.intercalate_cons_cons, String.toList_append, String.toList_append,
        List.forall_mem_append, List.forall_mem_append]
      exact ⟨⟨htext, hseparator⟩, ih hrest⟩

theorem unbroken_intercalate {separator : String} {texts : List String}
    (hseparator : Unbroken separator) (h : ∀ text ∈ texts, Unbroken text) :
    Unbroken (separator.intercalate texts) := by
  have hne : ∀ c ∈ (separator.intercalate texts).toList, c ≠ '\n' :=
    forall_mem_intercalate (fun c hc heq => hseparator (heq ▸ hc))
      fun text htext c hc heq => h text htext (heq ▸ hc)
  exact fun hmem => hne _ hmem rfl

theorem Text.newline_notMem_quoteChar (c : Char) : '\n' ∉ quoteChar '"' c := by
  have hdigits : '\n' ∉ Nat.toDigits 16 c.toNat := by
    intro hmem
    obtain ⟨d, hd, heq⟩ := exists_digitChar_of_mem hmem
    have hall : ∀ d < 16, '\n' ≠ Nat.digitChar d := by decide
    exact hall d hd heq
  unfold quoteChar
  split
  · next h =>
    rw [Bool.or_eq_true, beq_iff_eq, beq_iff_eq] at h
    obtain rfl | rfl := h <;> decide
  split
  · decide
  split
  · decide
  split
  · decide
  split
  · decide
  next hbreak =>
  split
  · rw [List.mem_append, List.mem_append, not_or, not_or]
    exact ⟨⟨by decide, hdigits⟩, by decide⟩
  · rw [List.mem_singleton]
    exact fun heq => hbreak (beq_iff_eq.2 heq.symm)

@[simp]
theorem unbroken_quoted (text : String) : Unbroken (Text.quoted text) := by
  rw [Unbroken, Text.toList_quoted, List.mem_cons, List.mem_append, List.mem_flatMap]
  rintro (h | ⟨c, -, hc⟩ | h)
  · cases h
  · exact Text.newline_notMem_quoteChar c hc
  · exact absurd h (by decide)

namespace Param

mutual

@[simp]
theorem unbroken_expression : ∀ p : Param, Unbroken p.expression
  | ⟨name, type, components, init⟩ => by
    rw [expression_mk]
    simp only [unbroken_append, unbroken_quoted]
    exact ⟨⟨⟨⟨⟨by decide, trivial⟩, by decide⟩, trivial⟩, by decide⟩,
      unbroken_componentsExpression components⟩

theorem unbroken_componentsExpression : ∀ ps : Option (List Param),
    Unbroken (componentsExpression ps)
  | none => nofun
  | some ps => by
    rw [componentsExpression_some]
    simp only [unbroken_append]
    exact ⟨⟨by decide, unbroken_intercalate (by decide) (unbroken_expressions ps)⟩, by decide⟩

theorem unbroken_expressions : ∀ ps : List Param, ∀ text ∈ expressions ps, Unbroken text
  | [] => nofun
  | p :: ps => by
    rw [expressions_cons, List.forall_mem_cons]
    exact ⟨unbroken_expression p, unbroken_expressions ps⟩

end

end Param

/-! ## Texts of native types -/

/-- The characters of native types. -/
def nativeChars : List Char := [
  'B', 'i', 'g', 'I', 'n', 't', 'u', '8', 'b', 'o', 'l', 'S', 'r', 'A', 'd', 'e', 's', 'O', 'p',
  'V', 'c', 'C', 'a', 'T', 'M', '<', '>', '(', ')', ',', ' ']

/-- The text has no other characters. -/
def IsNative (text : String) : Prop := ∀ c ∈ text.toList, c ∈ nativeChars

instance : DecidablePred IsNative :=
  fun text => inferInstanceAs (Decidable (∀ c ∈ text.toList, c ∈ nativeChars))

theorem isNative_append {a b : String} : IsNative (a ++ b) ↔ IsNative a ∧ IsNative b := by
  rw [IsNative, String.toList_append, List.forall_mem_append]
  rfl

theorem KeyType.isNative_toText (type : KeyType) : IsNative type.toText := by
  induction type with
  | integer | byte | bool | text | address | standardAddress => exact by decide
  | option type ih => exact isNative_append.2 ⟨isNative_append.2 ⟨by decide, ih⟩, by decide⟩
  | list element ih => exact isNative_append.2 ⟨isNative_append.2 ⟨by decide, ih⟩, by decide⟩

namespace NativeType

mutual

theorem isNative_toText : ∀ type : NativeType, IsNative type.toText
  | integer | byte | bool | text | cell | address | standardAddress | value => by decide
  | option type => by
    rw [toText]
    exact isNative_append.2 ⟨isNative_append.2 ⟨by decide, isNative_toText type⟩, by decide⟩
  | list element => by
    rw [toText]
    exact isNative_append.2 ⟨isNative_append.2 ⟨by decide, isNative_toText element⟩, by decide⟩
  | map key type => by
    rw [toText]
    simp only [isNative_append]
    exact ⟨⟨⟨⟨by decide, key.isNative_toText⟩, by decide⟩, isNative_toText type⟩, by decide⟩
  | tuple types => by
    rw [toText]
    simp only [isNative_append]
    exact ⟨⟨by decide, forall_mem_intercalate (by decide) (isNative_toTexts types)⟩, by decide⟩

theorem isNative_toTexts : ∀ types : List NativeType, ∀ text ∈ toTexts types, IsNative text
  | [] => nofun
  | type :: rest => by
    rw [toTexts, List.forall_mem_cons]
    exact ⟨isNative_toText type, isNative_toTexts rest⟩

end

theorem unbroken_toText (type : NativeType) : Unbroken type.toText :=
  fun h => absurd (type.isNative_toText _ h) (by decide)

end NativeType

/-! ## Lines and their indentation -/

namespace Source

mutual

/-- The lines without their indentation. -/
def texts : Source → List String
  | line text => [text]
  | indented body => textsOf body

def textsOf : List Source → List String
  | [] => []
  | s :: rest => texts s ++ textsOf rest

end

theorem textsOf_append (a b : List Source) : textsOf (a ++ b) = textsOf a ++ textsOf b := by
  induction a with
  | nil => rfl
  | cons s a ih => rw [List.cons_append, textsOf, textsOf, ih, List.append_assoc]

theorem textsOf_map_line {α : Type} (g : α → String) (l : List α) :
    textsOf (l.map fun a => line (g a)) = l.map g := by
  induction l with
  | nil => rfl
  | cons a l ih =>
    rw [List.map_cons, List.map_cons, textsOf, ih]
    rfl

/-- A line without the blanks in front of it. -/
def unindent (cs : List Char) : List Char := cs.dropWhile (· == ' ')

theorem unindent_replicate (n : Nat) (cs : List Char) :
    unindent (List.replicate n ' ' ++ cs) = unindent cs :=
  List.dropWhile_append_of_pos fun c hc => by rw [List.eq_of_mem_replicate hc]; rfl

mutual

theorem unindent_lines (depth : Nat) : ∀ s : Source,
    (lines depth s).map (fun line => unindent line.toList) =
      (texts s).map fun text => unindent text.toList
  | line text => by
    rw [lines, texts, List.map_singleton, List.map_singleton]
    split
    · next h => rw [String.isEmpty_iff.1 h]
    · rw [String.toList_append, String.toList_ofList, unindent_replicate]
  | indented body => unindent_linesOf (depth + 1) body

theorem unindent_linesOf (depth : Nat) : ∀ body : List Source,
    (linesOf depth body).map (fun line => unindent line.toList) =
      (textsOf body).map fun text => unindent text.toList
  | [] => rfl
  | s :: rest => by
    rw [linesOf, textsOf, List.map_append, List.map_append, unindent_lines depth s,
      unindent_linesOf depth rest]

end

mutual

theorem unbroken_lines (depth : Nat) : ∀ s : Source, (∀ text ∈ texts s, Unbroken text) →
    ∀ line ∈ lines depth s, Unbroken line
  | line text => fun h => by
    rw [lines, List.forall_mem_singleton]
    split
    · exact nofun
    · refine unbroken_append.2 ⟨?_, h text List.mem_cons_self⟩
      rw [Unbroken, String.toList_ofList]
      exact fun hmem => absurd (List.eq_of_mem_replicate hmem) (by decide)
  | indented body => fun h => unbroken_linesOf (depth + 1) body h

theorem unbroken_linesOf (depth : Nat) : ∀ body : List Source,
    (∀ text ∈ textsOf body, Unbroken text) → ∀ line ∈ linesOf depth body, Unbroken line
  | [] => fun _ => nofun
  | s :: rest => fun h => by
    rw [textsOf, List.forall_mem_append] at h
    rw [linesOf, List.forall_mem_append]
    exact ⟨unbroken_lines depth s h.1, unbroken_linesOf depth rest h.2⟩

end

/-- What a reader of lines makes of a text, it makes of the lines that the text was put together
from. -/
theorem filterMap_splitOn {α : Type} {reader : List Char → Option α} {body : List Source}
    (hreader : reader [] = none) (h : ∀ text ∈ textsOf body, Unbroken text) :
    ((toText body).toList.splitOn '\n').filterMap (fun line => reader (unindent line)) =
      (textsOf body).filterMap fun text => reader (unindent text.toList) := by
  have hmap (texts : List String) : texts.filterMap (fun text => reader (unindent text.toList)) =
      (texts.map fun text => unindent text.toList).filterMap reader := by
    rw [List.filterMap_map]
    rfl
  have hlast : [[]].filterMap (fun line => reader (unindent line)) = [] :=
    List.filterMap_eq_nil_iff.2 fun line hline => by
      rw [List.mem_singleton.1 hline]
      exact hreader
  rw [splitOn_toText (unbroken_linesOf 0 body h), List.filterMap_append, hlast, List.append_nil,
    List.filterMap_map]
  show (linesOf 0 body).filterMap (fun line => reader (unindent line.toList)) = _
  rw [hmap, hmap, unindent_linesOf]

end Source

end CellAbi
