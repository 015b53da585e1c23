import CellAbi.Proofs.Bindings.Lines
import Mathlib.Data.List.DropRight

/-!
# Landmarks of generated source

Three kinds of lines tell what a generated module has: one declares a struct, one declares a method,
and one puts the initial state of the client into a message.  No other line of a module can be taken
for one of these, whatever names and types its schema has: no field or argument has a blank in its
name, and every other raw name stands behind a fixed word.

    ofText? ("pub struct " ++ name ++ " {") = some (struct name)                  (`ofText?_struct`)
    ofText? ("pub async fn " ++ name ++ "(") = some (method name)                 (`ofText?_method`)
    isSettled lineWords cs = true → ofLine? (unindent (cs ++ rest)) = none       (`ofLine?_settled`)
-/

namespace CellAbi

open Source

/-! ## Reading a line -/

/-- What a line of generated source tells. -/
inductive Landmark where
  | struct (name : String)
  | method (name : String)
  /-- The initial state is put into a message. -/
  | attachment
deriving DecidableEq

namespace Landmark

/-- The name that ends at the last such mark. -/
def nameBefore (mark : Char) (cs : List Char) : String :=
  String.ofList (cs.rdropWhile (· != mark)).dropLast

/-- Reads a line that is not indented.  The parenthesis that opens the arguments of a method is the
last one on its line. -/
def ofLine? (line : List Char) : Option Landmark :=
  (("pub struct ".toList.isPrefixOf? line).map fun rest => struct (nameBefore ' ' rest)) <|>
  (("pub fn ".toList.isPrefixOf? line).map fun rest => method (nameBefore '(' rest)) <|>
  (("pub async fn ".toList.isPrefixOf? line).map fun rest => method (nameBefore '(' rest)) <|>
  if line = "message = message.with_init(init.clone());".toList then some attachment else none

def ofText? (text : String) : Option Landmark := ofLine? (unindent text.toList)

/-- The struct that is declared. -/
def struct? : Landmark → Option String
  | struct name => some name
  | _ => none

/-- The method that is declared. -/
def method? : Landmark → Option String
  | method name => some name
  | _ => none

theorem nameBefore_append {mark : Char} {rest : List Char} (h : mark ∉ rest) (name : String) :
    nameBefore mark (name.toList ++ mark :: rest) = name := by
  have hrest : ∀ c ∈ rest.reverse, (c != mark) = true := fun c hc =>
    bne_iff_ne.2 fun heq => h (heq ▸ List.mem_reverse.1 hc)
  have hmark : (mark :: name.toList.reverse).dropWhile (· != mark) = mark :: name.toList.reverse :=
    List.dropWhile_cons_of_neg (by rw [bne_self_eq_false]; exact Bool.false_ne_true)
  rw [nameBefore, List.rdropWhile, List.reverse_append, List.reverse_cons, List.append_assoc,
    List.dropWhile_append_of_pos hrest, List.singleton_append, hmark, List.reverse_cons,
    List.reverse_reverse, List.dropLast_concat, String.ofList_toList]

theorem ofText?_struct (name : String) :
    ofText? ("pub struct " ++ name ++ " \x7b") = some (struct name) := by
  have hname : nameBefore ' ' (name.toList ++ [' ', '\x7b']) = name :=
    nameBefore_append (by decide) name
  rw [ofText?, String.toList_append, String.toList_append, List.append_assoc]
  exact congrArg (fun name => some (struct name)) hname

theorem ofText?_method (name : String) :
    ofText? ("pub async fn " ++ name ++ "(") = some (method name) := by
  have hname : nameBefore '(' (name.toList ++ ['(']) = name := nameBefore_append (by decide) name
  rw [ofText?, String.toList_append, String.toList_append, List.append_assoc]
  exact congrArg (fun name => some (method name)) hname

/-! ## Lines without a landmark -/

theorem isPrefixOf?_eq_none {p line : List Char} (h : ¬ p <+: line) : p.isPrefixOf? line = none :=
  Option.eq_none_iff_forall_ne_some.2 fun rest hrest =>
    h ⟨rest, (Text.isPrefixOf?_eq_some.1 hrest).symm⟩

/-- Every landmark begins with one of these words. -/
theorem ofLine?_eq_none {line : List Char} (hpub : ¬ ['p', 'u', 'b', ' '] <+: line)
    (hmessage : ¬ ['m', 'e', 's', 's', 'a', 'g', 'e', ' '] <+: line) : ofLine? line = none := by
  have hstart {p : List Char} (hp : ['p', 'u', 'b', ' '] <+: p) : p.isPrefixOf? line = none :=
    isPrefixOf?_eq_none fun h => hpub (hp.trans h)
  have hline : line ≠ "message = message.with_init(init.clone());".toList := by
    rintro rfl
    exact hmessage (by decide)
  rw [ofLine?, hstart (by decide), hstart (by decide), hstart (by decide), if_neg hline]
  rfl

theorem ofLine?_pub_eq_none {rest : List Char}
    (hstruct : ¬ ['s', 't', 'r', 'u', 'c', 't', ' '] <+: rest) (hfn : ¬ ['f', 'n', ' '] <+: rest)
    (hasync : ¬ ['a', 's', 'y', 'n', 'c', ' '] <+: rest) :
    ofLine? ('p' :: 'u' :: 'b' :: ' ' :: rest) = none := by
  have hstart {word p : List Char} (hword : ¬ word <+: rest)
      (hp : 'p' :: 'u' :: 'b' :: ' ' :: word <+: p) :
      p.isPrefixOf? ('p' :: 'u' :: 'b' :: ' ' :: rest) = none := by
    refine isPrefixOf?_eq_none fun h => hword ?_
    have hboth := hp.trans h
    simpa only [List.cons_prefix_cons, true_and] using hboth
  have hline : 'p' :: 'u' :: 'b' :: ' ' :: rest ≠
      "message = message.with_init(init.clone());".toList := fun h => by
    have hhead : some 'p' = "message = message.with_init(init.clone());".toList.head? :=
      congrArg List.head? h
    exact absurd hhead (by decide)
  rw [ofLine?, hstart hstruct (by decide), hstart hfn (by decide), hstart hasync (by decide),
    if_neg hline]
  rfl

/-- No word with a blank behind it begins a text whose first blank comes behind a colon. -/
theorem not_prefix_of_colon (word : List Char) {name rest : List Char} (hword : ':' ∉ word)
    (hname : ' ' ∉ name) : ¬ word ++ [' '] <+: name ++ ':' :: rest := by
  rintro ⟨tail, h⟩
  rw [List.append_assoc, List.append_eq_append_iff] at h
  obtain ⟨between, hname', htail⟩ | ⟨between, hword', htail⟩ := h
  · cases between with
    | nil => cases (List.cons.inj htail).1
    | cons c between =>
      refine hname ?_
      rw [hname', ← (List.cons.inj htail).1]
      exact List.mem_append_right _ List.mem_cons_self
  · cases between with
    | nil => cases (List.cons.inj htail).1
    | cons c between =>
      refine hword ?_
      rw [hword', ← (List.cons.inj htail).1]
      exact List.mem_append_right _ List.mem_cons_self

/-- Fixed text that has no line break and at whose end it is settled that none of the words begins
the line. -/
def isSettled (words : List (List Char)) (cs : List Char) : Bool :=
  words.all (fun word => !word.isPrefixOf cs && !cs.isPrefixOf word) && cs.all (· != '\n')

/-- What a line that is no landmark must not begin with: a word of a landmark or a blank. -/
def lineWords : List (List Char) :=
  [['p', 'u', 'b', ' '], ['m', 'e', 's', 's', 'a', 'g', 'e', ' '], [' ']]

/-- The words of landmarks that `pub` stands in front of. -/
def publicWords : List (List Char) :=
  [['s', 't', 'r', 'u', 'c', 't', ' '], ['f', 'n', ' '], ['a', 's', 'y', 'n', 'c', ' ']]

theorem isSettled_iff {words : List (List Char)} {cs : List Char} :
    isSettled words cs = true ↔
      (∀ word ∈ words, ¬ word <+: cs ∧ ¬ cs <+: word) ∧ '\n' ∉ cs := by
  simp only [isSettled, Bool.and_eq_true, List.all_eq_true, Bool.not_eq_true', ← Bool.not_eq_true,
    List.isPrefixOf_iff_prefix, bne_iff_ne]
  exact and_congr_right' ⟨fun h hmem => h _ hmem rfl, fun h c hc heq => h (heq ▸ hc)⟩

theorem not_prefix_append {words : List (List Char)} {cs word : List Char}
    (h : isSettled words cs = true) (hword : word ∈ words) (rest : List Char) :
    ¬ word <+: cs ++ rest := by
  obtain ⟨hcs, hcs'⟩ := (isSettled_iff.1 h).1 word hword
  intro hprefix
  obtain hprefix | hprefix := List.prefix_or_prefix_of_prefix hprefix (List.prefix_append cs rest)
  · exact hcs hprefix
  · exact hcs' hprefix

theorem ofLine?_settled {cs : List Char} (h : isSettled lineWords cs = true) (rest : List Char) :
    ofLine? (unindent (cs ++ rest)) = none := by
  have hfirst : unindent (cs ++ rest) = cs ++ rest := by
    have hblank : ¬ [' '] <+: cs ++ rest := not_prefix_append h (by decide) rest
    cases hcs : cs ++ rest with
    | nil => rfl
    | cons c tail =>
      rw [hcs] at hblank
      refine List.dropWhile_cons_of_neg fun hc => hblank ?_
      rw [beq_iff_eq.1 hc]
      exact ⟨tail, rfl⟩
  rw [hfirst]
  exact ofLine?_eq_none (not_prefix_append h (by decide) rest)
    (not_prefix_append h (by decide) rest)

theorem ofLine?_pub_settled {cs : List Char} (h : isSettled publicWords cs = true)
    (rest : List Char) : ofLine? (unindent ('p' :: 'u' :: 'b' :: ' ' :: cs ++ rest)) = none :=
  ofLine?_pub_eq_none (not_prefix_append h (by decide) rest) (not_prefix_append h (by decide) rest)
    (not_prefix_append h (by decide) rest)

end Landmark

end CellAbi
