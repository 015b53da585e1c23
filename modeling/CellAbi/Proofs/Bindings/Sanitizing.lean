import CellAbi.Proofs.Bindings.Identifier

/-!
# What a name becomes where it is declared

A name is made a word first, and only the word decides how it is marked: raw when it is a keyword
that may be raw, with an underscore behind it when it is one that may not.  Neither mark makes a
keyword of it again, and the underscore that keeps an argument off the reserved names leads to none
of them.

    escapeKeyword word = "r#" ++ word, word ++ "_" or word            (`escapeKeyword_cases`)
    IsDeclarable (word name) (identifier name) ∧ IsDeclarable (word name) (argument name) ∧
      argument name ∉ reservedArguments    for an ASCII name      (`isDeclarable_identifier_argument`)
-/

namespace CellAbi

/-- All keywords and the lone underscore. -/
def bareKeywords : List String := "_" :: (pathKeywords ++ plainKeywords)

/-- `ident` can be declared for a name that was made the word `word`. -/
structure IsDeclarable (word ident : String) : Prop where
  isIdentifier : IsIdentifier ident
  notMem_bareKeywords : ident ∉ bareKeywords
  raw_iff : "r#".toList <+: ident.toList ↔ word ∈ plainKeywords

theorem IsIdentifier.notMem_bareKeywords {ident : String} (h : IsIdentifier ident) :
    ident ∉ bareKeywords := by
  obtain ⟨-, hlone, hpath, hplain⟩ | ⟨word, hword, rfl⟩ := h
  · simp only [bareKeywords, List.mem_cons, List.mem_append, not_or]
    exact ⟨hlone, hpath, hplain⟩
  · have hraw : ∀ word ∈ plainKeywords, "r#" ++ word ∉ bareKeywords := by decide +kernel
    exact hraw word hword

/-- The mark of a raw identifier holds a character that no word has. -/
theorem not_raw_of_forall_isWordChar {cs : List Char} (h : ∀ c ∈ cs, IsWordChar c) :
    ¬ "r#".toList <+: cs := fun hraw =>
  absurd (h '#' (hraw.subset (by decide))) (by decide)

namespace Name

/-- The word that a name is made. -/
def word (name : String) : String := String.ofList (sanitize name.toList)

/-- Each keyword has one mark, and no other word is marked. -/
theorem escapeKeyword_cases (word : String) :
    word ∈ plainKeywords ∧ escapeKeyword word = "r#" ++ word ∨
      (word = "_" ∨ word ∈ pathKeywords) ∧ escapeKeyword word = word ++ "_" ∨
      word ∉ bareKeywords ∧ escapeKeyword word = word := by
  unfold escapeKeyword
  split
  · next hstrict =>
    exact .inr (.inl ⟨mem_strictKeywords_iff.1 (List.contains_iff_mem.1 hstrict), rfl⟩)
  next hstrict =>
  have hstrict : ¬ (word = "_" ∨ word ∈ pathKeywords) := fun h =>
    hstrict (List.contains_iff_mem.2 (mem_strictKeywords_iff.2 h))
  split
  · next hkey => exact .inl ⟨mem_plainKeywords_iff.2 (List.contains_iff_mem.1 hkey), rfl⟩
  · next hkey =>
    have hplain : word ∉ plainKeywords := fun h =>
      hkey (List.contains_iff_mem.2 (mem_plainKeywords_iff.1 h))
    refine .inr (.inr ⟨?_, rfl⟩)
    rw [bareKeywords, List.mem_cons, List.mem_append, ← or_assoc]
    exact not_or.2 ⟨hstrict, hplain⟩

theorem raw_escapeKeyword_iff {word : String} (h : IsWord word.toList) :
    "r#".toList <+: (escapeKeyword word).toList ↔ word ∈ plainKeywords := by
  obtain ⟨hplain, hmarked⟩ | ⟨hstrict, hmarked⟩ | ⟨hbare, hmarked⟩ := escapeKeyword_cases word
  all_goals rw [hmarked]
  · rw [String.toList_append]
    exact iff_of_true (List.prefix_append _ _) hplain
  · have hapart : ∀ word ∈ "_" :: pathKeywords, word ∉ plainKeywords := by decide
    refine iff_of_false (not_raw_of_forall_isWordChar ?_) (hapart word (List.mem_cons.2 hstrict))
    rw [String.toList_append, List.forall_mem_append]
    exact ⟨h.2.2, by decide⟩
  · refine iff_of_false (not_raw_of_forall_isWordChar h.2.2) fun hplain => hbare ?_
    exact List.mem_cons_of_mem _ (List.mem_append_right _ hplain)

theorem argument_cases (name : String) :
    identifier name ∈ reservedArguments ∧ argument name = identifier name ++ "_" ∨
      identifier name ∉ reservedArguments ∧ argument name = identifier name := by
  unfold argument
  dsimp only
  split
  · next h => exact .inl ⟨List.contains_iff_mem.1 h, rfl⟩
  · next h => exact .inr ⟨fun hmem => h (List.contains_iff_mem.2 hmem), rfl⟩

theorem argument_notMem_reserved (name : String) : argument name ∉ reservedArguments := by
  have hbehind : ∀ word ∈ reservedArguments, word ++ "_" ∉ reservedArguments := by decide
  obtain ⟨hreserved, hargument⟩ | ⟨hfree, hargument⟩ := argument_cases name
  · exact hargument ▸ hbehind _ hreserved
  · exact hargument ▸ hfree

variable {name : String} (h : ∀ c ∈ name.toList, c.toNat < 0x80)
include h

theorem isWord_word : IsWord (word name).toList := by
  rw [word, String.toList_ofList]
  exact isWord_sanitize h

/-- A name that is a word already stays as it is. -/
theorem word_of_isWord (hword : IsWord name.toList) : word name = name := by
  obtain ⟨hne, hdigit, hchars⟩ := hword
  have hkept : ∀ c ∈ name.toList,
      (if Text.isAlphanumeric c || c == '_' then c else '_') = c := fun c hc => by
    refine if_pos ?_
    rw [Text.isAlphanumeric_of_ascii (h c hc), Bool.or_eq_true, beq_iff_eq]
    exact hchars c hc
  rw [word, sanitize, List.map_congr_left hkept, List.map_id']
  cases hname : name.toList with
  | nil => exact absurd hname hne
  | cons c rest =>
    rw [hname] at hdigit
    dsimp only
    rw [hdigit c rfl, if_neg Bool.false_ne_true, ← hname, String.ofList_toList]

theorem isDeclarable_identifier : IsDeclarable (word name) (identifier name) where
  isIdentifier := isIdentifier_identifier h
  notMem_bareKeywords := (isIdentifier_identifier h).notMem_bareKeywords
  raw_iff := raw_escapeKeyword_iff (isWord_word h)

theorem isDeclarable_argument : IsDeclarable (word name) (argument name) where
  isIdentifier := isIdentifier_argument h
  notMem_bareKeywords := (isIdentifier_argument h).notMem_bareKeywords
  raw_iff := by
    have hident := (isDeclarable_identifier h).raw_iff
    obtain ⟨hreserved, hargument⟩ | ⟨-, hargument⟩ := argument_cases name
    all_goals rw [hargument]
    · have hraw : ∀ word ∈ reservedArguments, ¬ "r#".toList <+: word.toList ∧
          ¬ "r#".toList <+: (word ++ "_").toList := by decide +kernel
      obtain ⟨hfront, hbehind⟩ := hraw _ hreserved
      exact iff_of_false hbehind fun hplain => hfront (hident.2 hplain)
    · exact hident

/-- An ASCII name is made a word, if it is none, and where it is declared, as a field or as an
argument, it is an identifier: raw exactly when the word is a keyword that may be raw, and never a
bare keyword.  An argument is none of the reserved names. -/
theorem isDeclarable_identifier_argument :
    (IsWord (word name).toList ∧ (IsWord name.toList → word name = name)) ∧
      IsDeclarable (word name) (identifier name) ∧
      IsDeclarable (word name) (argument name) ∧ argument name ∉ reservedArguments :=
  ⟨⟨isWord_word h, word_of_isWord h⟩, isDeclarable_identifier h, isDeclarable_argument h,
    argument_notMem_reserved name⟩

omit h in
/-- A name that is only made reserved by what is replaced in it. -/
theorem isDeclarable_identifier_argument_sendMode :
    (∀ c ∈ "send mode".toList, c.toNat < 0x80) ∧ word "send mode" ∈ reservedArguments ∧
      argument "send mode" = "send_mode_" ∧ IsDeclarable "send_mode" "send_mode_" :=
  have hascii : ∀ c ∈ "send mode".toList, c.toNat < 0x80 := by decide
  ⟨hascii, by decide, rfl, (isDeclarable_identifier_argument hascii).2.2.1⟩

-- Nothing at all, a keyword that may be raw, one that may not, and a leading digit.
example : ["", "type", "self", "0x"].map identifier = ["__", "r#type", "self_", "_0x"] := by decide

end Name

end CellAbi
