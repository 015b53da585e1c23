import CellAbi.Bindings.Name
import CellAbi.Proofs.Text.Affix
import CellAbi.Proofs.Text.Words

/-!
# Identifiers of generated source

An identifier is a word of ASCII letters, digits and underscores that does not begin with a digit,
and that is neither a lone underscore nor a keyword; a keyword that does not name a place in the
module tree is one behind the mark `r#`.  Field and argument names are identifiers whatever they
stand for.  A method or type name is one exactly when it is a word, because what is put in front of
it or behind it keeps it apart from the keywords.

    IsIdentifier (identifier name)     for an ASCII name                (`isIdentifier_identifier`)
    IsIdentifier (name ++ suffix) ↔
      name does not begin with a digit and has word characters only    (`isIdentifier_append_iff`)
-/

namespace CellAbi

/-! ## Deciding along a text -/

section
variable {P : Char → Prop} [DecidablePred P]

-- Both have priority over an instance that would try every character there is.

instance (priority := high) decidableForallChar (cs : List Char) : Decidable (∀ c ∈ cs, P c) :=
  List.decidableBAll P cs

instance (priority := high) decidableForallFirst (first : Option Char) :
    Decidable (∀ c ∈ first, P c) :=
  Option.decidableForallMem first

end

/-! ## Words and keywords -/

/-- A letter, a digit or an underscore. -/
def IsWordChar (c : Char) : Prop := c.isAlphanum = true ∨ c = '_'

instance : DecidablePred IsWordChar := fun c =>
  inferInstanceAs (Decidable (c.isAlphanum = true ∨ c = '_'))

/-- The text does not begin with a digit. -/
def NoLeadingDigit (cs : List Char) : Prop := ∀ c ∈ cs.head?, c.isDigit = false

instance : DecidablePred NoLeadingDigit := fun cs =>
  inferInstanceAs (Decidable (∀ c ∈ cs.head?, c.isDigit = false))

/-- Letters, digits and underscores, at least one, of which the first is no digit. -/
def IsWord (cs : List Char) : Prop :=
  cs ≠ [] ∧ NoLeadingDigit cs ∧ ∀ c ∈ cs, IsWordChar c

instance : DecidablePred IsWord := fun cs =>
  inferInstanceAs (Decidable (cs ≠ [] ∧ NoLeadingDigit cs ∧ ∀ c ∈ cs, IsWordChar c))

/-- Keywords that name a place in the module tree. -/
def pathKeywords : List String := ["crate", "self", "Self", "super"]

/-- All other keywords: the ones in use, then the reserved ones. -/
def plainKeywords : List String := [
  "as", "async", "await", "break", "const", "continue", "dyn", "else", "enum", "extern", "false",
  "fn", "for", "if", "impl", "in", "let", "loop", "match", "mod", "move", "mut", "pub", "ref",
  "return", "static", "struct", "trait", "true", "type", "unsafe", "use", "where", "while",
  "abstract", "become", "box", "do", "final", "gen", "macro", "override", "priv", "try", "typeof",
  "unsized", "virtual", "yield"]

/-- A name that source may declare. -/
def IsIdentifier (name : String) : Prop :=
  (IsWord name.toList ∧ name ≠ "_" ∧ name ∉ pathKeywords ∧ name ∉ plainKeywords) ∨
    ∃ word ∈ plainKeywords, name = "r#" ++ word

instance : DecidablePred IsIdentifier := fun name =>
  inferInstanceAs (Decidable ((IsWord name.toList ∧ name ≠ "_" ∧ name ∉ pathKeywords ∧
    name ∉ plainKeywords) ∨ ∃ word ∈ plainKeywords, name = "r#" ++ word))

/-- The two lists of keywords are those that names are marked by. -/
theorem mem_plainKeywords_iff {word : String} : word ∈ plainKeywords ↔ word ∈ Name.keywords := by
  have h : plainKeywords ⊆ Name.keywords ∧ Name.keywords ⊆ plainKeywords := by decide +kernel
  exact ⟨fun hw => h.1 hw, fun hw => h.2 hw⟩

theorem mem_strictKeywords_iff {word : String} :
    word ∈ Name.strictKeywords ↔ word = "_" ∨ word ∈ pathKeywords := by
  have h : "_" :: pathKeywords ⊆ Name.strictKeywords ∧
      Name.strictKeywords ⊆ "_" :: pathKeywords := by decide
  rw [← List.mem_cons]
  exact ⟨fun hw => h.2 hw, fun hw => h.1 hw⟩

/-- The texts that are no plain word of their own: a lone underscore, the keywords, and these behind
their mark. -/
def occupied : List String :=
  "_" :: (pathKeywords ++ plainKeywords ++ plainKeywords.map ("r#" ++ ·))

theorem isIdentifier_iff_isWord {name : String} (h : name ∉ occupied) :
    IsIdentifier name ↔ IsWord name.toList := by
  simp only [occupied, List.mem_cons, List.mem_append, List.mem_map, not_or, not_exists,
    not_and] at h
  obtain ⟨hlone, ⟨hpath, hplain⟩, hraw⟩ := h
  constructor
  · rintro (⟨hword, -⟩ | ⟨word, hword, rfl⟩)
    · exact hword
    · exact absurd rfl (hraw word hword)
  · exact fun hword => .inl ⟨hword, hlone, hpath, hplain⟩

/-! ## Text around a name -/

theorem isWord_append_iff {cs suffix : List Char} (hsuffix : IsWord suffix) :
    IsWord (cs ++ suffix) ↔ NoLeadingDigit cs ∧ ∀ c ∈ cs, IsWordChar c := by
  obtain ⟨hne, hdigit, hchars⟩ := hsuffix
  rw [IsWord, List.forall_mem_append]
  cases cs with
  | nil => exact iff_of_true ⟨hne, hdigit, nofun, hchars⟩ ⟨nofun, nofun⟩
  | cons c rest =>
    constructor
    · exact fun h => ⟨h.2.1, h.2.2.1⟩
    · exact fun h => ⟨nofun, h.1, h.2, hchars⟩

/-- A word that ends no keyword. -/
def IsSuffixWord (suffix : String) : Prop :=
  IsWord suffix.toList ∧ ∀ word ∈ occupied, ¬ suffix.toList <:+ word.toList

instance : DecidablePred IsSuffixWord := fun suffix =>
  inferInstanceAs
    (Decidable (IsWord suffix.toList ∧ ∀ word ∈ occupied, ¬ suffix.toList <:+ word.toList))

/-- A word that begins no keyword. -/
def IsPrefixWord (start : String) : Prop :=
  IsWord start.toList ∧ ∀ word ∈ occupied, ¬ start.toList <+: word.toList

instance : DecidablePred IsPrefixWord := fun start =>
  inferInstanceAs
    (Decidable (IsWord start.toList ∧ ∀ word ∈ occupied, ¬ start.toList <+: word.toList))

theorem isIdentifier_append_iff {name suffix : String} (hsuffix : IsSuffixWord suffix) :
    IsIdentifier (name ++ suffix) ↔
      NoLeadingDigit name.toList ∧ ∀ c ∈ name.toList, IsWordChar c := by
  have hend : suffix.toList <:+ (name ++ suffix).toList := by
    rw [String.toList_append]
    exact List.suffix_append _ _
  rw [isIdentifier_iff_isWord fun h => hsuffix.2 _ h hend, String.toList_append,
    isWord_append_iff hsuffix.1]

theorem isIdentifier_iff_of_start {text start : String} (hstart : IsPrefixWord start)
    (h : start.toList <+: text.toList) :
    IsIdentifier text ↔ ∀ c ∈ text.toList, IsWordChar c := by
  rw [isIdentifier_iff_isWord fun hmem => hstart.2 _ hmem h]
  obtain ⟨rest, hrest⟩ := h
  obtain ⟨hne, hdigit, -⟩ := hstart.1
  rw [← hrest]
  cases hcs : start.toList with
  | nil => exact absurd hcs hne
  | cons c cs =>
    rw [hcs] at hdigit
    exact ⟨fun h => h.2.2, fun h => ⟨nofun, hdigit, h⟩⟩

namespace Name

open Text

/-! ## Fields and arguments -/

theorem mem_sanitize {name : List Char} {c : Char} (h : c ∈ sanitize name) :
    c = '_' ∨ c ∈ name ∧ isAlphanumeric c = true := by
  have hchars : ∀ c ∈ name.map fun c => if isAlphanumeric c || c == '_' then c else '_',
      c = '_' ∨ c ∈ name ∧ isAlphanumeric c = true := by
    refine List.forall_mem_map.2 fun c hc => ?_
    split
    · next hkept =>
      rw [Bool.or_eq_true, beq_iff_eq] at hkept
      exact hkept.symm.imp_right fun halnum => ⟨hc, halnum⟩
    · exact .inl rfl
  unfold sanitize at h
  dsimp only at h
  split at h
  · exact .inl (List.mem_singleton.1 h)
  · next hcons =>
    split at h
    · obtain rfl | h := List.mem_cons.1 h
      · exact .inl rfl
      · exact hchars c h
    · exact hchars c h

theorem isWord_sanitize {name : List Char} (h : ∀ c ∈ name, c.toNat < 0x80) :
    IsWord (sanitize name) := by
  have hchars : ∀ c ∈ sanitize name, IsWordChar c := fun c hc => by
    obtain rfl | ⟨hmem, halnum⟩ := mem_sanitize hc
    · exact .inr rfl
    · exact .inl (isAlphanumeric_of_ascii (h c hmem) ▸ halnum)
  suffices hstart : sanitize name ≠ [] ∧ NoLeadingDigit (sanitize name) from
    ⟨hstart.1, hstart.2, hchars⟩
  unfold sanitize
  dsimp only
  split
  · exact by decide
  · next c rest hcons =>
    rw [hcons]
    split
    · exact ⟨nofun, fun d hd => Option.some.inj hd ▸ rfl⟩
    · next hdigit =>
      refine ⟨nofun, fun d hd => ?_⟩
      obtain rfl := Option.some.inj hd
      exact Bool.eq_false_iff.2 hdigit

theorem isIdentifier_escapeKeyword {word : String} (h : IsWord word.toList) :
    IsIdentifier (escapeKeyword word) := by
  have hstrict : ∀ word ∈ strictKeywords, IsIdentifier (word ++ "_") := by decide +kernel
  unfold escapeKeyword
  split
  · next hmem => exact hstrict word (List.contains_iff_mem.1 hmem)
  · next hmem =>
    have hmem : ¬ (word = "_" ∨ word ∈ pathKeywords) := fun hor =>
      hmem (List.contains_iff_mem.2 (mem_strictKeywords_iff.2 hor))
    obtain ⟨hlone, hpath⟩ := not_or.1 hmem
    split
    · next hkey => exact .inr ⟨word, mem_plainKeywords_iff.2 (List.contains_iff_mem.1 hkey), rfl⟩
    · next hkey =>
      have hkey : word ∉ plainKeywords := fun hplain =>
        hkey (List.contains_iff_mem.2 (mem_plainKeywords_iff.1 hplain))
      exact .inl ⟨h, hlone, hpath, hkey⟩

variable {name : String} (h : ∀ c ∈ name.toList, c.toNat < 0x80)
include h

theorem isIdentifier_identifier : IsIdentifier (identifier name) :=
  isIdentifier_escapeKeyword (by rw [String.toList_ofList]; exact isWord_sanitize h)

theorem isIdentifier_argument : IsIdentifier (argument name) := by
  have hreserved : ∀ word ∈ reservedArguments, IsIdentifier (word ++ "_") := by decide +kernel
  unfold argument
  dsimp only
  split
  · next hmem => exact hreserved _ (List.contains_iff_mem.1 hmem)
  · exact isIdentifier_identifier h

/-! ## Methods -/

omit h in
theorem prefix_withWord (start name : String) : start.toList <+: (withWord start name).toList := by
  unfold withWord
  split
  · next hsome =>
    obtain ⟨rest, hrest⟩ := Option.isSome_iff_exists.1 hsome
    exact ⟨rest, (isPrefixOf?_eq_some.1 hrest).symm⟩
  · rw [String.toList_append]
    exact List.prefix_append _ _

theorem forall_isWordChar_upperFirst :
    (∀ c ∈ (upperFirst name).toList, IsWordChar c) ↔ ∀ c ∈ name.toList, IsWordChar c := by
  unfold upperFirst
  cases hname : name.toList with
  | nil => exact iff_of_true (by decide) nofun
  | cons c rest =>
    rw [hname, List.forall_mem_cons] at h
    have hupper : IsWordChar c.toUpper ↔ IsWordChar c :=
      forall_ascii (P := fun c => IsWordChar c.toUpper ↔ IsWordChar c) (by decide) h.1
    rw [String.toList_ofList, upperCase_of_ascii h.1, List.singleton_append, List.forall_mem_cons,
      List.forall_mem_cons, hupper]

theorem forall_isWordChar_withWord {start : String} (hstart : IsWord start.toList) :
    (∀ c ∈ (withWord start name).toList, IsWordChar c) ↔ ∀ c ∈ name.toList, IsWordChar c := by
  unfold withWord
  split
  · exact .rfl
  · rw [String.toList_append, List.forall_mem_append, forall_isWordChar_upperFirst h]
    exact and_iff_right hstart.2.2

/-- A method that is named for what it does. -/
theorem isIdentifier_withWord_append {start suffix : String} (hstart : IsPrefixWord start)
    (hsuffix : ∀ c ∈ suffix.toList, IsWordChar c) :
    IsIdentifier (withWord start name ++ suffix) ↔ ∀ c ∈ name.toList, IsWordChar c := by
  have hprefix : start.toList <+: (withWord start name ++ suffix).toList := by
    rw [String.toList_append]
    exact (prefix_withWord start name).trans (List.prefix_append _ _)
  rw [isIdentifier_iff_of_start hstart hprefix, String.toList_append,
    List.forall_mem_append, forall_isWordChar_withWord h hstart.1, and_iff_left hsuffix]

theorem isIdentifier_withWord {start : String} (hstart : IsPrefixWord start) :
    IsIdentifier (withWord start name) ↔ ∀ c ∈ name.toList, IsWordChar c := by
  have happend : IsIdentifier (withWord start name ++ "") ↔ ∀ c ∈ name.toList, IsWordChar c :=
    isIdentifier_withWord_append h hstart nofun
  rwa [String.append_empty] at happend

/-- The methods of a function can be declared exactly when its name is made of word characters and
does not begin with a digit. -/
theorem isIdentifier_methods_iff :
    (∀ method ∈ [body name, send name, bodyExternal name, sendExternal name],
        IsIdentifier method) ↔
      NoLeadingDigit name.toList ∧ ∀ c ∈ name.toList, IsWordChar c := by
  have hbody : IsSuffixWord "Body" := by decide +kernel
  have hexternal : IsSuffixWord "BodyExternal" := by decide +kernel
  have hsend : IsPrefixWord "send" := by decide +kernel
  simp only [List.forall_mem_cons]
  constructor
  · exact fun hall => (isIdentifier_append_iff hbody).1 hall.1
  · intro hname
    refine ⟨(isIdentifier_append_iff hbody).2 hname, ?_,
      (isIdentifier_append_iff hexternal).2 hname, ?_, nofun⟩
    · exact (isIdentifier_withWord h hsend).2 hname.2
    · exact (isIdentifier_withWord_append h hsend (by decide)).2 hname.2

theorem isIdentifier_get_iff : IsIdentifier (get name) ↔ ∀ c ∈ name.toList, IsWordChar c :=
  isIdentifier_withWord h (by decide +kernel)

/-! ## Types -/

theorem noLeadingDigit_type_iff :
    NoLeadingDigit (type name).toList ↔
      ∀ c ∈ name.toList.find? Char.isAlphanum, c.isDigit = false := by
  rw [NoLeadingDigit, type, head?_upperCamelCase h]
  cases hfind : name.toList.find? Char.isAlphanum with
  | none => exact iff_of_true nofun nofun
  | some c =>
    have hascii := h c (List.mem_of_find?_eq_some hfind)
    have hdigit : c.toUpper.isDigit = c.isDigit :=
      forall_ascii (P := fun c => c.toUpper.isDigit = c.isDigit) (by decide) hascii
    simp [hdigit]

theorem ascii_withWord {start : String} (hstart : ∀ c ∈ start.toList, c.toNat < 0x80) :
    ∀ c ∈ (withWord start name).toList, c.toNat < 0x80 := by
  unfold withWord
  split
  · exact h
  · rw [String.toList_append, List.forall_mem_append]
    refine ⟨hstart, ?_⟩
    unfold upperFirst
    cases hname : name.toList with
    | nil => exact nofun
    | cons c rest =>
      rw [hname, List.forall_mem_cons] at h
      have hupper : c.toUpper.toNat < 0x80 :=
        forall_ascii (P := fun c => c.toUpper.toNat < 0x80) (by decide) h.1
      rw [String.toList_ofList, upperCase_of_ascii h.1, List.singleton_append]
      exact List.forall_mem_cons.2 ⟨hupper, h.2⟩

/-- The type of a getter begins with the letter of its prefix. -/
theorem noLeadingDigit_type_get : NoLeadingDigit (type (get name)).toList := by
  obtain ⟨rest, hrest⟩ := prefix_withWord "get" name
  unfold get
  rw [noLeadingDigit_type_iff (ascii_withWord h (by decide)), ← hrest]
  exact fun c hc => Option.some.inj hc ▸ rfl

theorem isIdentifier_type_append_iff {suffix : String} (hsuffix : IsSuffixWord suffix) :
    IsIdentifier (type name ++ suffix) ↔ NoLeadingDigit (type name).toList := by
  rw [isIdentifier_append_iff hsuffix]
  exact and_iff_left fun c hc => .inl (isAlphanum_of_mem_upperCamelCase h c hc)

/-- A type is in upper case, so that it is no keyword but one. -/
theorem isIdentifier_type_iff (hne : type name ≠ "") (hdigit : NoLeadingDigit (type name).toList) :
    IsIdentifier (type name) ↔ type name ≠ "Self" := by
  have hself : ¬ IsIdentifier "Self" := by decide
  constructor
  · exact fun hident heq => hself (heq ▸ hident)
  intro hself
  have hoccupied : ∀ word ∈ occupied, word ≠ "Self" →
      ∀ c ∈ word.toList.head?, c.isLower = true ∨ c = '_' := by decide +kernel
  have hword : IsWord (type name).toList :=
    ⟨fun hnil => hne (String.toList_inj.1 hnil), hdigit,
      fun c hc => .inl (isAlphanum_of_mem_upperCamelCase h c hc)⟩
  refine (isIdentifier_iff_isWord fun hmem => ?_).2 hword
  obtain ⟨c, rest, hcons⟩ := List.exists_cons_of_ne_nil hword.1
  have hhead := head?_upperCamelCase h
  rw [← type, hcons, List.head?_cons, eq_comm, Option.map_eq_some_iff] at hhead
  obtain ⟨d, hd, rfl⟩ := hhead
  have hupper : d.isAlphanum = true → ¬ (d.toUpper.isLower = true ∨ d.toUpper = '_') :=
    forall_ascii (P := fun d => d.isAlphanum = true →
      ¬ (d.toUpper.isLower = true ∨ d.toUpper = '_')) (by decide)
      (h d (List.mem_of_find?_eq_some hd))
  exact hupper (List.find?_some hd) (hoccupied _ hmem hself _ (by rw [hcons]; rfl))

end Name

end CellAbi
