import CellAbi.Text.Words

/-!
# Words keep the letters and numbers

Cutting a name into words keeps its letters and numbers in order, so that an ASCII name in upper
camel case consists of letters and digits, and begins with the first letter or digit of the name,
in upper case.

    (words name).flatten = name.filter isAlphanumeric                            (`flatten_words`)
    (upperCamelCase name).toList.head? = (name.toList.find? Char.isAlphanum).map Char.toUpper
                                                                        (`head?_upperCamelCase`)
    '\n' ∉ (upperCamelCase name).toList                          (`newline_notMem_upperCamelCase`)
-/

namespace CellAbi.Text

/-! ## ASCII characters -/

/-- What holds of the first 128 characters, one by one. -/
theorem forall_ascii {P : Char → Prop} (h : ∀ n < 0x80, P (Char.ofNat n)) {c : Char}
    (hc : c.toNat < 0x80) : P c := by
  rw [← Char.ofNat_toNat c]
  exact h _ hc

/-- No other characters have a lower case. -/
theorem toLower_eq_self {c : Char} (hc : ¬ c.toNat < 0x80) : c.toLower = c := by
  unfold Char.toLower
  rw [dif_neg]
  rintro ⟨-, h⟩
  exact hc (Nat.lt_of_le_of_lt (show c.toNat ≤ 'Z'.toNat from h) (by decide))

theorem isAlphanum_toUpper {c : Char} (hc : c.toNat < 0x80) :
    c.toUpper.isAlphanum = c.isAlphanum :=
  forall_ascii (P := fun c => c.toUpper.isAlphanum = c.isAlphanum) (by decide) hc

theorem isAlphanum_toLower {c : Char} (hc : c.toNat < 0x80) :
    c.toLower.isAlphanum = c.isAlphanum :=
  forall_ascii (P := fun c => c.toLower.isAlphanum = c.isAlphanum) (by decide) hc

/-! ## Cutting -/

theorem flatten_splitRun (run : LetterRun) (word cs : List Char) :
    (splitRun run word cs).flatten = word.reverse ++ cs := by
  fun_induction splitRun run word cs with
  | case1 run word h => simp_all
  | case2 run word h => simp
  | case3 run word c => simp
  | case4 run word c d rest h ih => simp [ih]
  | case5 run word c d rest h h' ih => simp [ih]
  | case6 run word c d rest h h' ih => simp [ih]

theorem flatten_alphanumericRuns (run cs : List Char) :
    (alphanumericRuns run cs).flatten = run.reverse ++ cs.filter isAlphanumeric := by
  induction cs generalizing run with
  | nil => simp [alphanumericRuns]
  | cons c rest ih =>
    rw [alphanumericRuns]
    split
    · next h => rw [ih, List.reverse_cons, List.filter_cons_of_pos h, List.append_assoc]; rfl
    · next h => rw [List.flatten_cons, ih, List.filter_cons_of_neg h]; rfl

theorem flatten_words (name : List Char) : (words name).flatten = name.filter isAlphanumeric := by
  have hruns (runs : List (List Char)) :
      (runs.flatMap (splitRun .none [])).flatten = runs.flatten := by
    induction runs with
    | nil => rfl
    | cons run runs ih =>
      rw [List.flatMap_cons, List.flatten_append, ih, flatten_splitRun]
      rfl
  rw [words, hruns, flatten_alphanumericRuns]
  rfl

/-! ## Joining ASCII words -/

theorem lowerWord_of_ascii {word : List Char} (h : ∀ c ∈ word, c.toNat < 0x80) :
    lowerWord word = word.map Char.toLower := by
  fun_induction lowerWord word with
  | case1 => rfl
  | case2 =>
    -- The sigma is no ASCII character.
    exact absurd (h 'Σ' List.mem_cons_self) (by decide)
  | case3 c hc => exact lowerCase_of_ascii (h c List.mem_cons_self)
  | case4 c rest hrest ih =>
    obtain ⟨hc, hrest⟩ := List.forall_mem_cons.1 h
    rw [lowerCase_of_ascii hc, ih hrest]
    rfl

theorem capitalize_of_ascii {c : Char} {rest : List Char} (hc : c.toNat < 0x80)
    (hrest : ∀ c ∈ rest, c.toNat < 0x80) :
    capitalize (c :: rest) = c.toUpper :: rest.map Char.toLower := by
  rw [capitalize, upperCase_of_ascii hc, lowerWord_of_ascii hrest]
  rfl

theorem head?_flatMap_capitalize {ws : List (List Char)}
    (h : ∀ c ∈ ws.flatten.head?, c.toNat < 0x80) :
    (ws.flatMap capitalize).head? = ws.flatten.head?.map Char.toUpper := by
  induction ws with
  | nil => rfl
  | cons w ws ih =>
    rw [List.flatMap_cons, List.flatten_cons]
    match w with
    | [] => exact ih h
    | c :: rest =>
      rw [capitalize, upperCase_of_ascii (h c rfl)]
      rfl

theorem isAlphanum_of_mem_capitalize {w : List Char}
    (h : ∀ c ∈ w, c.toNat < 0x80 ∧ c.isAlphanum = true) :
    ∀ c ∈ capitalize w, c.isAlphanum = true := by
  match w with
  | [] => exact nofun
  | c :: rest =>
    obtain ⟨⟨hc, halnum⟩, hrest⟩ := List.forall_mem_cons.1 h
    rw [capitalize_of_ascii hc fun d hd => (hrest d hd).1, List.forall_mem_cons,
      List.forall_mem_map]
    refine ⟨(isAlphanum_toUpper hc).trans halnum, fun d hd => ?_⟩
    exact (isAlphanum_toLower (hrest d hd).1).trans (hrest d hd).2

section
variable {name : String} (h : ∀ c ∈ name.toList, c.toNat < 0x80)
include h

theorem flatten_words_of_ascii :
    (words name.toList).flatten = name.toList.filter Char.isAlphanum := by
  rw [flatten_words]
  exact List.filter_congr fun c hc => isAlphanumeric_of_ascii (h c hc)

theorem isAlphanum_of_mem_upperCamelCase :
    ∀ c ∈ (upperCamelCase name).toList, c.isAlphanum = true := by
  rw [upperCamelCase, String.toList_ofList]
  intro c hc
  obtain ⟨w, hw, hc⟩ := List.mem_flatMap.1 hc
  refine isAlphanum_of_mem_capitalize (fun d hd => ?_) c hc
  have hmem : d ∈ (words name.toList).flatten := List.mem_flatten.2 ⟨w, hw, hd⟩
  rw [flatten_words_of_ascii h, List.mem_filter] at hmem
  exact ⟨h d hmem.1, hmem.2⟩

theorem head?_upperCamelCase :
    (upperCamelCase name).toList.head? =
      (name.toList.find? Char.isAlphanum).map Char.toUpper := by
  have hflatten := flatten_words_of_ascii h
  rw [upperCamelCase, String.toList_ofList, head?_flatMap_capitalize, hflatten, List.head?_filter]
  rw [hflatten]
  exact fun c hc => h c (List.mem_filter.1 (List.mem_of_mem_head? hc)).1

end

/-- A first letter or digit stays first, whatever follows it. -/
theorem head?_upperCamelCase_of_cons {name : String} {c : Char} {rest : List Char}
    (hname : name.toList = c :: rest) (hc : c.toNat < 0x80) (halnum : c.isAlphanum = true) :
    (upperCamelCase name).toList.head? = some c.toUpper := by
  have hhead : (words name.toList).flatten.head? = some c := by
    rw [flatten_words, hname, List.filter_cons_of_pos]
    · rfl
    · rwa [isAlphanumeric_of_ascii hc]
  rw [upperCamelCase, String.toList_ofList, head?_flatMap_capitalize, hhead]
  · rfl
  · rw [hhead]
    rintro d ⟨⟩
    exact hc

/-! ## Line breaks -/

theorem ofNat_eq_newline {n : Nat} (h : Char.ofNat n = '\n') : n = 10 := by
  by_cases hvalid : n.isValidChar
  · rw [Char.ofNat, dif_pos hvalid] at h
    exact congrArg Char.toNat h
  · rw [Char.ofNat, dif_neg hvalid] at h
    cases congrArg Char.toNat h

/-- No character but a line break is mapped to one if no entry of the tables leads there. -/
theorem newline_notMem_mapCase {shifts : List (Nat × Nat × Nat × Int)}
    {expansions : List (Nat × List Nat)} (hshifts : ∀ s ∈ shifts, 10 < s.1 + s.2.2.2)
    (hexpansions : ∀ e ∈ expansions, 10 ∉ e.2) {c : Char} (hc : c ≠ '\n') :
    '\n' ∉ mapCase shifts expansions c := by
  unfold mapCase
  split
  · next image himage =>
    intro h
    obtain ⟨n, hn, heq⟩ := List.mem_map.1 h
    obtain rfl := ofNat_eq_newline heq
    obtain ⟨before, after, hsplit, -⟩ := List.lookup_eq_some_iff.1 himage
    have hmem : (c.toNat, image) ∈ expansions := hsplit ▸ List.mem_append_right _ List.mem_cons_self
    exact hexpansions _ hmem hn
  split
  · next first last stride shift hfind =>
    intro h
    have hn := ofNat_eq_newline (List.mem_singleton.1 h).symm
    have hspan := List.find?_some hfind
    have hshift := hshifts _ (List.mem_of_find?_eq_some hfind)
    simp only [Bool.and_eq_true, decide_eq_true_eq] at hspan
    dsimp only at hshift
    omega
  · exact fun h => hc (List.mem_singleton.1 h).symm

theorem newline_notMem_upperCase {c : Char} (hc : c ≠ '\n') : '\n' ∉ upperCase c := by
  unfold upperCase
  split
  · next hascii =>
    have hupper : c ≠ '\n' → c.toUpper ≠ '\n' :=
      forall_ascii (P := fun c => c ≠ '\n' → c.toUpper ≠ '\n') (by decide) hascii
    exact fun h => hupper hc (List.mem_singleton.1 h).symm
  · exact newline_notMem_mapCase (by decide +kernel) (by decide +kernel) hc

theorem newline_notMem_lowerCase {c : Char} (hc : c ≠ '\n') : '\n' ∉ lowerCase c := by
  unfold lowerCase
  split
  · next hascii =>
    have hlower : c ≠ '\n' → c.toLower ≠ '\n' :=
      forall_ascii (P := fun c => c ≠ '\n' → c.toLower ≠ '\n') (by decide) hascii
    exact fun h => hlower hc (List.mem_singleton.1 h).symm
  · exact newline_notMem_mapCase (by decide +kernel) (by decide +kernel) hc

theorem newline_notMem_lowerWord {word : List Char} (h : '\n' ∉ word) : '\n' ∉ lowerWord word := by
  fun_induction lowerWord word with
  | case1 => exact h
  | case2 => decide
  | case3 c hc => exact newline_notMem_lowerCase fun heq => h (heq ▸ List.mem_cons_self)
  | case4 c rest hrest ih =>
    rw [List.mem_append, not_or]
    refine ⟨newline_notMem_lowerCase ?_, ih (List.not_mem_of_not_mem_cons h)⟩
    exact Ne.symm (List.ne_of_not_mem_cons h)

theorem newline_notMem_upperCamelCase (name : String) : '\n' ∉ (upperCamelCase name).toList := by
  have hwords : '\n' ∉ (words name.toList).flatten := by
    rw [flatten_words]
    exact fun h => absurd (List.mem_filter.1 h).2 (by decide)
  rw [upperCamelCase, String.toList_ofList]
  intro h
  obtain ⟨w, hw, h⟩ := List.mem_flatMap.1 h
  have hword : '\n' ∉ w := fun hmem => hwords (List.mem_flatten.2 ⟨w, hw, hmem⟩)
  cases w with
  | nil => cases h
  | cons c rest =>
    rw [capitalize, List.mem_append] at h
    obtain h | h := h
    · exact newline_notMem_upperCase (Ne.symm (List.ne_of_not_mem_cons hword)) h
    · exact newline_notMem_lowerWord (List.not_mem_of_not_mem_cons hword) h

end CellAbi.Text
