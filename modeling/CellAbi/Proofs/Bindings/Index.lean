import CellAbi.Bindings.Directory
import CellAbi.Proofs.Bindings.Identifier

/-!
# The index of generated modules

The text of an index is cut into its lines again, and its lines declare the modules that it was
made of.  A module is in the file of its name, where the mark of a keyword is left out.  The name
of a module is never a bare keyword, so that no two modules share a file.

    (toText body).toList.splitOn '\n' = (linesOf 0 body).map String.toList ++ [[]]
                                             if no line has a line break        (`splitOn_toText`)
    declared (index modules) = modules.map Prod.fst
                                             if no name has a line break        (`declared_index`)
    fileName (Name.module a) = fileName (Name.module b) → Name.module a = Name.module b
                                                                           (`fileName_module_inj`)
-/

namespace CellAbi

/-! ## Lines -/

namespace Source

theorem splitOn_join {lines : List String} (h : ∀ line ∈ lines, '\n' ∉ line.toList) :
    (String.join (lines.map (· ++ "\n"))).toList.splitOn '\n' =
      lines.map String.toList ++ [[]] := by
  induction lines with
  | nil => rfl
  | cons line rest ih =>
    obtain ⟨hline, hrest⟩ := List.forall_mem_cons.1 h
    have hfirst : (String.join ((line :: rest).map (· ++ "\n"))).toList =
        line.toList ++ '\n' :: (String.join (rest.map (· ++ "\n"))).toList := by
      rw [List.map_cons, String.join_cons, String.toList_append, String.toList_append,
        List.append_assoc]
      rfl
    rw [hfirst, List.splitOn_eq_splitOnP,
      List.splitOnP_append_cons_of_forall_mem fun c hc => ?_, ← List.splitOn_eq_splitOnP, ih hrest]
    · rfl
    · rfl
    · exact beq_eq_false_iff_ne.2 fun heq => hline (heq ▸ hc)

theorem splitOn_toText {body : List Source}
    (h : ∀ line ∈ linesOf 0 body, '\n' ∉ line.toList) :
    (toText body).toList.splitOn '\n' = (linesOf 0 body).map String.toList ++ [[]] :=
  splitOn_join h

theorem linesOf_map_line (lines : List String) : linesOf 0 (lines.map line) = lines := by
  induction lines with
  | nil => rfl
  | cons line rest ih =>
    rw [List.map_cons, linesOf, ih, Source.lines]
    split
    · next hempty => rw [String.isEmpty_iff.1 hempty]; rfl
    · simp

end Source

namespace Bindings

/-! ## Declarations -/

/-- The module that a line declares. -/
def declaration? (line : List Char) : Option String :=
  ("pub mod ".toList.isPrefixOf? line).bind fun rest =>
    (";".toList.isSuffixOf? rest).map String.ofList

/-- The modules that the lines of an index declare. -/
def declared (text : String) : List String := (text.toList.splitOn '\n').filterMap declaration?

theorem declaration?_mod (module : String) :
    declaration? ("pub mod " ++ module ++ ";").toList = some module := by
  have hfront : "pub mod ".toList.isPrefixOf? ("pub mod " ++ module ++ ";").toList =
      some (module.toList ++ ";".toList) := by
    rw [Text.isPrefixOf?_eq_some, String.toList_append, String.toList_append, List.append_assoc]
  rw [declaration?, hfront, Option.bind_some, Text.isSuffixOf?_eq_some.2 rfl, Option.map_some,
    String.ofList_toList]

theorem declaration?_use (module type : String) :
    declaration? ("pub use " ++ module ++ "::" ++ type ++ ";").toList = none := by
  simp only [declaration?, String.toList_append, List.append_assoc]
  rfl

/-- The lines of an index. -/
def indexLines (modules : List (String × String)) : List String :=
  ["// This file is auto-generated. Do not modify it.", ""] ++
    modules.map (fun (module, _) => "pub mod " ++ module ++ ";") ++
    (if modules.isEmpty then [] else [""]) ++
    modules.map fun (module, type) => "pub use " ++ module ++ "::" ++ type ++ ";"

theorem index_eq (modules : List (String × String)) :
    index modules = Source.toText ((indexLines modules).map .line) := by
  rw [index, indexLines]
  refine congrArg _ ?_
  cases modules <;> simp [Source.blank, Function.comp_def]

theorem newline_notMem_indexLines {modules : List (String × String)}
    (h : ∀ m ∈ modules, '\n' ∉ m.1.toList ∧ '\n' ∉ m.2.toList) :
    ∀ line ∈ indexLines modules, '\n' ∉ line.toList := by
  simp only [indexLines, List.forall_mem_append, List.forall_mem_map]
  refine ⟨⟨⟨by decide, fun m hm => ?_⟩, ?_⟩, fun m hm => ?_⟩
  · simp [h m hm]
  · split <;> simp
  · simp [h m hm]

theorem declared_index {modules : List (String × String)}
    (h : ∀ m ∈ modules, '\n' ∉ m.1.toList ∧ '\n' ∉ m.2.toList) :
    declared (index modules) = modules.map Prod.fst := by
  have hlines := newline_notMem_indexLines h
  rw [← Source.linesOf_map_line (indexLines modules)] at hlines
  rw [declared, index_eq, Source.splitOn_toText hlines, Source.linesOf_map_line]
  have hmods : modules.filterMap (fun m => declaration? ("pub mod " ++ m.1 ++ ";").toList) =
      modules.map Prod.fst := by
    simp only [declaration?_mod]
    exact congrFun List.filterMap_eq_map' modules
  have huses : modules.filterMap (fun m =>
      declaration? ("pub use " ++ m.1 ++ "::" ++ m.2 ++ ";").toList) = [] :=
    List.filterMap_eq_nil_iff.2 fun m _ => declaration?_use m.1 m.2
  have hblank : (if modules.isEmpty then [] else [""]).filterMap
      (fun line => declaration? line.toList) = [] := by
    split <;> rfl
  have hends : [[]].filterMap declaration? = [] ∧
      ["// This file is auto-generated. Do not modify it.", ""].filterMap
        (fun line => declaration? line.toList) = [] := ⟨rfl, rfl⟩
  simp only [indexLines, List.filterMap_append, List.filterMap_map, Function.comp_def, hmods, huses,
    hblank, hends, List.nil_append, List.append_nil]

/-! ## Modules -/

/-- Letters, numbers and underscores. -/
def IsStem (stem : String) : Prop := ∀ c ∈ stem.toList, Text.isAlphanumeric c = true ∨ c = '_'

instance : DecidablePred IsStem := fun stem =>
  inferInstanceAs (Decidable (∀ c ∈ stem.toList, Text.isAlphanumeric c = true ∨ c = '_'))

/-- The identifier of a stem: keywords are marked. -/
def mark (stem : String) : String := if stem ∈ Name.keywords then "r#" ++ stem else stem

theorem exists_module (contract : String) :
    ∃ stem, IsStem stem ∧ Name.module contract = mark stem := by
  have hstrict : ∀ word ∈ Name.strictKeywords,
      IsStem (word ++ "_") ∧ word ++ "_" ∉ Name.keywords := by decide
  have hstem : IsStem (String.ofList (Name.sanitize (Text.snakeCase contract).toList)) := by
    rw [IsStem, String.toList_ofList]
    exact fun c hc => (Name.mem_sanitize hc).symm.imp_left And.right
  unfold Name.module Name.identifier Name.escapeKeyword
  split
  · next hmem =>
    obtain ⟨hchars, hkey⟩ := hstrict _ (List.contains_iff_mem.1 hmem)
    exact ⟨_, hchars, (if_neg hkey).symm⟩
  refine ⟨_, hstem, ?_⟩
  split
  · next hkey => exact (if_pos (List.contains_iff_mem.1 hkey)).symm
  · next hkey => exact (if_neg fun hmem => hkey (List.contains_iff_mem.2 hmem)).symm

theorem notMem_of_isStem {stem : String} (h : IsStem stem) {c : Char}
    (hc : Text.isAlphanumeric c = false) (hne : c ≠ '_') : c ∉ stem.toList := fun hmem => by
  obtain halnum | heq := h c hmem
  · rw [hc] at halnum
    cases halnum
  · exact hne heq

theorem fileName_mark {stem : String} (h : IsStem stem) : fileName (mark stem) = stem ++ ".rs" := by
  unfold mark fileName
  split
  · rw [Text.isPrefixOf?_eq_some.2 (String.toList_append ..), Option.getD_some,
      String.ofList_toList]
  · have hnone : "r#".toList.isPrefixOf? stem.toList = none := by
      refine Option.eq_none_iff_forall_ne_some.2 fun rest hrest => ?_
      refine notMem_of_isStem (c := '#') h (by decide) (by decide) ?_
      rw [Text.isPrefixOf?_eq_some.1 hrest]
      exact List.mem_append_left _ (by decide)
    rw [hnone, Option.getD_none, String.ofList_toList]

/-- A file is of one module. -/
theorem mark_inj_of_fileName {a b : String} (ha : IsStem a) (hb : IsStem b)
    (h : fileName (mark a) = fileName (mark b)) : mark a = mark b := by
  rw [fileName_mark ha, fileName_mark hb, ← String.toList_inj, String.toList_append,
    String.toList_append] at h
  rw [String.toList_inj.1 (List.append_cancel_right h)]

theorem fileName_module_inj {a b : String}
    (h : fileName (Name.module a) = fileName (Name.module b)) : Name.module a = Name.module b := by
  obtain ⟨s, hs, ha⟩ := exists_module a
  obtain ⟨t, ht, hb⟩ := exists_module b
  rw [ha, hb] at h ⊢
  exact mark_inj_of_fileName hs ht h

/-- Only the module named after the keyword `mod` has the file of the index. -/
theorem fileName_module_eq_index {contract : String} :
    fileName (Name.module contract) = "mod.rs" ↔ Name.module contract = "r#mod" := by
  obtain ⟨stem, hstem, hmodule⟩ := exists_module contract
  rw [hmodule]
  constructor
  · exact mark_inj_of_fileName (b := "mod") hstem (by decide)
  · intro h
    rw [h]
    rfl

theorem newline_notMem_module (contract : String) : '\n' ∉ (Name.module contract).toList := by
  obtain ⟨stem, hstem, hmodule⟩ := exists_module contract
  have hchars := notMem_of_isStem (c := '\n') hstem (by decide) (by decide)
  rw [hmodule, mark]
  split
  · rw [String.toList_append, List.mem_append, not_or]
    exact ⟨by decide, hchars⟩
  · exact hchars

theorem newline_notMem_type (contract : String) : '\n' ∉ (Name.type contract).toList :=
  Text.newline_notMem_upperCamelCase contract

theorem slash_notMem_fileName (contract : String) :
    '/' ∉ (fileName (Name.module contract)).toList := by
  obtain ⟨stem, hstem, hmodule⟩ := exists_module contract
  rw [hmodule, fileName_mark hstem, String.toList_append, List.mem_append, not_or]
  exact ⟨notMem_of_isStem (c := '/') hstem (by decide) (by decide), by decide⟩

end Bindings

end CellAbi
