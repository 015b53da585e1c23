import CellAbi.Proofs.Bindings.Lines
import CellAbi.Proofs.Bindings.Shadowing

/-!
# Imported names in generated source

The words of a text are its runs of letters, digits and underscores.  Where source is put together
from fixed texts and names, no word runs on from one into the other, so that the imported names in
the whole are the ones in the parts: those of the fixed texts are known, and those of the names,
types and quoted texts are whatever these hold.

    closes cs ∨ opens ds → importedWords (cs ++ ds) = importedWords cs ++ importedWords ds
                                                                            (`importedWords_append`)
    importsIn (toText body) = importsOf body                                    (`importsIn_toText`)
    importsOf (Render.method name args result body) = importsIn name ++ (args.flatMap importsIn ++
      ("Result" :: (importsIn result ++ importsOf body)))                       (`importsOf_method`)
-/

namespace CellAbi

open Source

/-! ## Words of a text -/

/-- Cuts a text at everything but letters, digits and underscores.  `run` is the word so far,
backwards. -/
def Text.wordRuns (run : List Char) : List Char → List (List Char)
  | [] => [run.reverse]
  | c :: rest => if IsWordChar c then wordRuns (c :: run) rest else run.reverse :: wordRuns [] rest

def isImported (name : String) : Bool := (preludeNames ++ builtinNames).contains name

/-- The imported names among the words of a text. -/
def importedWords (cs : List Char) : List String :=
  ((Text.wordRuns [] cs).map String.ofList).filter isImported

def importsIn (text : String) : List String := importedWords text.toList

section
variable {cs ds : List Char} {c : Char}

theorem Text.wordRuns_append (hc : ¬ IsWordChar c) (run : List Char) :
    wordRuns run (cs ++ c :: ds) = wordRuns run cs ++ wordRuns [] ds := by
  induction cs generalizing run with
  | nil =>
    show wordRuns run (c :: ds) = run.reverse :: wordRuns [] ds
    rw [wordRuns, if_neg hc]
  | cons d cs ih =>
    rw [List.cons_append, wordRuns, wordRuns]
    split
    · rw [ih]
    · rw [ih, List.cons_append]

theorem importedWords_append_cons (hc : ¬ IsWordChar c) :
    importedWords (cs ++ c :: ds) = importedWords cs ++ importedWords ds := by
  rw [importedWords, Text.wordRuns_append hc, List.map_append, List.filter_append]
  rfl

/-- No word goes on behind the text. -/
def closes (cs : List Char) : Bool := cs.getLast?.all fun c => !decide (IsWordChar c)

/-- No word that comes before the text goes on in it. -/
def opens (cs : List Char) : Bool := cs.head?.all fun c => !decide (IsWordChar c)

theorem importedWords_append (h : closes cs = true ∨ opens ds = true) :
    importedWords (cs ++ ds) = importedWords cs ++ importedWords ds := by
  have hnil : importedWords [] = [] := rfl
  have hcut {c : Char} (hc : (!decide (IsWordChar c)) = true) : ¬ IsWordChar c :=
    of_decide_eq_false (Bool.not_eq_true' _ ▸ hc)
  obtain h | h := h
  · rw [closes] at h
    cases hlast : cs.getLast? with
    | none =>
      rw [List.getLast?_eq_none_iff.1 hlast, hnil]
      rfl
    | some c =>
      rw [hlast] at h
      obtain ⟨front, rfl⟩ := List.getLast?_eq_some_iff.1 hlast
      rw [List.append_assoc, List.singleton_append, importedWords_append_cons (hcut h),
        importedWords_append_cons (hcut h), hnil, List.append_nil]
  · cases ds with
    | nil => rw [List.append_nil, hnil, List.append_nil]
    | cons c ds =>
      have hds : importedWords (c :: ds) = importedWords ds := by
        rw [← List.nil_append (c :: ds), importedWords_append_cons (hcut h), hnil, List.nil_append]
      rw [importedWords_append_cons (hcut h), hds]

end

/-! ## Fixed texts -/

/-- Every imported name has a capital or an underscore. -/
def isMarked (c : Char) : Bool := c.isUpper || c == '_'

/-- The imported names in a fixed text; words without a mark need not be compared with them. -/
def fixedNames (cs : List Char) : List String :=
  (((Text.wordRuns [] cs).filter fun word => word.any isMarked).map String.ofList).filter isImported

section
variable {cs ds es : List Char} {a b : String}

theorem importedWords_eq_fixedNames (cs : List Char) : importedWords cs = fixedNames cs := by
  have hmarked : ∀ name ∈ preludeNames ++ builtinNames, name.toList.any isMarked = true := by
    decide +kernel
  rw [importedWords, fixedNames, List.filter_map, List.filter_map, List.filter_filter]
  refine congrArg (List.map String.ofList) (List.filter_congr fun word _ => ?_)
  show isImported (String.ofList word) = (isImported (String.ofList word) && word.any isMarked)
  cases himported : isImported (String.ofList word) with
  | false => rfl
  | true =>
    have hword := hmarked _ (List.contains_iff_mem.1 himported)
    rw [String.toList_ofList] at hword
    rw [hword]
    rfl

theorem importsIn_ofList (cs : List Char) : importsIn (String.ofList cs) = fixedNames cs := by
  rw [importsIn, String.toList_ofList, importedWords_eq_fixedNames]

theorem importsIn_append (h : closes a.toList = true ∨ opens b.toList = true) :
    importsIn (a ++ b) = importsIn a ++ importsIn b := by
  rw [importsIn, String.toList_append, importedWords_append h]
  rfl

/-- A fixed text and the imported names in it. -/
theorem importsIn_fixed (names : List String) (h : fixedNames cs = names) :
    importsIn (String.ofList cs) = names := by
  rw [importsIn_ofList, h]

/-- Fixed text in front of a name. -/
theorem importsIn_before (names : List String) (hcloses : closes cs = true)
    (h : fixedNames cs = names) (b : String) :
    importsIn (String.ofList cs ++ b) = names ++ importsIn b := by
  rw [importsIn_append (.inl (by rwa [String.toList_ofList])), importsIn_fixed names h]

/-- Fixed text behind a name. -/
theorem importsIn_behind (names : List String) (hopens : opens ds = true)
    (h : fixedNames ds = names) (a : String) :
    importsIn (a ++ String.ofList ds) = importsIn a ++ names := by
  rw [importsIn_append (.inr (by rwa [String.toList_ofList])), importsIn_fixed names h]

/-- Fixed text behind a name, with no imported name in it. -/
def isTail (cs : List Char) : Bool := opens cs && (fixedNames cs).isEmpty

/-- The same between two names. -/
def isLink (cs : List Char) : Bool := isTail cs && closes cs && !cs.isEmpty

theorem importsIn_tail (h : isTail ds = true) (a : String) :
    importsIn (a ++ String.ofList ds) = importsIn a := by
  obtain ⟨hopens, hnone⟩ := Bool.and_eq_true_iff.1 h
  rw [importsIn_behind [] hopens (List.isEmpty_iff.1 hnone), List.append_nil]

theorem importsIn_link (h : isLink ds = true) (a b : String) :
    importsIn (a ++ String.ofList ds ++ b) = importsIn a ++ importsIn b := by
  simp only [isLink, Bool.and_eq_true, Bool.not_eq_true', List.isEmpty_eq_false_iff] at h
  obtain ⟨⟨htail, hcloses⟩, hne⟩ := h
  have hclosed : closes (a ++ String.ofList ds).toList = true := by
    rw [String.toList_append, String.toList_ofList, closes, List.getLast?_append_of_ne_nil _ hne]
    exact hcloses
  rw [importsIn_append (.inl hclosed), importsIn_tail htail]

/-- Fixed text on both sides of a name. -/
theorem importsIn_around (names : List String) (hcloses : closes cs = true)
    (h : fixedNames cs = names) (hds : isTail ds = true) (a : String) :
    importsIn (String.ofList cs ++ a ++ String.ofList ds) = names ++ importsIn a := by
  rw [importsIn_tail hds, importsIn_before names hcloses h]

/-- Fixed text around and between two names. -/
theorem importsIn_around_two (names : List String) (hcloses : closes cs = true)
    (h : fixedNames cs = names) (hds : isLink ds = true) (hes : isTail es = true) (a b : String) :
    importsIn (String.ofList cs ++ a ++ String.ofList ds ++ b ++ String.ofList es) =
      names ++ (importsIn a ++ importsIn b) := by
  rw [importsIn_tail hes, importsIn_link hds, importsIn_before names hcloses h, List.append_assoc]

theorem flatMap_importsIn_fixed (names : List String) (h : fixedNames cs = names)
    (rest : List String) :
    (String.ofList cs :: rest).flatMap importsIn = names ++ rest.flatMap importsIn := by
  rw [List.flatMap_cons, importsIn_fixed names h]

/-- Texts with fixed text between them. -/
theorem importsIn_intercalate (h : isLink cs = true) (texts : List String) :
    importsIn ((String.ofList cs).intercalate texts) = texts.flatMap importsIn := by
  induction texts with
  | nil => rfl
  | cons text rest ih =>
    cases rest with
    | nil => rw [String.intercalate_singleton, List.flatMap_singleton]
    | cons next rest =>
      rw [String.intercalate_cons_cons, importsIn_link h, ih]
      rfl

end

/-! ## Parameters -/

namespace Param

mutual

/-- The texts that stand quoted in the expression of a parameter. -/
def quotedTexts : Param → List String
  | ⟨name, type, components, _⟩ =>
    Text.quoted name :: Text.quoted type :: quotedComponents components

def quotedComponents : Option (List Param) → List String
  | none => []
  | some ps => quotedAll ps

def quotedAll : List Param → List String
  | [] => []
  | p :: ps => quotedTexts p ++ quotedAll ps

end

section
variable (name type : String) (components : Option (List Param)) (init : Option Bool)

theorem importsIn_expression_mk : importsIn (expression ⟨name, type, components, init⟩) =
    "AbiParam" :: (importsIn (Text.quoted name) ++ (importsIn (Text.quoted type) ++
      importsIn (componentsExpression components))) := by
  rw [expression_mk, importsIn_link rfl, importsIn_link rfl, importsIn_before ["AbiParam"] rfl rfl]
  simp only [List.append_assoc, List.cons_append, List.nil_append]

theorem importsIn_componentsExpression (ps : List Param) :
    importsIn (componentsExpression (some ps)) = (expressions ps).flatMap importsIn := by
  rw [componentsExpression_some, importsIn_around [] rfl rfl rfl, List.nil_append,
    importsIn_intercalate rfl]

theorem mem_importsIn_expression (p : Param) : "AbiParam" ∈ importsIn p.expression := by
  obtain ⟨name, type, components, init⟩ := p
  rw [importsIn_expression_mk]
  exact List.mem_cons_self

end

mutual

/-- Besides its own constructor, an expression mentions what its quoted texts do. -/
theorem importsIn_expression_subset : ∀ p : Param,
    importsIn p.expression ⊆ "AbiParam" :: p.quotedTexts.flatMap importsIn
  | ⟨name, type, components, init⟩ => by
    have hcomponents := importsIn_components_subset components
    rw [importsIn_expression_mk, quotedTexts, List.flatMap_cons, List.flatMap_cons]
    intro word hword
    simp only [List.mem_cons, List.mem_append] at hword ⊢
    obtain hword | hword | hword | hword := hword
    · exact .inl hword
    · exact .inr (.inl hword)
    · exact .inr (.inr (.inl hword))
    · obtain hword | hword := List.mem_cons.1 (hcomponents hword)
      · exact .inl hword
      · exact .inr (.inr (.inr hword))

theorem importsIn_components_subset : ∀ ps : Option (List Param),
    importsIn (componentsExpression ps) ⊆ "AbiParam" :: (quotedComponents ps).flatMap importsIn
  | none => List.nil_subset _
  | some ps => by
    rw [importsIn_componentsExpression]
    exact importsIn_expressions_subset ps

theorem importsIn_expressions_subset : ∀ ps : List Param,
    (expressions ps).flatMap importsIn ⊆ "AbiParam" :: (quotedAll ps).flatMap importsIn
  | [] => List.nil_subset _
  | p :: ps => by
    have hp := importsIn_expression_subset p
    have hps := importsIn_expressions_subset ps
    rw [expressions_cons, List.flatMap_cons, quotedAll, List.flatMap_append]
    refine List.append_subset.2 ⟨fun word hword => ?_, fun word hword => ?_⟩
    · obtain hword | hword := List.mem_cons.1 (hp hword)
      · exact List.mem_cons.2 (.inl hword)
      · exact List.mem_cons_of_mem _ (List.mem_append_left _ hword)
    · obtain hword | hword := List.mem_cons.1 (hps hword)
      · exact List.mem_cons.2 (.inl hword)
      · exact List.mem_cons_of_mem _ (List.mem_append_right _ hword)

end

end Param

/-! ## Lines -/

/-- The imported names in the lines. -/
def importsOf (body : List Source) : List String := (textsOf body).flatMap importsIn

section
variable {cs : List Char} {a b body rest : List Source} {text : String}

theorem importsOf_nil : importsOf [] = [] := rfl

theorem importsOf_append (a b : List Source) : importsOf (a ++ b) = importsOf a ++ importsOf b := by
  rw [importsOf, textsOf_append, List.flatMap_append]
  rfl

theorem importsOf_line (text : String) (rest : List Source) :
    importsOf (line text :: rest) = importsIn text ++ importsOf rest := rfl

/-- A line of fixed text. -/
theorem importsOf_fixed (names : List String) (h : fixedNames cs = names) (rest : List Source) :
    importsOf (line (String.ofList cs) :: rest) = names ++ importsOf rest := by
  rw [importsOf_line, importsIn_fixed names h]

theorem importsOf_indented (body rest : List Source) :
    importsOf (indented body :: rest) = importsOf body ++ importsOf rest := by
  show (textsOf body ++ textsOf rest).flatMap importsIn = _
  rw [List.flatMap_append]
  rfl

theorem importsOf_block (h : fixedNames cs = []) (first : String) (body : List Source) :
    importsOf (block first (String.ofList cs) body) = importsIn first ++ importsOf body := by
  rw [block, importsOf_line, importsOf_indented, importsOf_fixed [] h, importsOf_nil,
    List.append_nil, List.append_nil]

theorem importsOf_map_line {α : Type} (g : α → String) (l : List α) :
    importsOf (l.map fun a => line (g a)) = l.flatMap fun a => importsIn (g a) := by
  rw [importsOf, textsOf_map_line, List.flatMap_map]

theorem importsOf_flatMap {α : Type} (f : α → List Source) (l : List α) :
    importsOf (l.flatMap f) = l.flatMap fun a => importsOf (f a) := by
  induction l with
  | nil => rfl
  | cons a l ih => rw [List.flatMap_cons, List.flatMap_cons, importsOf_append, ih]

theorem fixedNames_blanks (n : Nat) : fixedNames (List.replicate n ' ') = [] := by
  rw [← importedWords_eq_fixedNames]
  induction n with
  | zero => rfl
  | succ n ih =>
    rw [List.replicate_succ, ← List.nil_append (' ' :: _), importedWords_append_cons (by decide),
      ih]
    rfl

mutual

theorem importsIn_lines (depth : Nat) : ∀ s : Source,
    (lines depth s).flatMap importsIn = (texts s).flatMap importsIn
  | line text => by
    have hblanks : closes (List.replicate (4 * depth) ' ') = true := by
      rw [closes, List.getLast?_replicate]
      split <;> rfl
    rw [lines, texts, List.flatMap_singleton, List.flatMap_singleton]
    split
    · next h => rw [String.isEmpty_iff.1 h]
    · rw [importsIn_before [] hblanks (fixedNames_blanks _), List.nil_append]
  | indented body => importsIn_linesOf (depth + 1) body

theorem importsIn_linesOf (depth : Nat) : ∀ body : List Source,
    (linesOf depth body).flatMap importsIn = importsOf body
  | [] => rfl
  | s :: rest => by
    rw [linesOf, List.flatMap_append, importsIn_lines depth s, importsIn_linesOf depth rest,
      importsOf, importsOf, textsOf, List.flatMap_append]

end

theorem importsIn_toText (body : List Source) : importsIn (toText body) = importsOf body := by
  rw [← importsIn_linesOf 0 body, toText]
  induction linesOf 0 body with
  | nil => rfl
  | cons text rest ih =>
    rw [List.map_cons, String.join_cons, List.flatMap_cons, importsIn_link rfl, ih]

end

/-! ## Pieces -/

namespace Render

theorem importsOf_struct (s : Struct) :
    importsOf (struct s) =
      importsIn s.name ++ s.fields.flatMap fun f => importsIn f.ident ++ importsIn f.type := by
  have hfield (f : Field) : importsIn ("pub " ++ f.ident ++ ": " ++ f.type ++ ",") =
      importsIn f.ident ++ importsIn f.type := importsIn_around_two [] rfl rfl rfl rfl _ _
  rw [struct, importsOf_fixed [] rfl, importsOf_block rfl, importsIn_around [] rfl rfl rfl,
    importsOf_map_line]
  simp only [hfield, List.nil_append]

theorem importsOf_method (name : String) (args : List String) (result : String)
    (body : List Source) :
    importsOf (method name args result body) =
      importsIn name ++ (args.flatMap importsIn ++
        ("Result" :: (importsIn result ++ importsOf body))) := by
  have harg (arg : String) : importsIn (arg ++ ",") = importsIn arg := importsIn_tail rfl _
  rw [method, importsOf_append, importsOf_line, importsOf_indented, importsOf_map_line,
    importsOf_block rfl, importsIn_around [] rfl rfl rfl, importsIn_around ["Result"] rfl rfl rfl]
  simp only [harg, importsOf_nil, List.append_nil, List.append_assoc, List.cons_append,
    List.nil_append]

/-! ### Arguments and parameter objects -/

/-- The imported names in the arguments that take the inputs. -/
def argImports (inputs : Shape) : List String := (inputArgs inputs).flatMap importsIn

/-- Those in the argument that is passed on. -/
def passedImports (inputs : Shape) : List String := (forwarded? inputs).toList.flatMap importsIn

/-- Those where a field is bound to its parameter. -/
def boundImports (f : Field) : List String := importsIn f.param.expression ++ importsIn f.ident

theorem importsIn_member {source : String} (h : importsIn source = []) (f : Field) :
    importsIn (source ++ "." ++ f.ident) = importsIn f.ident := by
  rw [importsIn_link rfl, h, List.nil_append]

theorem importsIn_insertion (f : Field) (source : String) :
    importsIn ("json.insert(&" ++ f.param.expression ++ ", " ++ source ++ ")?;") =
      importsIn f.param.expression ++ importsIn source :=
  importsIn_around_two [] rfl rfl rfl rfl _ _

theorem importsOf_structJson (s : Struct) {source : String} (h : importsIn source = []) :
    importsOf (structJson s source) = "JsonParams" :: s.fields.flatMap boundImports := by
  unfold structJson
  split
  · next hfields =>
    rw [importsOf_fixed ["JsonParams"] rfl, List.isEmpty_iff.1 hfields]
    rfl
  · simp only [insertion]
    rw [importsOf_fixed ["JsonParams"] rfl, importsOf_map_line]
    simp only [importsIn_insertion, importsIn_member h]
    rfl

theorem importsOf_inputsJson (inputs : Shape) :
    importsOf (inputsJson inputs) = "JsonParams" :: inputs.fields.flatMap boundImports := by
  cases inputs with
  | none =>
    rw [inputsJson, importsOf_fixed ["JsonParams"] rfl]
    rfl
  | single f =>
    rw [inputsJson, insertion, importsOf_fixed ["JsonParams"] rfl, importsOf_line,
      importsIn_insertion]
    rfl
  | struct s => exact importsOf_structJson s (importsIn_fixed [] rfl)

theorem importsOf_attachInit : importsOf attachInit = [] := by
  rw [attachInit, importsOf_block rfl, importsOf_fixed [] rfl, importsIn_fixed [] rfl,
    importsOf_nil]
  rfl

theorem importsOf_sendInternal : importsOf sendInternal = [] := by
  rw [sendInternal, importsOf_fixed [] rfl, importsOf_fixed [] rfl, importsOf_nil]
  rfl

/-! ### Methods of the contract -/

theorem importsOf_createMethod (m : BindingModule) :
    importsOf (createMethod m) =
      "AbiCodec" :: (importsIn m.init.name ++ ("Cell" :: "Result" :: "JsonParams" ::
        (m.init.fields.flatMap boundImports ++ ["StateInit", "contract_address"]))) := by
  have hnone : importsIn (if m.init.fields.isEmpty then "_params" else "params") = [] := by
    split <;> exact importsIn_fixed [] rfl
  rw [createMethod, importsOf_fixed [] rfl, importsOf_method, importsIn_fixed [] rfl,
    flatMap_importsIn_fixed ["AbiCodec"] rfl, List.flatMap_cons, importsIn_link rfl, hnone,
    flatMap_importsIn_fixed ["Cell"] rfl, flatMap_importsIn_fixed [] rfl, List.flatMap_nil,
    importsIn_fixed [] rfl, importsOf_append, importsOf_append, importsOf_structJson _ hnone,
    importsOf_fixed [] rfl, importsOf_fixed ["StateInit"] rfl, importsOf_block rfl,
    importsIn_fixed [] rfl, importsOf_fixed ["contract_address"] rfl, importsOf_fixed [] rfl,
    importsOf_nil]
  simp only [List.append_assoc, List.cons_append, List.nil_append, List.append_nil]

theorem importsOf_deployMethod :
    importsOf deployMethod = ["ContractProvider", "Result", "InternalMessage"] := by
  rw [deployMethod, importsOf_fixed [] rfl, importsOf_method, importsIn_fixed [] rfl,
    flatMap_importsIn_fixed [] rfl, flatMap_importsIn_fixed ["ContractProvider"] rfl,
    flatMap_importsIn_fixed [] rfl, List.flatMap_nil, importsIn_fixed [] rfl,
    importsOf_fixed ["InternalMessage"] rfl, importsOf_append, importsOf_attachInit,
    importsOf_sendInternal]
  rfl

theorem importsOf_stateMethod (state : Struct) :
    importsOf (stateMethod state) =
      "ContractProvider" :: "AbiCodec" :: "Result" :: (importsIn state.name ++
        ("read_state_variables" :: (importsIn state.name ++ state.fields.flatMap fun f =>
          importsIn f.ident ++ importsIn f.param.expression))) := by
  have hfield (f : Field) :
      importsIn (f.ident ++ ": state.field(&" ++ f.param.expression ++ ")?,") =
        importsIn f.ident ++ importsIn f.param.expression := by
    rw [importsIn_tail rfl, importsIn_link rfl]
  rw [stateMethod, importsOf_method, importsIn_fixed [] rfl, flatMap_importsIn_fixed [] rfl,
    flatMap_importsIn_fixed ["ContractProvider"] rfl, flatMap_importsIn_fixed ["AbiCodec"] rfl,
    List.flatMap_nil]
  split
  · next hfields =>
    rw [importsOf_fixed ["read_state_variables"] rfl, importsOf_line,
      importsIn_around [] rfl rfl rfl, importsOf_nil, List.isEmpty_iff.1 hfields, List.flatMap_nil]
    simp only [List.cons_append, List.nil_append]
  · rw [importsOf_line, importsIn_before [] rfl rfl, importsIn_fixed ["read_state_variables"] rfl,
      importsOf_block rfl, importsIn_around [] rfl rfl rfl, importsOf_map_line]
    simp only [hfield, List.cons_append, List.nil_append]

/-! ### Methods of a function -/

section
variable (f : FunctionBinding)

theorem importsOf_bodyMethod :
    importsOf (bodyMethod f) =
      importsIn f.body ++ ("AbiCodec" :: (argImports f.inputs ++ ("Result" :: "Cell" ::
        "JsonParams" :: (f.inputs.fields.flatMap boundImports ++
          importsIn (Text.quoted f.abiName))))) := by
  rw [bodyMethod, importsOf_method, flatMap_importsIn_fixed ["AbiCodec"] rfl,
    importsIn_fixed ["Cell"] rfl, importsOf_append, importsOf_inputsJson, importsOf_line,
    importsIn_around [] rfl rfl rfl, importsOf_nil]
  simp only [argImports, List.cons_append, List.nil_append, List.append_nil]

theorem importsOf_sendMethod :
    importsOf (sendMethod f) =
      importsIn f.send ++ ("ContractProvider" :: "AbiCodec" :: (argImports f.inputs ++
        ("Option" :: "Option" :: "SendMode" :: "Result" :: (importsIn f.body ++
          (passedImports f.inputs ++ ["InternalMessage"]))))) := by
  have hbinding : importsIn (if f.deploys then "let mut message" else "let message") = [] := by
    split <;> exact importsIn_fixed [] rfl
  have hattach : importsOf (if f.deploys then attachInit else []) = [] := by
    split
    · exact importsOf_attachInit
    · rfl
  rw [sendMethod, importsOf_method, List.flatMap_append, List.flatMap_append,
    flatMap_importsIn_fixed [] rfl, flatMap_importsIn_fixed ["ContractProvider"] rfl,
    flatMap_importsIn_fixed ["AbiCodec"] rfl, flatMap_importsIn_fixed [] rfl,
    flatMap_importsIn_fixed ["Option"] rfl, flatMap_importsIn_fixed ["Option", "SendMode"] rfl,
    importsIn_fixed [] rfl, importsOf_append, importsOf_append, importsOf_sendInternal,
    hattach, importsOf_line, importsIn_around_two [] rfl rfl rfl rfl, importsOf_line,
    importsIn_behind ["InternalMessage"] rfl rfl, hbinding, importsOf_indented,
    importsOf_fixed [] rfl, importsOf_fixed [] rfl, importsOf_fixed [] rfl, importsOf_nil]
  unfold passedImports
  cases forwarded? f.inputs with
  | none =>
    dsimp only
    rw [importsIn_fixed [] rfl]
    simp only [argImports, Option.toList_none, List.flatMap_nil, List.append_assoc,
      List.cons_append, List.nil_append, List.append_nil]
  | some arg =>
    dsimp only
    rw [importsIn_before [] rfl rfl]
    simp only [argImports, Option.toList_some, List.flatMap_singleton, List.flatMap_nil,
      List.append_assoc, List.cons_append, List.nil_append, List.append_nil]

theorem importsOf_bodyExternalMethod :
    importsOf (bodyExternalMethod f) =
      importsIn f.bodyExternal ++ ("AbiCodec" :: "ExternalHeader" :: (argImports f.inputs ++
        ("Result" :: "SignedBody" :: "JsonParams" :: (f.inputs.fields.flatMap boundImports ++
          ("ExternalBodyRequest" :: importsIn (Text.quoted f.abiName)))))) := by
  rw [bodyExternalMethod, importsOf_method, List.flatMap_append, flatMap_importsIn_fixed [] rfl,
    flatMap_importsIn_fixed ["AbiCodec"] rfl, flatMap_importsIn_fixed [] rfl,
    flatMap_importsIn_fixed ["ExternalHeader"] rfl, importsIn_fixed ["SignedBody"] rfl,
    importsOf_append, importsOf_append, importsOf_append, importsOf_inputsJson,
    importsOf_fixed [] rfl, importsOf_block rfl, importsIn_fixed ["ExternalBodyRequest"] rfl,
    importsOf_fixed [] rfl, importsOf_line, importsIn_around [] rfl rfl rfl, importsOf_fixed [] rfl,
    importsOf_fixed [] rfl, importsOf_fixed [] rfl, importsOf_fixed [] rfl, importsOf_fixed [] rfl]
  simp only [argImports, importsOf_nil, List.flatMap_nil, List.cons_append, List.nil_append,
    List.append_nil]

theorem importsOf_sendExternalMethod :
    importsOf (sendExternalMethod f) =
      importsIn f.sendExternal ++ ("ContractProvider" :: "AbiCodec" :: "ExternalHeader" ::
        (argImports f.inputs ++ ("Result" :: (importsIn f.bodyExternal ++
          passedImports f.inputs)))) := by
  rw [sendExternalMethod, importsOf_fixed [] rfl, importsOf_method, List.flatMap_append,
    flatMap_importsIn_fixed [] rfl, flatMap_importsIn_fixed ["ContractProvider"] rfl,
    flatMap_importsIn_fixed ["AbiCodec"] rfl, flatMap_importsIn_fixed [] rfl,
    flatMap_importsIn_fixed ["ExternalHeader"] rfl, importsIn_fixed [] rfl, importsOf_line,
    importsIn_around_two [] rfl rfl rfl rfl, importsOf_fixed [] rfl, importsOf_fixed [] rfl,
    importsOf_nil]
  unfold passedImports
  cases forwarded? f.inputs with
  | none =>
    dsimp only
    rw [importsIn_fixed [] rfl]
    simp only [argImports, Option.toList_none, List.flatMap_nil, List.cons_append, List.nil_append,
      List.append_nil]
  | some arg =>
    dsimp only
    rw [importsIn_before [] rfl rfl]
    simp only [argImports, Option.toList_some, List.flatMap_singleton, List.flatMap_nil,
      List.cons_append, List.nil_append, List.append_nil]

end

/-! ### Method of a getter -/

theorem importsIn_encoding (f : Field) (source : String) :
    importsIn ("encode_arg(codec, &" ++ f.param.expression ++ ", " ++ source ++ ").await?,") =
      "encode_arg" :: (importsIn f.param.expression ++ importsIn source) :=
  importsIn_around_two ["encode_arg"] rfl rfl rfl rfl _ _

theorem importsIn_decoding (f : Field) :
    importsIn (decoding f) = "decode_arg" :: importsIn f.param.expression :=
  importsIn_around ["decode_arg"] rfl rfl rfl _

theorem importsOf_getterArgs (inputs : Shape) :
    importsOf (getterArgs inputs) =
      (if inputs = .none then ["Vec"] else []) ++
        inputs.fields.flatMap fun f => "encode_arg" :: boundImports f := by
  cases inputs with
  | none =>
    rw [getterArgs, importsOf_fixed ["Vec"] rfl]
    rfl
  | single f =>
    rw [getterArgs, importsOf_block rfl, importsIn_fixed [] rfl, encoding, importsOf_line,
      importsIn_encoding]
    rfl
  | struct s =>
    have hmember (f : Field) : importsIn ("params." ++ f.ident) = importsIn f.ident :=
      importsIn_before [] rfl rfl _
    simp only [getterArgs, encoding]
    rw [importsOf_block rfl, importsIn_fixed [] rfl, importsOf_map_line]
    simp only [importsIn_encoding, hmember]
    rfl

/-- The imported names in the outputs, without their types. -/
def outputImports : Shape → List String
  | .none => []
  | .single f => importsIn (decoding f)
  | .struct s =>
    importsIn s.name ++ s.fields.flatMap fun f => importsIn f.ident ++ importsIn (decoding f)

theorem importsOf_getterResult (call : String) (outputs : Shape) :
    importsOf (getterResult call outputs) = importsIn call ++ outputImports outputs := by
  have hcall : importsIn ("let mut stack = " ++ call) = importsIn call :=
    importsIn_before [] rfl rfl _
  cases outputs with
  | none =>
    rw [getterResult, importsOf_line, importsOf_fixed [] rfl]
    rfl
  | single f =>
    rw [getterResult, importsOf_line, hcall, importsOf_line, importsOf_nil, List.append_nil]
    rfl
  | struct s =>
    have hfield (f : Field) : importsIn (f.ident ++ ": " ++ decoding f ++ "?,") =
        importsIn f.ident ++ importsIn (decoding f) := by
      rw [importsIn_tail rfl, importsIn_link rfl]
    rw [getterResult, importsOf_line, hcall, importsOf_block rfl, importsIn_around [] rfl rfl rfl,
      importsOf_map_line]
    simp only [hfield]
    rfl

theorem importsOf_getterMethod (g : GetterBinding) :
    importsOf (getterMethod g) =
      importsIn g.method ++ ("ContractProvider" :: "AbiCodec" :: (argImports g.inputs ++
        ("Result" :: (importsIn (resultType g.outputs) ++ (importsOf (getterArgs g.inputs) ++
          (importsIn (Text.quoted g.abiName) ++ outputImports g.outputs)))))) := by
  have hcodec (codec : String) (h : importsIn codec = []) :
      importsIn (codec ++ ": &dyn AbiCodec") = ["AbiCodec"] := by
    rw [importsIn_behind ["AbiCodec"] rfl rfl, h]
    rfl
  rw [getterMethod, importsOf_method, List.flatMap_append, flatMap_importsIn_fixed [] rfl,
    flatMap_importsIn_fixed ["ContractProvider"] rfl, List.flatMap_cons, hcodec, importsOf_append,
    importsOf_getterResult, importsIn_around [] rfl rfl rfl]
  · simp only [argImports, List.flatMap_nil, List.cons_append, List.nil_append, List.append_nil]
  · split <;> exact importsIn_fixed [] rfl

/-! ### Modules -/

theorem importsOf_banner : importsOf banner = [] := by
  rw [banner, importsOf_fixed [] rfl, importsOf_fixed [] rfl, importsOf_fixed [] rfl]
  rfl

theorem importsOf_blank (rest : List Source) : importsOf (blank :: rest) = importsOf rest :=
  importsOf_fixed [] rfl rest

theorem importsOf_functionMethods (f : FunctionBinding) :
    importsOf (functionMethods f) =
      importsOf (bodyMethod f) ++ (importsOf (sendMethod f) ++
        (importsOf (bodyExternalMethod f) ++ importsOf (sendExternalMethod f))) := by
  simp only [functionMethods, importsOf_append, importsOf_blank, importsOf_nil, List.nil_append,
    List.append_assoc]

theorem importsOf_implementation (m : BindingModule) :
    importsOf (implementation m) =
      importsIn (Text.quoted m.contractPath) ++ ("StdAddress" :: (importsOf (createMethod m) ++
        ((if m.hasConstructor then [] else importsOf deployMethod) ++
          (importsOf (stateMethod m.state) ++
            (m.functions.flatMap (fun f => importsOf (functionMethods f)) ++
              m.getters.flatMap fun g => importsOf (getterMethod g)))))) := by
  have hdeploy : importsOf (if m.hasConstructor then [] else blank :: deployMethod) =
      if m.hasConstructor then [] else importsOf deployMethod := by
    split
    · rfl
    · exact importsOf_blank _
  simp only [implementation, importsOf_append, importsOf_blank, importsOf_flatMap, hdeploy]
  rw [importsOf_line, importsIn_around [] rfl rfl rfl, importsOf_blank, importsOf_block rfl,
    importsIn_fixed ["StdAddress"] rfl, importsOf_fixed [] rfl]
  simp only [importsOf_nil, List.append_nil, List.append_assoc, List.cons_append, List.nil_append]

theorem importsOf_moduleSource (m : BindingModule) :
    importsOf (moduleSource m) =
      importsIn m.runtimeCrate ++ (m.structs.flatMap (fun s => importsOf (struct s)) ++
        (importsIn m.contractPath ++ (importsIn m.contract ++ ("StdAddress" :: "Option" ::
          "StateInit" :: (importsIn m.contract ++ importsOf (implementation m)))))) := by
  simp only [moduleSource, importsOf_append, importsOf_flatMap, importsOf_blank, importsOf_banner]
  rw [importsOf_fixed [] rfl, importsOf_blank, importsOf_line, importsIn_around [] rfl rfl rfl,
    importsOf_line, importsIn_around [] rfl rfl rfl, importsOf_fixed [] rfl, importsOf_block rfl,
    importsIn_around [] rfl rfl rfl, importsOf_fixed ["StdAddress"] rfl,
    importsOf_fixed ["Option", "StateInit"] rfl, importsOf_block rfl,
    importsIn_around [] rfl rfl rfl]
  simp only [importsOf_nil, List.append_nil, List.append_assoc, List.cons_append, List.nil_append]

end Render

end CellAbi
