import CellAbi.Proofs.Bindings.Index
import CellAbi.Proofs.Files.Map

/-!
# Directories of bindings

Bindings are written to the file of their module, one contract after the other, and the index to
`mod.rs` behind them.  All bindings are kept and every module is declared once exactly when no two
contracts have the same module and none has the module named after the keyword `mod`.

    (names.map (bindingsPath outDir) ++ [indexPath outDir]).Nodup ↔
      (names.map Name.module).Nodup ∧ "r#mod" ∉ names.map Name.module           (`nodup_paths_iff`)
    writeContracts … contracts = .ok paths → paths = contracts.map (bindingsPath outDir), and the
      last contract of each module has its bindings                        (`writeContracts_holds`)
    generateToDir … contracts = .ok paths → (KeepsAll … names paths ↔
      (names.map Name.module).Nodup ∧ "r#mod" ∉ names.map Name.module)
                                                                     (`generateToDir_keepsAll_iff`)
-/

namespace CellAbi.Bindings

/-! ## Paths -/

/-- The file of the schema of a contract. -/
def schemaPath (abiDir contract : String) : String := Path.join abiDir (contract ++ schemaSuffix)

/-- The file of the bindings of a contract. -/
def bindingsPath (outDir contract : String) : String :=
  Path.join outDir (fileName (Name.module contract))

/-- The file of the index. -/
def indexPath (outDir : String) : String := Path.join outDir "mod.rs"

theorem last_bindingsPath (outDir contract : String) :
    Path.last (bindingsPath outDir contract) = (fileName (Name.module contract)).toList :=
  Path.last_join (slash_notMem_fileName contract)

theorem last_indexPath (outDir : String) : Path.last (indexPath outDir) = "mod.rs".toList :=
  Path.last_join (by decide)

theorem last_schemaPath_ne (abiDir contract name : String) :
    Path.last (schemaPath abiDir contract) ≠ (name ++ ".rs").toList := by
  obtain ⟨front, hjoin, -⟩ := Path.exists_join abiDir (contract ++ schemaSuffix)
  rw [schemaPath, hjoin, ← String.append_assoc, Path.last_append (by decide)]
  intro h
  have hlast := congrArg List.getLast? h
  rw [List.getLast?_append, String.toList_append, List.getLast?_append] at hlast
  have hends : ¬ some 'n' = some 's' := by decide
  exact hends hlast

/-- The files that generation writes. -/
def IsTarget (outDir path : String) : Prop :=
  path = indexPath outDir ∨ ∃ contract, path = bindingsPath outDir contract

/-- A schema is in none of the written files. -/
theorem last_schemaPath_ne_target {abiDir outDir contract target : String}
    (h : IsTarget outDir target) : Path.last (schemaPath abiDir contract) ≠ Path.last target := by
  obtain h | ⟨other, h⟩ := h
  · rw [h, last_indexPath]
    exact last_schemaPath_ne _ _ "mod"
  · rw [h, last_bindingsPath]
    exact last_schemaPath_ne _ _ _

theorem module_eq_of_last {outDir a b : String}
    (h : Path.last (bindingsPath outDir a) = Path.last (bindingsPath outDir b)) :
    Name.module a = Name.module b := by
  rw [last_bindingsPath, last_bindingsPath] at h
  exact fileName_module_inj (String.toList_inj.1 h)

theorem module_eq_mod_of_last {outDir contract : String}
    (h : Path.last (bindingsPath outDir contract) = Path.last (indexPath outDir)) :
    Name.module contract = "r#mod" := by
  rw [last_bindingsPath, last_indexPath] at h
  exact fileName_module_eq_index.1 (String.toList_inj.1 h)

theorem bindingsPath_inj {outDir a b : String} :
    bindingsPath outDir a = bindingsPath outDir b ↔ Name.module a = Name.module b :=
  ⟨fun h => module_eq_of_last (congrArg Path.last h), fun h => by
    rw [bindingsPath, h, bindingsPath]⟩

theorem bindingsPath_eq_indexPath {outDir contract : String} :
    bindingsPath outDir contract = indexPath outDir ↔ Name.module contract = "r#mod" :=
  ⟨fun h => module_eq_mod_of_last (congrArg Path.last h), fun h => by
    rw [bindingsPath, fileName_module_eq_index.2 h, indexPath]⟩

/-- The written files are different ones exactly when all modules are. -/
theorem nodup_paths_iff {outDir : String} {names : List String} :
    (names.map (bindingsPath outDir) ++ [indexPath outDir]).Nodup ↔
      (names.map Name.module).Nodup ∧ "r#mod" ∉ names.map Name.module := by
  have hbindings : (names.map (bindingsPath outDir)).Nodup ↔ (names.map Name.module).Nodup := by
    simp only [List.Nodup, List.pairwise_map]
    exact List.Pairwise.iff fun a b => not_congr bindingsPath_inj
  have hindex : (∀ path ∈ names.map (bindingsPath outDir), ∀ other ∈ [indexPath outDir],
      path ≠ other) ↔ "r#mod" ∉ names.map Name.module := by
    rw [List.forall_mem_map, List.mem_map, not_exists]
    simp only [List.forall_mem_singleton, ne_eq, bindingsPath_eq_indexPath, not_and]
  rw [List.nodup_append, hbindings, hindex]
  exact and_congr_right fun _ => and_iff_right (List.pairwise_singleton _ _)

/-! ## Generation -/

/-- The index of the modules of contracts. -/
def indexOf (contracts : List String) : String :=
  index (contracts.map fun contract => (Name.module contract, Name.type contract))

/-- Generates the contracts that are chosen, and the index. -/
def generateChosen {m : Type → Type} [Monad m] (files : Files m)
    (runtimeCrate abiDir outDir : String) (contracts : List String) :
    ExceptT BindingError m (List String) := do
  run outDir (files.createDirs outDir)
  let written ← writeContracts files runtimeCrate abiDir outDir contracts
  run (indexPath outDir) (files.write (indexPath outDir) (indexOf contracts))
  return written ++ [indexPath outDir]

theorem generateToDir_eq {m : Type → Type} [Monad m] [LawfulMonad m] (files : Files m)
    (runtimeCrate abiDir outDir : String) (contracts : List String) :
    generateToDir files runtimeCrate abiDir outDir contracts =
      if contracts.isEmpty then
        discover files abiDir >>= generateChosen files runtimeCrate abiDir outDir
      else generateChosen files runtimeCrate abiDir outDir contracts := by
  unfold generateToDir
  split
  · rfl
  · exact pure_bind _ _

variable {σ : Type} {files : Files (StateM σ)} {text? : σ → String → Option String}
variable {runtimeCrate abiDir outDir contract path target : String} {s s' : σ}

theorem run_eq_ok {α : Type} {step : StateM σ (Except FileError α)} {a : α} :
    (run path step).run.run s = (.ok a, s') ↔ (step.run s).1 = .ok a ∧ (step.run s).2 = s' := by
  have hrun : (run path step).run.run s =
      ((step.run s).1.mapError (.file path), (step.run s).2) := rfl
  rw [hrun, Prod.mk.injEq, Outcome.mapError_eq_ok]

section
variable (hmap : files.IsMap text?)
include hmap

theorem readSchema_eq_ok {c : Contract}
    (h : ((readSchema files path).adapt BindingError.abi).run.run s = (.ok c, s')) :
    s' = s ∧ ∃ text, text? s path = some text ∧ Contract.ofText text = .ok c := by
  have hstate := hmap.readText_state path s
  have htext := @hmap.readText_ok path s
  rcases hread : (files.readText path).run s with ⟨r, mid⟩
  rw [hread] at hstate htext
  obtain rfl : mid = s := hstate
  have hrun : ((readSchema files path).adapt BindingError.abi).run.run mid =
      ((r.mapError AbiError.file >>= Contract.ofText).mapError BindingError.abi, mid) := by
    show (fun r => (r.1.mapError BindingError.abi, r.2)) ((readSchema files path).run.run mid) = _
    rw [readSchema, ExceptT.run_mk, StateT.run_bind, hread]
    cases r <;> rfl
  rw [hrun, Prod.mk.injEq, Outcome.mapError_eq_ok, Outcome.bind_eq_ok] at h
  obtain ⟨⟨text, hr, hc⟩, hs'⟩ := h
  exact ⟨hs'.symm, text, htext (Outcome.mapError_eq_ok.1 hr), hc⟩

/-- A contract is generated from the text of its schema, and its bindings are written. -/
theorem writeContract_eq_ok
    (h : (writeContract files runtimeCrate abiDir outDir contract).run.run s = (.ok target, s')) :
    target = bindingsPath outDir contract ∧
      ∃ text c source, text? s (schemaPath abiDir contract) = some text ∧
        Contract.ofText text = .ok c ∧ generate runtimeCrate contract c = .ok source ∧
        ((files.write (bindingsPath outDir contract) source).run s).1 = .ok () ∧
        ((files.write (bindingsPath outDir contract) source).run s).2 = s' := by
  unfold writeContract at h
  dsimp only at h
  obtain ⟨found, s₁, hfound, h₁⟩ := Outcome.run_run_bind.1 h
  obtain rfl : s₁ = s := (congrArg Prod.snd hfound).symm.trans (hmap.isFile_state _ s)
  split at h₁
  · cases congrArg Prod.fst h₁
  obtain ⟨c, s₂, hschema, h₂⟩ := Outcome.run_run_bind.1 h₁
  obtain ⟨rfl, text, htext, hc⟩ := readSchema_eq_ok hmap hschema
  obtain ⟨source, s₃, hgenerate, h₃⟩ := Outcome.run_run_bind.1 h₂
  obtain ⟨hsource, rfl⟩ := Prod.mk.inj hgenerate
  obtain ⟨u, s₄, hwrite, h₄⟩ := Outcome.run_run_bind.1 h₃
  obtain ⟨hwritten, rfl⟩ := run_eq_ok.1 hwrite
  obtain ⟨htarget, rfl⟩ := Prod.mk.inj h₄
  obtain rfl := Except.ok.inj htarget
  exact ⟨rfl, text, c, source, htext, hc, hsource, hwritten, rfl⟩

end

/-! ## What files hold -/

/-- Paths that end in other names than the written ones keep their texts. -/
def KeepsOthers (text? : σ → String → Option String) (written : List String) (s s' : σ) : Prop :=
  ∀ path text, (∀ target ∈ written, Path.last path ≠ Path.last target) →
    text? s path = some text → text? s' path = some text

/-- The file of a contract holds the bindings of its schema. -/
def HoldsBindings (text? : σ → String → Option String)
    (runtimeCrate abiDir outDir contract : String) (s : σ) : Prop :=
  ∃ text c source, text? s (schemaPath abiDir contract) = some text ∧
    Contract.ofText text = .ok c ∧ generate runtimeCrate contract c = .ok source ∧
    text? s (bindingsPath outDir contract) = some source

/-- The written files are different ones, that of each contract holds its bindings, and the index
declares the module of each contract once. -/
structure KeepsAll (text? : σ → String → Option String) (runtimeCrate abiDir outDir : String)
    (contracts paths : List String) (s : σ) : Prop where
  distinct : paths.Nodup
  bindings : ∀ contract ∈ contracts, HoldsBindings text? runtimeCrate abiDir outDir contract s
  declares : ∃ text, text? s (indexPath outDir) = some text ∧
    declared text = contracts.map Name.module ∧ (declared text).Nodup

variable {contracts names paths written more : List String} {s₁ s₂ s₃ : σ}

theorem KeepsOthers.append (h : KeepsOthers text? written s₁ s₂)
    (h' : KeepsOthers text? more s₂ s₃) : KeepsOthers text? (written ++ more) s₁ s₃ := by
  intro path text hpath htext
  rw [List.forall_mem_append] at hpath
  exact h' path text hpath.2 (h path text hpath.1 htext)

theorem HoldsBindings.of_keepsOthers
    (h : HoldsBindings text? runtimeCrate abiDir outDir contract s₁)
    (hkeeps : KeepsOthers text? written s₁ s₂)
    (hwritten : ∀ target ∈ written, IsTarget outDir target)
    (hother : ∀ target ∈ written, Path.last (bindingsPath outDir contract) ≠ Path.last target) :
    HoldsBindings text? runtimeCrate abiDir outDir contract s₂ := by
  obtain ⟨text, c, source, htext, hc, hsource, hheld⟩ := h
  have hschema : ∀ target ∈ written,
      Path.last (schemaPath abiDir contract) ≠ Path.last target := fun target htarget =>
    last_schemaPath_ne_target (hwritten target htarget)
  exact ⟨text, c, source, hkeeps _ _ hschema htext, hc, hsource, hkeeps _ _ hother hheld⟩

/-! ## Runs -/

section
variable (hmap : files.IsMap text?)
include hmap

theorem keepsOthers_write (path text : String) (s : σ) :
    KeepsOthers text? [path] s ((files.write path text).run s).2 := fun _ _ hother hold =>
  hmap.write_keeps (hother path List.mem_cons_self) hold

theorem writeContract_holds
    (h : (writeContract files runtimeCrate abiDir outDir contract).run.run s = (.ok target, s')) :
    target = bindingsPath outDir contract ∧
      KeepsOthers text? [bindingsPath outDir contract] s s' ∧
      HoldsBindings text? runtimeCrate abiDir outDir contract s' := by
  obtain ⟨htarget, text, c, source, htext, hc, hsource, hwritten, rfl⟩ := writeContract_eq_ok hmap h
  have hkeeps := keepsOthers_write hmap (bindingsPath outDir contract) source s
  have hschema : ∀ target ∈ [bindingsPath outDir contract],
      Path.last (schemaPath abiDir contract) ≠ Path.last target :=
    List.forall_mem_singleton.2 (last_schemaPath_ne_target (.inr ⟨contract, rfl⟩))
  exact ⟨htarget, hkeeps, text, c, source, hkeeps _ _ hschema htext, hc, hsource,
    hmap.write_ok hwritten⟩

/-- The bindings of a contract are kept if no later contract has its module. -/
theorem writeContracts_holds
    (h : (writeContracts files runtimeCrate abiDir outDir contracts).run.run s = (.ok paths, s')) :
    paths = contracts.map (bindingsPath outDir) ∧ KeepsOthers text? paths s s' ∧
      ∀ front contract rest, contracts = front ++ contract :: rest →
        Name.module contract ∉ rest.map Name.module →
        HoldsBindings text? runtimeCrate abiDir outDir contract s' := by
  induction contracts generalizing s paths with
  | nil =>
    obtain ⟨hpaths, rfl⟩ := Prod.mk.inj h
    obtain rfl := Except.ok.inj hpaths
    refine ⟨rfl, fun _ _ _ htext => htext, fun front contract rest heq => ?_⟩
    exact absurd heq.symm (List.append_ne_nil_of_right_ne_nil _ (List.cons_ne_nil _ _))
  | cons first tail ih =>
    obtain ⟨target, mid, hfirst, h₁⟩ := Outcome.run_run_bind.1 h
    obtain ⟨more, s₂, htail, h₂⟩ := Outcome.run_run_bind.1 h₁
    obtain ⟨hpaths, rfl⟩ := Prod.mk.inj h₂
    obtain ⟨htarget, hkeeps, hheld⟩ := writeContract_holds hmap hfirst
    obtain ⟨hmore, hkeepsTail, hheldTail⟩ := ih htail
    have hall : target :: more = (first :: tail).map (bindingsPath outDir) := by
      rw [List.map_cons, htarget, hmore]
    refine ⟨(Except.ok.inj hpaths).symm.trans hall, ?_, fun front contract rest heq hlater => ?_⟩
    · rw [← Except.ok.inj hpaths, htarget]
      exact hkeeps.append hkeepsTail
    · cases front with
      | cons _ front => exact hheldTail front contract rest (List.cons.inj heq).2 hlater
      | nil =>
        obtain ⟨rfl, rfl⟩ := List.cons.inj heq
        rw [hmore] at hkeepsTail
        refine hheld.of_keepsOthers hkeepsTail (List.forall_mem_map.2 fun later _ => ?_)
          (List.forall_mem_map.2 fun later hmem hlast => hlater ?_)
        · exact .inr ⟨later, rfl⟩
        · exact List.mem_map.2 ⟨later, hmem, (module_eq_of_last hlast).symm⟩

theorem discover_state (h : (discover files abiDir).run.run s = (.ok names, s')) : s' = s := by
  obtain ⟨entries, mid, hentries, h₁⟩ := Outcome.run_run_bind.1 h
  obtain ⟨-, rfl⟩ := run_eq_ok.1 hentries
  exact (Prod.mk.inj h₁).2.symm.trans (hmap.entries_state abiDir s)

/-- The index is written behind all bindings, and takes the place of none but those of the module
named after `mod`. -/
theorem generateChosen_holds
    (h : (generateChosen files runtimeCrate abiDir outDir names).run.run s = (.ok paths, s')) :
    paths = names.map (bindingsPath outDir) ++ [indexPath outDir] ∧
      KeepsOthers text? paths s s' ∧ text? s' (indexPath outDir) = some (indexOf names) ∧
      ∀ front contract rest, names = front ++ contract :: rest →
        Name.module contract ∉ rest.map Name.module → Name.module contract ≠ "r#mod" →
        HoldsBindings text? runtimeCrate abiDir outDir contract s' := by
  obtain ⟨u, s₁, hdirs, h₁⟩ := Outcome.run_run_bind.1 h
  obtain ⟨written, s₂, hwritten, h₂⟩ := Outcome.run_run_bind.1 h₁
  obtain ⟨v, s₃, hindex, h₃⟩ := Outcome.run_run_bind.1 h₂
  obtain ⟨hpaths, rfl⟩ := Prod.mk.inj h₃
  obtain ⟨-, rfl⟩ := run_eq_ok.1 hdirs
  obtain ⟨hwrite, rfl⟩ := run_eq_ok.1 hindex
  obtain ⟨hbindings, hkeeps, hheld⟩ := writeContracts_holds hmap hwritten
  have hpaths : written ++ [indexPath outDir] = paths := Except.ok.inj hpaths
  have hkeepsIndex := keepsOthers_write hmap (indexPath outDir) (indexOf names) s₂
  refine ⟨by rw [← hpaths, hbindings], ?_, hmap.write_ok hwrite, ?_⟩
  · rw [← hpaths]
    have hkeepsAll := hkeeps.append hkeepsIndex
    exact fun path text hpath htext => hkeepsAll path text hpath (hmap.createDirs_keeps htext)
  · intro front contract rest heq hlater hmod
    exact (hheld front contract rest heq hlater).of_keepsOthers hkeepsIndex
      (List.forall_mem_singleton.2 (.inl rfl))
      (List.forall_mem_singleton.2 fun hlast => hmod (module_eq_mod_of_last hlast))

end

/-- The contracts that are generated: the given ones, or all that the directory has schemas of. -/
def Chosen (files : Files (StateM σ)) (abiDir : String) (contracts names : List String) (s : σ) :
    Prop :=
  if contracts.isEmpty then (discover files abiDir).run.run s = (.ok names, s)
  else names = contracts

theorem keepsAll_iff (hpaths : paths = names.map (bindingsPath outDir) ++ [indexPath outDir])
    (hindex : text? s (indexPath outDir) = some (indexOf names))
    (hheld : ∀ front contract rest, names = front ++ contract :: rest →
      Name.module contract ∉ rest.map Name.module → Name.module contract ≠ "r#mod" →
      HoldsBindings text? runtimeCrate abiDir outDir contract s) :
    KeepsAll text? runtimeCrate abiDir outDir names paths s ↔
      (names.map Name.module).Nodup ∧ "r#mod" ∉ names.map Name.module := by
  have hdeclared : declared (indexOf names) = names.map Name.module := by
    have hlines : ∀ m ∈ names.map fun contract => (Name.module contract, Name.type contract),
        '\n' ∉ m.1.toList ∧ '\n' ∉ m.2.toList := by
      intro m hm
      obtain ⟨contract, -, rfl⟩ := List.mem_map.1 hm
      dsimp only
      exact ⟨newline_notMem_module contract, newline_notMem_type contract⟩
    simp only [indexOf, declared_index hlines, List.map_map, Function.comp_def]
  constructor
  · rintro ⟨hdistinct, -, -⟩
    exact nodup_paths_iff.1 (hpaths ▸ hdistinct)
  · rintro ⟨hnodup, hmod⟩
    refine ⟨hpaths ▸ nodup_paths_iff.2 ⟨hnodup, hmod⟩, fun contract hcontract => ?_,
      indexOf names, hindex, hdeclared, hdeclared ▸ hnodup⟩
    obtain ⟨front, rest, rfl⟩ := List.append_of_mem hcontract
    rw [List.map_append, List.map_cons, List.nodup_append, List.nodup_cons] at hnodup
    refine hheld front contract rest rfl hnodup.2.1.1 fun hmodule => hmod ?_
    exact List.mem_map.2 ⟨contract, hcontract, hmodule⟩

/-- Whenever a directory of bindings is generated, the bindings of all contracts are kept, and the
index declares every module once, exactly when the contracts have different modules and none is
named after `mod`; files of other names stay as they are. -/
theorem generateToDir_keepsAll_iff (hmap : files.IsMap text?)
    (h : (generateToDir files runtimeCrate abiDir outDir contracts).run.run s = (.ok paths, s')) :
    ∃ names, Chosen files abiDir contracts names s ∧
      paths = names.map (bindingsPath outDir) ++ [indexPath outDir] ∧
      KeepsOthers text? paths s s' ∧
      (KeepsAll text? runtimeCrate abiDir outDir names paths s' ↔
        (names.map Name.module).Nodup ∧ "r#mod" ∉ names.map Name.module) := by
  have hchosen : ∃ names, Chosen files abiDir contracts names s ∧
      (generateChosen files runtimeCrate abiDir outDir names).run.run s = (.ok paths, s') := by
    rw [generateToDir_eq] at h
    unfold Chosen
    split at h
    · next hempty =>
      obtain ⟨names, s₁, hnames, h₁⟩ := Outcome.run_run_bind.1 h
      obtain rfl := discover_state hmap hnames
      exact ⟨names, by rwa [if_pos hempty], h₁⟩
    · next hempty => exact ⟨contracts, by rw [if_neg hempty], h⟩
  obtain ⟨names, hnames, hrun⟩ := hchosen
  obtain ⟨hpaths, hkeeps, hindex, hheld⟩ := generateChosen_holds hmap hrun
  exact ⟨names, hnames, hpaths, hkeeps, keepsAll_iff hpaths hindex hheld⟩

/-- The schemas of two contracts, one of them named after a keyword. -/
def walletSchemas : FileTree :=
  .ofFiles [("abi/Wallet.abi.json", "\x7b\x7d"), ("abi/Type.abi.json", "\x7b\x7d")]

theorem generateToDir_keepsAll_wallet :
    FileTree.access.IsMap FileTree.textAt? ∧
      ∃ after, (generateToDir FileTree.access "tvm_abi" "abi" "out" ["Wallet", "Type"]).run.run
          walletSchemas = (.ok ["out/wallet.rs", "out/type.rs", "out/mod.rs"], after) ∧
        KeepsAll FileTree.textAt? "tvm_abi" "abi" "out" ["Wallet", "Type"]
          ["out/wallet.rs", "out/type.rs", "out/mod.rs"] after := by
  have hpaths : ((generateToDir FileTree.access "tvm_abi" "abi" "out" ["Wallet", "Type"]).run.run
      walletSchemas).1.toOption = some ["out/wallet.rs", "out/type.rs", "out/mod.rs"] := by
    decide +kernel
  rcases hrun : (generateToDir FileTree.access "tvm_abi" "abi" "out" ["Wallet", "Type"]).run.run
    walletSchemas with ⟨_ | paths, after⟩
  · rw [hrun] at hpaths
    cases hpaths
  rw [hrun] at hpaths
  obtain rfl := Option.some.inj hpaths
  obtain ⟨names, hnames, -, -, hiff⟩ := generateToDir_keepsAll_iff FileTree.access_isMap hrun
  obtain rfl : names = ["Wallet", "Type"] := hnames
  exact ⟨FileTree.access_isMap, after, rfl, hiff.2 ⟨by decide, by decide⟩⟩

/-- The schema of a contract whose bindings have the file of the index. -/
def modSchema : FileTree := .ofFiles [("abi/Mod.abi.json", "\x7b\x7d")]

theorem not_keepsAll_mod :
    ∃ after, (generateToDir FileTree.access "tvm_abi" "abi" "out" ["Mod"]).run.run modSchema =
        (.ok ["out/mod.rs", "out/mod.rs"], after) ∧
      after.textAt? "out/mod.rs" = some (indexOf ["Mod"]) ∧
      ¬ KeepsAll FileTree.textAt? "tvm_abi" "abi" "out" ["Mod"] ["out/mod.rs", "out/mod.rs"]
        after :=
  ⟨_, rfl, rfl, fun h => absurd h.distinct (by decide)⟩

end CellAbi.Bindings
