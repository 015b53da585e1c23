import CellAbi.Proofs.Bindings.Declarations
import Mathlib.Data.List.Nodup

/-!
# Deploying methods

A method deploys when it puts the initial state of the client into its message.  Exactly one method
of the bindings of an accepted schema does: the internal send of the constructor if the schema has
one, and a plain deployment if not.  No two functions are constructors, because the names of their
methods would be generated twice.  A function may be called so that its internal send has the name
of the plain deployment; it has that name in the place of it, and does not deploy.

    m.attachingMethods = (if m.hasConstructor then [] else [some "sendDeploy"]) ++
      (m.functions.filter (·.deploys)).map fun f => some f.send             (`attachingMethods_eq`)
    ofContract crate contract c = .ok m →
      no function is a constructor and m.attachingMethods = [some "sendDeploy"], or
      one function is and m.attachingMethods = [some "sendConstructor"]
                                                                    (`attachingMethods_ofContract`)
-/

namespace CellAbi

/-! ## Methods with an attachment -/

/-- The methods in which the initial state is put into a message, one for each time that it is;
`current` is the one that is being read. -/
def attachers (current : Option String) : List Landmark → List (Option String)
  | [] => []
  | .struct _ :: rest => attachers none rest
  | .method name :: rest => attachers (some name) rest
  | .attachment :: rest => current :: attachers current rest

namespace BindingModule

/-- What the lines of the rendered module tell. -/
def sourceLandmarks (m : BindingModule) : List Landmark :=
  (Source.textsOf (Render.moduleSource m)).filterMap Landmark.ofText?

/-- The methods of the rendered module. -/
def generatedMethods (m : BindingModule) : List String :=
  m.sourceLandmarks.filterMap Landmark.method?

/-- The methods of the rendered module in which the initial state is put into a message. -/
def attachingMethods (m : BindingModule) : List (Option String) :=
  attachers none m.sourceLandmarks

end BindingModule

theorem attachers_structs (structs : List Struct) (rest : List Landmark) :
    attachers none (structs.map (fun s => .struct s.name) ++ rest) = attachers none rest := by
  induction structs with
  | nil => rfl
  | cons s structs ih => exact ih

theorem attachers_client (m : BindingModule) (rest : List Landmark) :
    attachers none (m.clientLandmarks ++ rest) =
      (if m.hasConstructor then [] else [some "sendDeploy"]) ++
        attachers (some "getStateVariables") rest := by
  unfold BindingModule.clientLandmarks
  split <;> rfl

theorem attachers_getters (current : Option String) (getters : List GetterBinding) :
    attachers current (getters.map fun g => .method g.method) = [] := by
  induction getters generalizing current with
  | nil => rfl
  | cons g getters ih => exact ih (some g.method)

theorem attachers_function (current : Option String) (f : FunctionBinding) (rest : List Landmark) :
    attachers current (f.landmarks ++ rest) =
      (if f.deploys then [some f.send] else []) ++ attachers (some f.sendExternal) rest := by
  unfold FunctionBinding.landmarks
  split <;> rfl

theorem attachers_functions (current : Option String) (functions : List FunctionBinding)
    (getters : List GetterBinding) :
    attachers current
        (functions.flatMap (·.landmarks) ++ getters.map fun g => .method g.method) =
      (functions.filter (·.deploys)).map fun f => some f.send := by
  induction functions generalizing current with
  | nil => exact attachers_getters current getters
  | cons f functions ih =>
    rw [List.flatMap_cons, List.append_assoc, attachers_function, ih, List.filter_cons]
    split <;> rfl

theorem Contract.hasConstructor_iff {c : Contract} :
    c.hasConstructor = true ↔ ∃ f ∈ c.functions, f.name = "constructor" := by
  rw [hasConstructor, function?, List.find?_isSome]
  simp only [beq_iff_eq]

namespace BindingModule

theorem sourceLandmarks_eq {m : BindingModule} (h : m.IsInline) : m.sourceLandmarks = m.landmarks :=
  have hreads : Reads False (Render.moduleSource m) m.landmarks :=
    Render.reads_moduleSource h False.elim
  hreads.landmarks_eq

theorem generatedMethods_perm {m : BindingModule} (h : m.IsInline) :
    m.generatedMethods.Perm m.methodNames := by
  rw [generatedMethods, sourceLandmarks_eq h]
  exact m.methods_landmarks

theorem attachingMethods_eq {m : BindingModule} (h : m.IsInline) :
    m.attachingMethods = (if m.hasConstructor then [] else [some "sendDeploy"]) ++
      (m.functions.filter (·.deploys)).map fun f => some f.send := by
  rw [attachingMethods, sourceLandmarks_eq h, landmarks, List.append_assoc, List.append_assoc,
    attachers_structs, attachers_client, attachers_functions]

/-! ## Functions of a schema -/

variable {runtimeCrate contract : String} {c : Contract} {m : BindingModule}

/-- What the methods of a function are called after, and whether they deploy. -/
theorem functions_ofValid (h : ofValid runtimeCrate contract c = .ok m) :
    m.hasConstructor = c.hasConstructor ∧
      m.functions.map (·.abiName) = c.functions.map (·.name) ∧
      ∀ f ∈ m.functions, f.body = Name.body f.abiName ∧ f.send = Name.send f.abiName ∧
        f.deploys = (f.abiName == "constructor") := by
  obtain ⟨init, state, functions, getters, -, -, hfunctions, -, rfl⟩ := ofValid_eq_ok.1 h
  refine ⟨rfl, Outcome.map_eq_of_mapM hfunctions fun f b hb => ?_, fun b hb => ?_⟩
  · obtain ⟨inputs, -, rfl⟩ := FunctionBinding.ofFunction_eq_ok.1 hb
    rfl
  · obtain ⟨f, -, hf⟩ := (Outcome.mapM_spec hfunctions).2.2 b hb
    obtain ⟨inputs, -, rfl⟩ := FunctionBinding.ofFunction_eq_ok.1 hf
    exact ⟨rfl, rfl, rfl⟩

theorem nodup_methodNames (h : ofContract runtimeCrate contract c = .ok m) :
    m.methodNames.Nodup := by
  rw [(names_ofValid (ofContract_eq_ok h).2).2.1]
  exact (distinct_of_ofContract h).methods

theorem send_mem_methodNames {f : FunctionBinding} (h : f ∈ m.functions) :
    f.send ∈ m.methodNames := by
  refine List.mem_append_left _ (List.mem_append_right _ (List.mem_flatMap.2 ⟨f, h, ?_⟩))
  exact List.mem_cons_of_mem _ List.mem_cons_self

/-- No two functions have the same name: the builders of their bodies would have, too. -/
theorem nodup_abiNames (h : ofContract runtimeCrate contract c = .ok m) :
    (m.functions.map (·.abiName)).Nodup := by
  obtain ⟨-, -, hnames⟩ := functions_ofValid (ofContract_eq_ok h).2
  have hfront := (List.nodup_append.1 (nodup_methodNames h)).1
  have hdisjoint := (List.nodup_flatMap.1 (List.nodup_append.1 hfront).2.1).2
  refine List.pairwise_map.2 (hdisjoint.imp_of_mem fun {f g} hf hg hfg heq => ?_)
  have hbody : f.body = g.body := by
    rw [(hnames f hf).1, heq, (hnames g hg).1]
  exact hfg List.mem_cons_self (hbody ▸ List.mem_cons_self)

/-- A constructor is the only one. -/
theorem exists_constructor (h : ofContract runtimeCrate contract c = .ok m)
    (hconstructor : ∃ f ∈ c.functions, f.name = "constructor") :
    ∃ before f after, m.functions = before ++ f :: after ∧ f.abiName = "constructor" ∧
      ∀ g ∈ before ++ after, g.abiName ≠ "constructor" := by
  obtain ⟨-, hnames, -⟩ := functions_ofValid (ofContract_eq_ok h).2
  have hmem : "constructor" ∈ m.functions.map (·.abiName) := by
    rw [hnames]
    exact List.mem_map.2 hconstructor
  obtain ⟨f, hf, hname⟩ := List.mem_map.1 hmem
  obtain ⟨before, after, hsplit⟩ := List.append_of_mem hf
  have hnodup := nodup_abiNames h
  rw [hsplit, List.map_append, List.map_cons, List.nodup_middle, ← List.map_append,
    List.nodup_cons] at hnodup
  refine ⟨before, f, after, hsplit, hname, fun g hg hgname => hnodup.1 ?_⟩
  exact List.mem_map.2 ⟨g, hg, hgname.trans hname.symm⟩

/-- The name of the plain deployment, where there is a constructor, is that of an internal send. -/
theorem exists_send_of_mem (h : ofValid runtimeCrate contract c = .ok m)
    (hconstructor : ∃ f ∈ c.functions, f.name = "constructor")
    (hmem : "sendDeploy" ∈ m.methodNames) : ∃ f ∈ m.functions, f.send = "sendDeploy" := by
  obtain ⟨hflag, hnames, hfunctions⟩ := functions_ofValid h
  have hsuffix {name suffix : String} (h : ¬ suffix.toList <:+ "sendDeploy".toList) :
      "sendDeploy" ≠ name ++ suffix := by
    intro heq
    refine h ?_
    rw [heq, String.toList_append]
    exact List.suffix_append _ _
  rw [(names_ofValid h).2.1, Contract.methodNames,
    if_pos (Contract.hasConstructor_iff.2 hconstructor), List.append_nil] at hmem
  obtain hmem | hmem := List.mem_append.1 hmem
  · obtain hmem | hmem := List.mem_append.1 hmem
    · exact absurd hmem (by decide)
    -- The names of the other three methods of a function end otherwise.
    obtain ⟨f, hf, hmem⟩ := List.mem_flatMap.1 hmem
    simp only [List.mem_cons, List.not_mem_nil, or_false] at hmem
    obtain hbody | hsend | hexternal | hlast := hmem
    · exact absurd hbody (hsuffix (by decide))
    · have hname : f.name ∈ m.functions.map (·.abiName) := hnames ▸ List.mem_map_of_mem hf
      obtain ⟨g, hg, hname⟩ := List.mem_map.1 hname
      exact ⟨g, hg, by rw [(hfunctions g hg).2.1, hname, hsend]⟩
    · exact absurd hexternal (hsuffix (by decide))
    · exact absurd hlast (hsuffix (by decide))
  -- The method of a getter begins otherwise.
  · obtain ⟨g, -, hget⟩ := List.mem_map.1 hmem
    have hprefix := Name.prefix_withWord "get" g.name
    rw [← Name.get, hget] at hprefix
    exact absurd hprefix (by decide)

theorem deploys_eq_false (h : ofValid runtimeCrate contract c = .ok m) {f : FunctionBinding}
    (hf : f ∈ m.functions) (hname : f.abiName ≠ "constructor") : f.deploys = false := by
  obtain ⟨-, -, hfunctions⟩ := functions_ofValid h
  rw [(hfunctions f hf).2.2]
  exact beq_false_of_ne hname

theorem count_generatedMethods (h : ofContract runtimeCrate contract c = .ok m) {name : String}
    (hname : name ∈ m.methodNames) : m.generatedMethods.count name = 1 := by
  rw [(generatedMethods_perm (isInline_ofValid (ofContract_eq_ok h).2)).count_eq]
  exact List.count_eq_one_of_mem (nodup_methodNames h) hname

/-! ## The method that deploys -/

/-- Without a constructor. -/
theorem attachingMethods_of_forall_ne (h : ofValid runtimeCrate contract c = .ok m)
    (hnone : ∀ f ∈ c.functions, f.name ≠ "constructor") :
    m.hasConstructor = false ∧ m.attachingMethods = [some "sendDeploy"] ∧
      ∀ f ∈ m.functions, f.abiName ≠ "constructor" ∧ f.deploys = false := by
  obtain ⟨hflag, hnames, -⟩ := functions_ofValid h
  have hothers : ∀ f ∈ m.functions, f.abiName ≠ "constructor" := by
    intro f hf
    have hmem : f.abiName ∈ c.functions.map (·.name) := hnames ▸ List.mem_map_of_mem hf
    obtain ⟨g, hg, hname⟩ := List.mem_map.1 hmem
    exact hname ▸ hnone g hg
  have hplain : ∀ f ∈ m.functions, f.deploys = false := fun f hf =>
    deploys_eq_false h hf (hothers f hf)
  have hconstructor : m.hasConstructor = false := by
    rw [hflag, Bool.eq_false_iff, Ne, Contract.hasConstructor_iff]
    exact fun ⟨f, hf, hname⟩ => hnone f hf hname
  have hfilter : m.functions.filter (·.deploys) = [] :=
    List.filter_eq_nil_iff.2 fun f hf => Bool.eq_false_iff.1 (hplain f hf)
  refine ⟨hconstructor, ?_, fun f hf => ⟨hothers f hf, hplain f hf⟩⟩
  rw [attachingMethods_eq (isInline_ofValid h), hconstructor, hfilter]
  rfl

/-- With a constructor `f`. -/
theorem attachingMethods_of_split (h : ofValid runtimeCrate contract c = .ok m)
    {before after : List FunctionBinding} {f : FunctionBinding}
    (hsplit : m.functions = before ++ f :: after) (hname : f.abiName = "constructor")
    (hothers : ∀ g ∈ before ++ after, g.abiName ≠ "constructor") :
    f.send = "sendConstructor" ∧ f.deploys = true ∧ m.attachingMethods = [some f.send] ∧
      ∀ g ∈ before ++ after, g.deploys = false := by
  obtain ⟨hflag, hnames, hfunctions⟩ := functions_ofValid h
  have hf : f ∈ m.functions := hsplit ▸ List.mem_append_right _ List.mem_cons_self
  have hplain : ∀ g ∈ before ++ after, g.deploys = false := by
    refine fun g hg => deploys_eq_false h ?_ (hothers g hg)
    rw [hsplit]
    exact List.perm_middle.mem_iff.2 (List.mem_cons_of_mem _ hg)
  have hdeploys : f.deploys = true := by
    rw [(hfunctions f hf).2.2, hname]
    rfl
  have hconstructor : c.hasConstructor = true := by
    have hmem : "constructor" ∈ c.functions.map (·.name) :=
      hnames ▸ List.mem_map.2 ⟨f, hf, hname⟩
    exact Contract.hasConstructor_iff.2 (List.mem_map.1 hmem)
  have hfilter : m.functions.filter (·.deploys) = [f] := by
    obtain ⟨hbefore, hafter⟩ := List.forall_mem_append.1 hplain
    rw [hsplit, List.filter_append, List.filter_cons_of_pos hdeploys,
      List.filter_eq_nil_iff.2 fun g hg => Bool.eq_false_iff.1 (hbefore g hg),
      List.filter_eq_nil_iff.2 fun g hg => Bool.eq_false_iff.1 (hafter g hg)]
    rfl
  have hsend : f.send = "sendConstructor" := by
    rw [(hfunctions f hf).2.1, hname]
    decide
  refine ⟨hsend, hdeploys, ?_, hplain⟩
  rw [attachingMethods_eq (isInline_ofValid h), hflag, hconstructor, hfilter]
  rfl

/-- Exactly one method of the bindings of an accepted schema puts the initial state into its
message: without a constructor the plain deployment, otherwise the internal send of the only
constructor, and then a method with the name of the plain deployment is that of another function. -/
theorem attachingMethods_ofContract (hm : ofContract runtimeCrate contract c = .ok m) :
    ((∀ f ∈ c.functions, f.name ≠ "constructor") →
      m.attachingMethods = [some "sendDeploy"] ∧ m.generatedMethods.count "sendDeploy" = 1 ∧
        ∀ f ∈ m.functions, f.abiName ≠ "constructor" ∧ f.deploys = false) ∧
    ((∃ f ∈ c.functions, f.name = "constructor") →
      ∃ before f after, m.functions = before ++ f :: after ∧
        f.abiName = "constructor" ∧ f.send = "sendConstructor" ∧ f.deploys = true ∧
        (∀ g ∈ before ++ after, g.abiName ≠ "constructor" ∧ g.deploys = false) ∧
        m.attachingMethods = [some f.send] ∧ m.generatedMethods.count f.send = 1 ∧
        ("sendDeploy" ∈ m.generatedMethods ↔ ∃ g ∈ before ++ after, g.send = "sendDeploy")) := by
  obtain ⟨-, hvalid⟩ := ofContract_eq_ok hm
  constructor
  · intro hnone
    obtain ⟨hconstructor, hattaching, hfunctions⟩ := attachingMethods_of_forall_ne hvalid hnone
    refine ⟨hattaching, count_generatedMethods hm ?_, hfunctions⟩
    rw [methodNames, hconstructor]
    exact List.mem_append_left _ (List.mem_append_left _ (by decide))
  intro hsome
  obtain ⟨before, f, after, hsplit, hname, hothers⟩ := exists_constructor hm hsome
  obtain ⟨hsend, hdeploys, hattaching, hplain⟩ :=
    attachingMethods_of_split hvalid hsplit hname hothers
  have hperm := generatedMethods_perm (isInline_ofValid hvalid)
  have hmem (g : FunctionBinding) : g ∈ m.functions ↔ g = f ∨ g ∈ before ++ after := by
    rw [hsplit, List.perm_middle.mem_iff, List.mem_cons]
  refine ⟨before, f, after, hsplit, hname, hsend, hdeploys,
    fun g hg => ⟨hothers g hg, hplain g hg⟩, hattaching,
    count_generatedMethods hm (send_mem_methodNames ((hmem f).2 (.inl rfl))), ?_⟩
  rw [hperm.mem_iff]
  constructor
  · intro hdeploy
    obtain ⟨g, hg, hgsend⟩ := exists_send_of_mem hvalid hsome hdeploy
    refine ⟨g, ((hmem g).1 hg).resolve_left fun heq => ?_, hgsend⟩
    rw [heq, hsend] at hgsend
    exact absurd hgsend (by decide)
  · rintro ⟨g, hg, hgsend⟩
    exact hgsend ▸ send_mem_methodNames ((hmem g).2 (.inr hg))

/-- A schema with a constructor and another function. -/
def constructorSchema : Contract := { functions := [{ name := "constructor" }, { name := "mint" }] }

theorem attachingMethods_constructorSchema :
    (∃ m, ofContract "tvm_abi" "Token" {} = .ok m ∧ m.attachingMethods = [some "sendDeploy"]) ∧
    ∃ m, ofContract "tvm_abi" "Token" constructorSchema = .ok m ∧
      m.attachingMethods = [some "sendConstructor"] ∧ "sendDeploy" ∉ m.generatedMethods := by
  constructor
  · obtain ⟨m, hm⟩ : ∃ m, ofContract "tvm_abi" "Token" {} = .ok m := ⟨_, rfl⟩
    exact ⟨m, hm, ((attachingMethods_ofContract hm).1 nofun).1⟩
  obtain ⟨m, hm, hsends⟩ : ∃ m, ofContract "tvm_abi" "Token" constructorSchema = .ok m ∧
      m.functions.map (·.send) = ["sendConstructor", "sendMint"] := ⟨_, rfl, rfl⟩
  obtain ⟨before, f, after, hsplit, -, hsend, -, -, hattaching, -, hdeploy⟩ :=
    (attachingMethods_ofContract hm).2 ⟨_, List.mem_cons_self, rfl⟩
  refine ⟨m, hm, hsend ▸ hattaching, fun hmem => ?_⟩
  obtain ⟨g, hg, hgsend⟩ := hdeploy.1 hmem
  have hgmem : g ∈ m.functions := by
    rw [hsplit]
    exact List.perm_middle.mem_iff.2 (List.mem_cons_of_mem _ hg)
  have hsends : g.send ∈ ["sendConstructor", "sendMint"] := hsends ▸ List.mem_map_of_mem hgmem
  rw [hgsend] at hsends
  exact absurd hsends (by decide)

/-- A schema with a constructor and a function whose internal send has the name of the plain
deployment. -/
def deploySchema : Contract := { functions := [{ name := "constructor" }, { name := "deploy" }] }

theorem sendDeploy_mem_deploySchema :
    (∃ f ∈ deploySchema.functions, f.name = "constructor") ∧
      ∃ m, ofContract "tvm_abi" "Wallet" deploySchema = .ok m ∧
        "sendDeploy" ∈ m.generatedMethods := by
  obtain ⟨m, hm, hmem⟩ : ∃ m, ofContract "tvm_abi" "Wallet" deploySchema = .ok m ∧
      "sendDeploy" ∈ m.methodNames := ⟨_, rfl, by decide⟩
  have hperm := generatedMethods_perm (isInline_ofValid (ofContract_eq_ok hm).2)
  exact ⟨⟨_, List.mem_cons_self, rfl⟩, m, hm, hperm.mem_iff.2 hmem⟩

end BindingModule

end CellAbi
