import CellAbi.Proofs.Bindings.Deployment

/-!
# The methods of one function

The word in front of a method's name is put there once, and the names of the four methods of a
function cannot meet: what is put behind a name begins with a capital, which the words do not have,
so that a word in front of a name with a suffix is one in front of the name.  A function that is
alone in its schema can therefore meet only the methods that every contract has, and of these only
the plain deployment.

    word <+: cs ++ suffix → word <+: cs    if the suffix begins with no letter of the word
                                                                        (`prefix_of_prefix_append`)
    name ++ suffix ≠ withWord start name                                     (`append_ne_withWord`)
    (methods name).Nodup                                                          (`nodup_methods`)
    c.methodNames.Nodup ↔ Name.send f.name ≠ "sendDeploy"    for a schema of one function `f`
                                                                  (`nodup_methodNames_iff`)
-/

namespace CellAbi

/-! ## Words in front and suffixes behind -/

theorem prefix_of_prefix_append {word cs suffix : List Char} (h : word <+: cs ++ suffix)
    (hhead : ∀ c ∈ suffix.head?, c ∉ word) : word <+: cs := by
  obtain hword | ⟨rest, hrest⟩ := List.prefix_or_prefix_of_prefix h (List.prefix_append cs suffix)
  · exact hword
  -- What the word has behind the name begins the suffix.
  rw [← hrest, List.prefix_append_right_inj] at h
  cases rest with
  | nil =>
    rw [List.append_nil] at hrest
    exact hrest ▸ List.prefix_refl cs
  | cons c rest =>
    obtain ⟨after, hsuffix⟩ := h
    have hmem : c ∈ word := hrest ▸ List.mem_append_right cs List.mem_cons_self
    exact absurd hmem (hhead c (by rw [← hsuffix]; rfl))

namespace Name

theorem withWord_of_started {start name : String} (h : start.toList <+: name.toList) :
    withWord start name = name := by
  obtain ⟨rest, hrest⟩ := h
  refine if_pos ?_
  rw [Text.isPrefixOf?_eq_some.2 hrest.symm]
  rfl

theorem withWord_withWord (start name : String) :
    withWord start (withWord start name) = withWord start name :=
  withWord_of_started (prefix_withWord start name)

theorem append_ne_withWord {start name suffix : String} (hne : suffix ≠ "")
    (hhead : ∀ c ∈ suffix.toList.head?, c ∉ start.toList) :
    name ++ suffix ≠ withWord start name := by
  intro heq
  have hstart : start.toList <+: name.toList ++ suffix.toList := by
    rw [← String.toList_append, heq]
    exact prefix_withWord start name
  rw [withWord_of_started (prefix_of_prefix_append hstart hhead)] at heq
  exact hne (String.append_eq_left_iff.1 heq)

theorem append_ne_append {a b suffix suffix' : String} (h : ¬ suffix.toList <:+ suffix'.toList)
    (h' : ¬ suffix'.toList <:+ suffix.toList) : a ++ suffix ≠ b ++ suffix' := by
  intro heq
  rw [← String.toList_inj, String.toList_append, String.toList_append] at heq
  have hend : suffix.toList <:+ b.toList ++ suffix'.toList := ⟨_, heq⟩
  obtain hshort | hshort := List.suffix_or_suffix_of_suffix hend (List.suffix_append _ _)
  · exact h hshort
  · exact h' hshort

/-! ## The four methods -/

/-- The methods of a function. -/
def methods (name : String) : List String :=
  [body name, send name, bodyExternal name, sendExternal name]

theorem bodyExternal_eq (name : String) : bodyExternal name = body name ++ "External" := by
  rw [bodyExternal, body, String.append_assoc]
  rfl

theorem body_ne_send (name : String) : body name ≠ send name :=
  append_ne_withWord (by decide) (by decide)

theorem nodup_methods (name : String) : (methods name).Nodup := by
  have hbodies : body name ≠ bodyExternal name := fun h =>
    absurd (String.append_eq_left_iff.1 ((bodyExternal_eq name).symm.trans h.symm)) (by decide)
  have hbody : body name ≠ sendExternal name := append_ne_append (by decide) (by decide)
  have hsend : send name ≠ bodyExternal name :=
    Ne.symm (append_ne_withWord (by decide) (by decide))
  have hsends : send name ≠ sendExternal name := fun h =>
    absurd (String.append_eq_left_iff.1 h.symm) (by decide)
  have hexternal : bodyExternal name ≠ sendExternal name := fun h => by
    rw [bodyExternal_eq, sendExternal, String.append_left_inj] at h
    exact body_ne_send name h
  simp only [methods, List.nodup_cons, List.mem_cons, List.not_mem_nil, or_false, not_or,
    not_false_eq_true, List.nodup_nil, and_true]
  exact ⟨⟨body_ne_send name, hbodies, hbody⟩, ⟨hsend, hsends⟩, hexternal⟩

/-- Of the methods that contracts have whatever they declare, a function can only have the plain
deployment, and only as its internal send. -/
theorem eq_sendDeploy_of_mem_methods {common name : String}
    (hcommon : common ∈ ["new", "createFromABI", "getStateVariables", "sendDeploy"])
    (h : common ∈ methods name) : common = "sendDeploy" ∧ send name = "sendDeploy" := by
  have hsuffix : ∀ common ∈ ["new", "createFromABI", "getStateVariables", "sendDeploy"],
      ¬ "Body".toList <:+ common.toList ∧ ¬ "External".toList <:+ common.toList := by decide
  have hprefix : ∀ common ∈ ["new", "createFromABI", "getStateVariables", "sendDeploy"],
      "send".toList <+: common.toList → common = "sendDeploy" := by decide
  obtain ⟨hbody, hexternal⟩ := hsuffix common hcommon
  have hends {front suffix : String} (heq : common = front ++ suffix) :
      suffix.toList <:+ common.toList := by
    rw [heq, String.toList_append]
    exact List.suffix_append _ _
  simp only [methods, List.mem_cons, List.not_mem_nil, or_false] at h
  obtain h | h | h | h := h
  · exact absurd (hends h) hbody
  · have hdeploy : common = "sendDeploy" := hprefix common hcommon (h ▸ prefix_withWord "send" name)
    exact ⟨hdeploy, h ▸ hdeploy⟩
  · exact absurd (hends (h.trans (bodyExternal_eq name))) hexternal
  · exact absurd (hends h) hexternal

end Name

/-! ## A function alone in its schema -/

/-- The schema has one function, and neither getters nor state fields. -/
structure Contract.DeclaresOnly (f : Function) (c : Contract) : Prop where
  functions : c.functions = [f]
  getters : c.getters = []
  fields : c.fields = []

namespace Contract.DeclaresOnly

variable {f : Function} {c : Contract} (h : c.DeclaresOnly f)
include h

theorem hasConstructor_iff : c.hasConstructor = true ↔ f.name = "constructor" := by
  rw [Contract.hasConstructor_iff, h.functions]
  simp

theorem methodNames_eq :
    c.methodNames = ["new", "createFromABI", "getStateVariables"] ++
      (if c.hasConstructor then [] else ["sendDeploy"]) ++ Name.methods f.name := by
  rw [methodNames, h.functions, h.getters, List.flatMap_singleton, List.map_nil, List.append_nil]
  rfl

theorem nodup_methodNames_iff : c.methodNames.Nodup ↔ Name.send f.name ≠ "sendDeploy" := by
  rw [h.methodNames_eq]
  cases hconstructor : c.hasConstructor with
  | true =>
    have hname : f.name = "constructor" := h.hasConstructor_iff.1 hconstructor
    rw [hname]
    exact iff_of_true (by decide) (by decide)
  | false =>
    have hapart : (∀ a ∈ ["new", "createFromABI", "getStateVariables", "sendDeploy"],
        ∀ b ∈ Name.methods f.name, a ≠ b) ↔ Name.send f.name ≠ "sendDeploy" := by
      constructor
      · intro hne hsend
        refine hne "sendDeploy" (by decide) (Name.send f.name) ?_ hsend.symm
        exact List.mem_cons_of_mem _ List.mem_cons_self
      · rintro hsend a ha b hb rfl
        exact hsend (Name.eq_sendDeploy_of_mem_methods ha hb).2
    rw [← hapart]
    have hcommon : ["new", "createFromABI", "getStateVariables", "sendDeploy"].Nodup := by decide
    refine List.nodup_append.trans ?_
    exact (and_iff_right hcommon).trans (and_iff_right (Name.nodup_methods f.name))

theorem distinct_iff (hinputs : f.inputs = []) (contract : String) :
    c.Distinct contract ↔ Name.send f.name ≠ "sendDeploy" := by
  have hstructs : c.structNames contract =
      [⟨Name.type contract ++ "Init", []⟩, ⟨Name.type contract ++ "State", []⟩] := by
    rw [structNames, initFields, h.fields, h.functions, h.getters, List.flatMap_singleton, hinputs]
    rfl
  have hinit : Name.type contract ++ "Init" ≠ Name.type contract ++ "State" :=
    Name.append_ne_append (by decide) (by decide)
  have hbehind {suffix : String} (hne : suffix ≠ "") :
      Name.type contract ≠ Name.type contract ++ suffix := fun heq =>
    hne (String.append_eq_left_iff.1 heq.symm)
  refine ⟨fun hdistinct => h.nodup_methodNames_iff.1 hdistinct.methods, fun hsend => ?_⟩
  refine ⟨h.nodup_methodNames_iff.2 hsend, ?_, ?_⟩
  · rw [hstructs]
    simp only [List.map_cons, List.map_nil, List.nodup_cons, List.mem_cons, List.not_mem_nil,
      or_false, not_or, not_false_eq_true, List.nodup_nil, and_true]
    exact ⟨⟨hbehind (by decide), hbehind (by decide)⟩, hinit⟩
  · rw [hstructs]
    exact List.forall_mem_cons.2 ⟨.nil, List.forall_mem_singleton.2 .nil⟩

theorem validate_eq_ok (hinputs : f.inputs = []) (houtputs : ∀ p ∈ f.outputs, p.IsTyped) :
    c.validate = .ok () := by
  rw [Contract.validate_eq_ok, bindingParams, h.fields, h.functions, h.getters,
    List.flatMap_singleton, hinputs]
  simpa using houtputs

end Contract.DeclaresOnly

/-- A name has its word in front once; the four methods of a function have four names; and a
function without inputs that is alone in its schema is refused, in any contract whose name makes a
type, exactly when its internal send has the name of the plain deployment.  Outputs, where the
function has some, only have to have types. -/
theorem methods_meet_only_sendDeploy (name : String) :
    (Name.send (Name.send name) = Name.send name ∧ Name.get (Name.get name) = Name.get name) ∧
    ("send".toList <+: (Name.send name).toList ∧ "get".toList <+: (Name.get name).toList) ∧
    [Name.body name, Name.send name, Name.bodyExternal name, Name.sendExternal name].Nodup ∧
    ∀ (runtimeCrate contract : String) (f : Function) (c : Contract),
      IsTypeName (Name.type contract) → c.DeclaresOnly f → f.name = name → f.inputs = [] →
      (∀ p ∈ f.outputs, p.IsTyped) →
      ((∃ named twice, BindingModule.ofContract runtimeCrate contract c =
          .error (.nameCollision named twice)) ↔ Name.send name = "sendDeploy") ∧
      ((∃ m, BindingModule.ofContract runtimeCrate contract c = .ok m) ↔
        Name.send name ≠ "sendDeploy") := by
  refine ⟨⟨Name.withWord_withWord _ _, Name.withWord_withWord _ _⟩,
    ⟨Name.prefix_withWord _ _, Name.prefix_withWord _ _⟩, Name.nodup_methods name, ?_⟩
  rintro runtimeCrate contract f c htype honly rfl hinputs houtputs
  have hvalid := honly.validate_eq_ok hinputs houtputs
  have hdistinct := honly.distinct_iff hinputs contract
  obtain ⟨e, hrefused, -⟩ | ⟨-, ⟨hname, -⟩ | ⟨-, m, -, hnames⟩⟩ :=
    BindingModule.ofContract_cases runtimeCrate contract c
  · rw [hvalid] at hrefused
    cases hrefused
  · exact absurd htype hname
  rw [hdistinct, not_not] at hnames
  obtain ⟨hsend, twice, hrun⟩ | ⟨hsend, hrun⟩ := hnames
  all_goals rw [hrun]
  · exact ⟨iff_of_true ⟨contract, twice, rfl⟩ hsend, iff_of_false nofun (not_not.2 hsend)⟩
  · exact ⟨iff_of_false nofun hsend, iff_of_true ⟨m, rfl⟩ hsend⟩

/-- A function that is called as its send would be without the word, and one that begins as the word
does. -/
theorem methods_meet_only_sendDeploy_wallet :
    IsTypeName (Name.type "Wallet") ∧
      Contract.DeclaresOnly { name := "Deploy" } { functions := [{ name := "Deploy" }] } ∧
      (∃ named twice, BindingModule.ofContract "tvm_abi" "Wallet"
        { functions := [{ name := "Deploy" }] } = .error (.nameCollision named twice)) ∧
      ∃ m, BindingModule.ofContract "tvm_abi" "Wallet" { functions := [{ name := "sen" }] } =
        .ok m := by
  have htype : IsTypeName (Name.type "Wallet") := ⟨by decide, by decide⟩
  have honly (name : String) :
      Contract.DeclaresOnly { name } { functions := [{ name }] } := ⟨rfl, rfl, rfl⟩
  refine ⟨htype, honly "Deploy", ?_, ?_⟩
  · exact ((methods_meet_only_sendDeploy "Deploy").2.2.2 "tvm_abi" "Wallet" _ _ htype
      (honly "Deploy") rfl rfl nofun).1.2 (by decide)
  · exact ((methods_meet_only_sendDeploy "sen").2.2.2 "tvm_abi" "Wallet" _ _ htype
      (honly "sen") rfl rfl nofun).2.2 (by decide)

end CellAbi
