import CellAbi.Proofs.Bindings.Collision
import CellAbi.Proofs.Bindings.Rendering

/-!
# What a rendered module declares

The methods and structs that the text of a module declares, line by line, are those whose names are
checked against each other before it is rendered.  Fields and arguments are words without a blank,
whatever a schema names them, and no type is broken over two lines; so only the names that go into
methods, into the comment of the contract and into the import of the runtime have to be on one line.

    ofContract crate contract c = .ok m →
      (declaredMethods m.toText).Perm m.methodNames ∧
      declaredStructs m.toText = m.structs.map (·.name) ++ [m.contract]      (`declared_toText`)
-/

namespace CellAbi

/-! ## Declarations of a text -/

/-- What the lines of a text tell. -/
def Landmark.read (text : String) : List Landmark :=
  (text.toList.splitOn '\n').filterMap fun line => ofLine? (Source.unindent line)

/-- The methods that are declared on the lines of a text. -/
def declaredMethods (text : String) : List String :=
  (Landmark.read text).filterMap Landmark.method?

/-- The structs that are declared on the lines of a text. -/
def declaredStructs (text : String) : List String :=
  (Landmark.read text).filterMap Landmark.struct?

/-! ## Names on one line -/

namespace Name

/-- Whatever a schema names it, an identifier has neither a blank nor a line break. -/
theorem inline_identifier (name : String) :
    ∀ c ∈ (identifier name).toList, c ≠ ' ' ∧ c ≠ '\n' := by
  have hchars : ∀ c ∈ (String.ofList (sanitize name.toList)).toList, c ≠ ' ' ∧ c ≠ '\n' := by
    rw [String.toList_ofList]
    intro c hc
    obtain rfl | ⟨-, halnum⟩ := mem_sanitize hc
    · decide
    · constructor <;> rintro rfl <;> cases halnum
  unfold identifier escapeKeyword
  split
  · rw [String.toList_append, List.forall_mem_append]
    exact ⟨hchars, by decide⟩
  split
  · rw [String.toList_append, List.forall_mem_append]
    exact ⟨by decide, hchars⟩
  · exact hchars

theorem inline_argument (name : String) : ∀ c ∈ (argument name).toList, c ≠ ' ' ∧ c ≠ '\n' := by
  unfold argument
  dsimp only
  split
  · rw [String.toList_append, List.forall_mem_append]
    exact ⟨inline_identifier name, by decide⟩
  · exact inline_identifier name

theorem unbroken_type (name : String) : Unbroken (type name) :=
  Text.newline_notMem_upperCamelCase name

theorem unbroken_withWord {word name : String} (hword : Unbroken word) (h : Unbroken name) :
    Unbroken (withWord word name) := by
  unfold withWord
  split
  · exact h
  refine unbroken_append.2 ⟨hword, ?_⟩
  unfold upperFirst
  split
  · decide
  · next c rest hname =>
    rw [Unbroken, hname, List.mem_cons, not_or] at h
    rw [Unbroken, String.toList_ofList, List.mem_append, not_or]
    exact ⟨Text.newline_notMem_upperCase (Ne.symm h.1), h.2⟩

end Name

theorem Field.isInline_ofParam {ident : String} {p : Param} {f : Field}
    (hident : ∀ c ∈ ident.toList, c ≠ ' ' ∧ c ≠ '\n') (h : ofParam ident p = .ok f) :
    f.IsInline := by
  obtain ⟨type, -, rfl⟩ := ofParam_eq_ok.1 h
  exact ⟨hident, type.native.unbroken_toText⟩

theorem Struct.isInline_ofParams {name : String} {ps : List Param} {s : Struct}
    (hname : Unbroken name) (h : ofParams name ps = .ok s) : s.IsInline := by
  obtain ⟨fields, hfields, rfl⟩ := ofParams_eq_ok.1 h
  refine ⟨hname, fun f hf => ?_⟩
  obtain ⟨p, -, hp⟩ := (Outcome.mapM_spec hfields).2.2 f hf
  exact Field.isInline_ofParam (Name.inline_identifier p.name) hp

theorem Shape.Built.isInline {name : String} {ident : String → String} {ps : List Param} {s : Shape}
    (hident : ∀ name, ∀ c ∈ (ident name).toList, c ≠ ' ' ∧ c ≠ '\n') (hname : Unbroken name)
    (h : Built name ident ps s) : s.IsInline := by
  cases h with
  | none => trivial
  | single h => exact Field.isInline_ofParam (hident _) h
  | struct h => exact Struct.isInline_ofParams hname h

/-- The names in the schema that methods are named after have no line break. -/
structure Contract.UnbrokenNames (c : Contract) : Prop where
  functions : ∀ f ∈ c.functions, Unbroken f.name
  getters : ∀ g ∈ c.getters, Unbroken g.name

theorem Contract.unbroken_methodNames {c : Contract} (h : c.UnbrokenNames) :
    ∀ name ∈ c.methodNames, Unbroken name := by
  simp only [methodNames, List.forall_mem_append, List.forall_mem_flatMap, List.forall_mem_map]
  refine ⟨⟨⟨by decide, ?_⟩, fun f hf => ?_⟩, fun g hg => ?_⟩
  · split
    · exact nofun
    · decide
  · have hname := h.functions f hf
    have hsend : Unbroken (Name.send f.name) := Name.unbroken_withWord (by decide) hname
    simp only [List.forall_mem_cons]
    exact ⟨unbroken_append.2 ⟨hname, by decide⟩, hsend, unbroken_append.2 ⟨hname, by decide⟩,
      unbroken_append.2 ⟨hsend, by decide⟩, nofun⟩
  · exact Name.unbroken_withWord (by decide) (h.getters g hg)

/-! ## Modules -/

namespace BindingModule

variable {runtimeCrate contract : String} {c : Contract} {m : BindingModule}

theorem isInline_ofValid (h : ofValid runtimeCrate contract c = .ok m) : m.IsInline := by
  obtain ⟨init, state, functions, getters, hinit, hstate, hfunctions, hgetters, rfl⟩ :=
    ofValid_eq_ok.1 h
  have htype (name : String) {suffix : String} (hsuffix : Unbroken suffix) :
      Unbroken (Name.type name ++ suffix) := unbroken_append.2 ⟨Name.unbroken_type name, hsuffix⟩
  refine ⟨Name.unbroken_type contract, ?_, ?_, fun f hf => ?_, fun g hg => ?_⟩
  · exact Struct.isInline_ofParams (htype contract (by decide)) hinit
  · exact Struct.isInline_ofParams (htype contract (by decide)) hstate
  · obtain ⟨function, -, hfunction⟩ := (Outcome.mapM_spec hfunctions).2.2 f hf
    obtain ⟨inputs, hinputs, rfl⟩ := FunctionBinding.ofFunction_eq_ok.1 hfunction
    exact (Shape.built_ofInputs hinputs).isInline Name.inline_argument
      (htype function.name (by decide))
  · obtain ⟨getter, -, hgetter⟩ := (Outcome.mapM_spec hgetters).2.2 g hg
    obtain ⟨inputs, outputs, hinputs, houtputs, rfl⟩ := GetterBinding.ofGetter_eq_ok.1 hgetter
    exact ⟨(Shape.built_ofInputs hinputs).isInline Name.inline_argument
        (htype (Name.get getter.name) (by decide)),
      (Shape.built_ofOutputs houtputs).isInline Name.inline_identifier
        (htype (Name.get getter.name) (by decide))⟩

theorem isIntact_ofValid (h : ofValid runtimeCrate contract c = .ok m)
    (hcontract : Unbroken contract) (hruntime : Unbroken runtimeCrate) (hnames : c.UnbrokenNames) :
    m.IsIntact := by
  obtain ⟨-, hmethods, -, -⟩ := names_ofValid h
  obtain ⟨init, state, functions, getters, -, -, -, -, rfl⟩ := ofValid_eq_ok.1 h
  exact ⟨hcontract, hruntime, hmethods ▸ Contract.unbroken_methodNames hnames⟩

/-- The text of a module tells what the module was rendered from. -/
theorem read_toText (hinline : m.IsInline) (hintact : m.IsIntact) :
    Landmark.read m.toText = m.landmarks := by
  have hreads : Reads True (Render.moduleSource m) m.landmarks :=
    Render.reads_moduleSource hinline fun _ => hintact
  rw [Landmark.read, toText, Source.filterMap_splitOn rfl (hreads.unbroken trivial)]
  exact hreads.landmarks_eq

/-- The methods are rendered in the order that they are listed in, but for the plain deployment. -/
theorem methods_landmarks (m : BindingModule) :
    (m.landmarks.filterMap Landmark.method?).Perm m.methodNames := by
  have hstructs : (m.structs.map fun s => Landmark.struct s.name).filterMap Landmark.method? =
      [] := by
    rw [List.filterMap_map]
    exact List.filterMap_eq_nil_iff.2 fun _ _ => rfl
  have hclient : (m.clientLandmarks.filterMap Landmark.method?).Perm
      (["new", "createFromABI", "getStateVariables"] ++
        if m.hasConstructor then [] else ["sendDeploy"]) := by
    unfold clientLandmarks
    split
    · exact .refl _
    · exact ((List.Perm.swap _ _ _).cons _).cons _
  have hfunctions : (m.functions.flatMap (·.landmarks)).filterMap Landmark.method? =
      m.functions.flatMap fun f => [f.body, f.send, f.bodyExternal, f.sendExternal] := by
    rw [List.filterMap_flatMap]
    refine List.flatMap_congr fun f _ => ?_
    unfold FunctionBinding.landmarks
    split <;> rfl
  have hgetters : (m.getters.map fun g => Landmark.method g.method).filterMap Landmark.method? =
      m.getters.map (·.method) := by
    rw [List.filterMap_map]
    exact congrFun List.filterMap_eq_map m.getters
  rw [landmarks, List.filterMap_append, List.filterMap_append, List.filterMap_append, hstructs,
    hfunctions, hgetters, List.nil_append]
  exact (hclient.append_right _).append_right _

theorem structs_landmarks (m : BindingModule) :
    m.landmarks.filterMap Landmark.struct? = m.structs.map (·.name) ++ [m.contract] := by
  have hstructs : (m.structs.map fun s => Landmark.struct s.name).filterMap Landmark.struct? =
      m.structs.map (·.name) := by
    rw [List.filterMap_map]
    exact congrFun List.filterMap_eq_map m.structs
  have hclient : m.clientLandmarks.filterMap Landmark.struct? = [m.contract] := by
    unfold clientLandmarks
    split <;> rfl
  have hfunctions : (m.functions.flatMap (·.landmarks)).filterMap Landmark.struct? = [] := by
    rw [List.filterMap_flatMap]
    refine List.flatMap_eq_nil_iff.2 fun f _ => ?_
    unfold FunctionBinding.landmarks
    split <;> rfl
  have hgetters : (m.getters.map fun g => Landmark.method g.method).filterMap Landmark.struct? =
      [] := by
    rw [List.filterMap_map]
    exact List.filterMap_eq_nil_iff.2 fun _ _ => rfl
  rw [landmarks, List.filterMap_append, List.filterMap_append, List.filterMap_append, hstructs,
    hclient, hfunctions, hgetters, List.append_nil, List.append_nil]

/-- The methods and structs that a rendered module declares are those that its collision check has
seen, so that none of them is declared twice. -/
theorem declared_toText (hm : ofContract runtimeCrate contract c = .ok m)
    (hcontract : Unbroken contract) (hruntime : Unbroken runtimeCrate) (hnames : c.UnbrokenNames) :
    ((declaredMethods m.toText).Perm m.methodNames ∧ (declaredMethods m.toText).Nodup) ∧
      declaredStructs m.toText = m.structs.map (·.name) ++ [m.contract] ∧
      (declaredStructs m.toText).Nodup := by
  obtain ⟨-, hvalid⟩ := ofContract_eq_ok hm
  obtain ⟨hcontractType, hmethods, hstructs, -⟩ := names_ofValid hvalid
  have hdistinct := distinct_of_ofContract hm
  have hread : Landmark.read m.toText = m.landmarks :=
    read_toText (isInline_ofValid hvalid) (isIntact_ofValid hvalid hcontract hruntime hnames)
  have hperm := methods_landmarks m
  have hnodup : (m.structs.map (·.name) ++ [m.contract]).Nodup := by
    have htypes := hdistinct.types
    rw [← hstructs, List.map_map, ← hcontractType] at htypes
    exact (List.perm_append_singleton _ _).nodup_iff.2 htypes
  rw [declaredMethods, declaredStructs, hread, structs_landmarks]
  exact ⟨⟨hperm, hperm.nodup_iff.2 (hmethods ▸ hdistinct.methods)⟩, rfl, hnodup⟩

/-- A schema with a function and a getter. -/
def transferSchema : Contract where
  functions := [{ name := "transfer" }]
  getters := [{ name := "owner" }]

theorem declared_toText_transferSchema :
    Unbroken "Wallet" ∧ Unbroken "tvm_abi" ∧ transferSchema.UnbrokenNames ∧
      ∃ m, ofContract "tvm_abi" "Wallet" transferSchema = .ok m ∧
        (declaredMethods m.toText).Perm ["new", "createFromABI", "getStateVariables", "sendDeploy",
          "transferBody", "sendTransfer", "transferBodyExternal", "sendTransferExternal",
          "getOwner"] ∧
        declaredStructs m.toText = ["WalletInit", "WalletState", "Wallet"] := by
  have hcontract : Unbroken "Wallet" := by decide
  have hruntime : Unbroken "tvm_abi" := by decide
  have hnames : transferSchema.UnbrokenNames := ⟨by decide, by decide⟩
  obtain ⟨m, hm, hmethods, hstructs⟩ :
      ∃ m, ofContract "tvm_abi" "Wallet" transferSchema = .ok m ∧
        m.methodNames = ["new", "createFromABI", "getStateVariables", "sendDeploy", "transferBody",
          "sendTransfer", "transferBodyExternal", "sendTransferExternal", "getOwner"] ∧
        m.structs.map (·.name) ++ [m.contract] = ["WalletInit", "WalletState", "Wallet"] :=
    ⟨_, rfl, rfl, rfl⟩
  obtain ⟨⟨hperm, -⟩, hdeclared, -⟩ := declared_toText hm hcontract hruntime hnames
  exact ⟨hcontract, hruntime, hnames, m, hm, hmethods ▸ hperm, hdeclared.trans hstructs⟩

end BindingModule

end CellAbi
