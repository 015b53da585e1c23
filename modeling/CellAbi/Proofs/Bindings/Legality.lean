import CellAbi.Proofs.AbiType.Levels
import CellAbi.Proofs.Bindings.Collision

/-!
# Which generated names can be declared

Fields and arguments are identifiers whatever a schema names them.  Methods and types are not: a
declared name goes into them as it is, so that what it holds besides letters, digits and underscores
stays, and so does a digit that comes to stand first.  Of an accepted schema of ASCII names all
generated names are identifiers exactly when none of this happens.

    ofValid crate contract c = .ok m → m.names = c.names contract                       (`names_eq`)
    (∀ s ∈ c.structNames contract, P s) ↔ P init ∧ P state ∧ …              (`forall_structNames`)
    (∀ name ∈ m.names, IsIdentifier name) ↔ Name.type contract ≠ "Self" ∧
      (∀ f ∈ c.functions, f.IsNameable) ∧ ∀ g ∈ c.getters, ∀ ch ∈ g.name.toList, IsWordChar ch
                                                                  (`forall_isIdentifier_names_iff`)
-/

namespace CellAbi

/-- All characters of the text are ASCII. -/
def IsAscii (text : String) : Prop := ∀ c ∈ text.toList, c.toNat < 0x80

instance : DecidablePred IsAscii := fun text =>
  inferInstanceAs (Decidable (∀ c ∈ text.toList, c.toNat < 0x80))

/-- The names in the schema that names in bindings are made of are ASCII. -/
structure Contract.AsciiNames (c : Contract) : Prop where
  functions : ∀ f ∈ c.functions, IsAscii f.name
  getters : ∀ g ∈ c.getters, IsAscii g.name
  params : ∀ p ∈ c.bindingParams, IsAscii p.name

/-- Every name that the module declares: of the contract, the structs and their fields, the methods
and the arguments. -/
def BindingModule.names (m : BindingModule) : List String :=
  m.contract :: m.structs.map (·.name) ++ m.structs.flatMap (fun s => s.fields.map (·.ident)) ++
    m.methodNames ++ m.arguments

/-- The names that the schema of a contract leads to. -/
def Contract.names (contract : String) (c : Contract) : List String :=
  Name.type contract :: (c.structNames contract).map (·.name) ++
    (c.structNames contract).flatMap (·.idents) ++ c.methodNames ++ c.arguments

/-- The methods of the function can be declared, and so can its struct where it has one. -/
structure Function.IsNameable (f : Function) : Prop where
  isWordChar : ∀ c ∈ f.name.toList, IsWordChar c
  noLeadingDigit : NoLeadingDigit f.name.toList
  struct : 2 ≤ f.inputs.length → ∀ c ∈ f.name.toList.find? Char.isAlphanum, c.isDigit = false

/-! ## The structs of a schema -/

variable {runtimeCrate contract : String} {c : Contract} {m : BindingModule}
variable {P : StructNames → Prop}

theorem Param.forall_grouped {name : String} {ps : List Param} :
    (∀ s ∈ grouped name ps, P s) ↔ (2 ≤ ps.length → P (structNames name ps)) := by
  match ps with
  | [] => exact iff_of_true nofun fun h => absurd h (by decide)
  | [_] => exact iff_of_true nofun fun h => absurd h (by simp)
  | p :: q :: rest =>
    have hgrouped : grouped name (p :: q :: rest) = [structNames name (p :: q :: rest)] := rfl
    rw [hgrouped, List.forall_mem_singleton]
    exact ⟨fun h _ => h, fun h => h (by simp)⟩

/-- What holds of all structs of a schema. -/
theorem Contract.forall_structNames :
    (∀ s ∈ c.structNames contract, P s) ↔
      P (Param.structNames (Name.type contract ++ "Init") c.initFields) ∧
      P (Param.structNames (Name.type contract ++ "State") c.fields) ∧
      (∀ f ∈ c.functions, 2 ≤ f.inputs.length →
        P (Param.structNames (Name.type f.name ++ "Params") f.inputs)) ∧
      ∀ g ∈ c.getters,
        (2 ≤ g.inputs.length →
          P (Param.structNames (Name.type (Name.get g.name) ++ "Params") g.inputs)) ∧
        (2 ≤ g.outputs.length →
          P (Param.structNames (Name.type (Name.get g.name) ++ "Output") g.outputs)) := by
  simp only [structNames, List.forall_mem_append, List.forall_mem_flatMap, List.forall_mem_cons,
    Param.forall_grouped, and_assoc]
  exact ⟨fun h => ⟨h.1, h.2.1, h.2.2.2⟩, fun h => ⟨h.1, h.2.1, nofun, h.2.2⟩⟩

theorem Param.forall_idents {name : String} {ps : List Param} (h : ∀ p ∈ ps, IsAscii p.name) :
    ∀ ident ∈ (structNames name ps).idents, IsIdentifier ident :=
  List.forall_mem_map.2 fun p hp => Name.isIdentifier_identifier (h p hp)

namespace Contract

variable (h : c.AsciiNames)
include h

/-! ## Fields and arguments -/

theorem isIdentifier_idents :
    ∀ s ∈ c.structNames contract, ∀ ident ∈ s.idents, IsIdentifier ident := by
  have hparams := h.params
  simp only [bindingParams, List.forall_mem_append, List.forall_mem_flatMap] at hparams
  obtain ⟨⟨hfields, hfunctions⟩, hgetters⟩ := hparams
  refine forall_structNames.2 ⟨?_, Param.forall_idents hfields, fun f hf _ => ?_, fun g hg => ?_⟩
  · exact Param.forall_idents fun p hp => hfields p (List.mem_of_mem_filter hp)
  · exact Param.forall_idents (hfunctions f hf).1
  · exact ⟨fun _ => Param.forall_idents (hgetters g hg).1,
      fun _ => Param.forall_idents (hgetters g hg).2⟩

theorem isIdentifier_arguments : ∀ name ∈ c.arguments, IsIdentifier name := by
  have hparams := h.params
  simp only [bindingParams, List.forall_mem_append, List.forall_mem_flatMap] at hparams
  obtain ⟨⟨-, hfunctions⟩, hgetters⟩ := hparams
  have halone {ps : List Param} (hps : ∀ p ∈ ps, IsAscii p.name) :
      ∀ name ∈ Param.alone ps, IsIdentifier name := by
    obtain _ | ⟨p, _ | _⟩ := ps
    · exact List.forall_mem_nil _
    · exact List.forall_mem_singleton.2 (Name.isIdentifier_argument (hps p List.mem_cons_self))
    · exact List.forall_mem_nil _
  simp only [arguments, List.forall_mem_append, List.forall_mem_flatMap]
  exact ⟨fun f hf => halone (hfunctions f hf).1, fun g hg => halone (hgetters g hg).1⟩

/-! ## Structs -/

/-- The structs of a getter and of the contract begin with a letter; the struct of a function
begins with the first letter or digit of its name. -/
theorem isIdentifier_structNames_iff (hcontract : IsAscii contract)
    (htype : IsTypeName (Name.type contract)) :
    (∀ s ∈ c.structNames contract, IsIdentifier s.name) ↔
      ∀ f ∈ c.functions, 2 ≤ f.inputs.length →
        ∀ ch ∈ f.name.toList.find? Char.isAlphanum, ch.isDigit = false := by
  have hinit : IsSuffixWord "Init" := by decide +kernel
  have hstate : IsSuffixWord "State" := by decide +kernel
  have hparams : IsSuffixWord "Params" := by decide +kernel
  have houtput : IsSuffixWord "Output" := by decide +kernel
  rw [forall_structNames]
  simp only [Param.structNames]
  constructor
  · rintro ⟨-, -, hfunctions, -⟩ f hf hlength
    have hascii := h.functions f hf
    rw [← Name.noLeadingDigit_type_iff hascii, ← Name.isIdentifier_type_append_iff hascii hparams]
    exact hfunctions f hf hlength
  · intro hfunctions
    refine ⟨?_, ?_, fun f hf hlength => ?_, fun g hg => ?_⟩
    · exact (Name.isIdentifier_type_append_iff hcontract hinit).2 htype.2
    · exact (Name.isIdentifier_type_append_iff hcontract hstate).2 htype.2
    · have hascii := h.functions f hf
      rw [Name.isIdentifier_type_append_iff hascii hparams, Name.noLeadingDigit_type_iff hascii]
      exact hfunctions f hf hlength
    · have hascii := h.getters g hg
      have hget : IsAscii (Name.get g.name) := Name.ascii_withWord hascii (by decide)
      have hdigit := Name.noLeadingDigit_type_get hascii
      exact ⟨fun _ => (Name.isIdentifier_type_append_iff hget hparams).2 hdigit,
        fun _ => (Name.isIdentifier_type_append_iff hget houtput).2 hdigit⟩

/-! ## Methods -/

theorem isIdentifier_methodNames_iff :
    (∀ name ∈ c.methodNames, IsIdentifier name) ↔
      (∀ f ∈ c.functions, NoLeadingDigit f.name.toList ∧ ∀ ch ∈ f.name.toList, IsWordChar ch) ∧
        ∀ g ∈ c.getters, ∀ ch ∈ g.name.toList, IsWordChar ch := by
  have hfixed : ∀ name ∈ ["new", "createFromABI", "getStateVariables"], IsIdentifier name := by
    decide
  have hdeploy : ∀ name ∈ if c.hasConstructor then [] else ["sendDeploy"], IsIdentifier name := by
    split
    · exact nofun
    · exact List.forall_mem_singleton.2 (by decide)
  simp only [methodNames, List.forall_mem_append, List.forall_mem_flatMap, List.forall_mem_map]
  rw [and_iff_right hfixed, and_iff_right hdeploy]
  refine and_congr (forall₂_congr fun f hf => ?_) (forall₂_congr fun g hg => ?_)
  · exact Name.isIdentifier_methods_iff (h.functions f hf)
  · exact Name.isIdentifier_get_iff (h.getters g hg)

end Contract

/-! ## Modules -/

namespace BindingModule

theorem names_eq (h : ofValid runtimeCrate contract c = .ok m) : m.names = c.names contract := by
  obtain ⟨hcontract, hmethods, hstructs, harguments⟩ := names_ofValid h
  rw [names, Contract.names, hcontract, hmethods, harguments, ← hstructs, List.map_map,
    List.flatMap_map]
  rfl

/-- All names in the bindings of an accepted schema of ASCII names can be declared exactly when the
contract is not called after the keyword `Self`, the functions and getters have names of letters,
digits and underscores, and no method or struct of a function begins with a digit. -/
theorem forall_isIdentifier_names_iff (hm : ofContract runtimeCrate contract c = .ok m)
    (hcontract : IsAscii contract) (hnames : c.AsciiNames) :
    (∀ name ∈ m.names, IsIdentifier name) ↔
      Name.type contract ≠ "Self" ∧ (∀ f ∈ c.functions, f.IsNameable) ∧
        ∀ g ∈ c.getters, ∀ ch ∈ g.name.toList, IsWordChar ch := by
  obtain ⟨htype, hvalid⟩ := ofContract_eq_ok hm
  have hidents : ∀ s ∈ c.structNames contract, ∀ ident ∈ s.idents, IsIdentifier ident :=
    Contract.isIdentifier_idents hnames
  have harguments := Contract.isIdentifier_arguments hnames
  rw [names_eq hvalid]
  simp only [Contract.names, List.cons_append, List.forall_mem_cons, List.forall_mem_append,
    List.forall_mem_map, List.forall_mem_flatMap,
    Name.isIdentifier_type_iff hcontract htype.1 htype.2,
    Contract.isIdentifier_structNames_iff hnames hcontract htype,
    Contract.isIdentifier_methodNames_iff hnames]
  constructor
  · rintro ⟨hne, ⟨⟨hgroups, -⟩, hfunctions, hgetters⟩, -⟩
    exact ⟨hne, fun f hf => ⟨(hfunctions f hf).2, (hfunctions f hf).1, hgroups f hf⟩, hgetters⟩
  · rintro ⟨hne, hfunctions, hgetters⟩
    refine ⟨hne, ⟨⟨fun f hf => (hfunctions f hf).struct, hidents⟩, fun f hf => ?_, hgetters⟩,
      harguments⟩
    exact ⟨(hfunctions f hf).noLeadingDigit, (hfunctions f hf).isWordChar⟩

/-- A schema with a keyword for a field, for an argument and for a grouped parameter. -/
def keywordSchema : Contract where
  functions := [{
    name := "transfer"
    inputs := [{ name := "to", type := "address" }, { name := "type", type := "uint8" }] }]
  getters := [{ name := "is_owner", inputs := [{ name := "value", type := "bool" }] }]
  fields := [{ name := "self", type := "bool" }]

theorem forall_isIdentifier_names_keywordSchema :
    IsAscii "TokenWallet" ∧ keywordSchema.AsciiNames ∧
      ∃ m, ofContract "tvm_abi" "TokenWallet" keywordSchema = .ok m ∧
        (∀ name ∈ ["TransferParams", "r#type", "self_", "value_", "getIs_owner"], name ∈ m.names) ∧
        ∀ name ∈ m.names, IsIdentifier name := by
  have hcontract : IsAscii "TokenWallet" := by decide
  have hnames : keywordSchema.AsciiNames := ⟨by decide, by decide, by decide⟩
  have htyped {p : Param} {type : AbiType}
      (hform : Form.of (Text.trim p.type.toList) = .plain type) : p.IsTyped :=
    ⟨type, AbiType.ofDescriptor_plain hform⟩
  have hvalid : keywordSchema.validate = .ok () := by
    refine Contract.validate_eq_ok.2 ?_
    simp only [Contract.bindingParams, keywordSchema, List.forall_mem_append,
      List.forall_mem_flatMap, List.forall_mem_cons]
    have hnil {α : Type} {P : α → Prop} : ∀ a ∈ [], P a := List.forall_mem_nil P
    exact ⟨⟨⟨htyped rfl, hnil⟩, ⟨⟨htyped rfl, htyped rfl, hnil⟩, hnil⟩, hnil⟩,
      ⟨⟨htyped rfl, hnil⟩, hnil⟩, hnil⟩
  have htype : IsTypeName (Name.type "TokenWallet") := ⟨by decide, by decide⟩
  have hdistinct : keywordSchema.Distinct "TokenWallet" := ⟨by decide, by decide, by decide⟩
  obtain ⟨m, hm⟩ : ∃ m, ofContract "tvm_abi" "TokenWallet" keywordSchema = .ok m :=
    exists_ofContract hvalid htype hdistinct
  refine ⟨hcontract, hnames, m, hm, ?_, (forall_isIdentifier_names_iff hm hcontract hnames).2 ?_⟩
  · rw [names_eq (ofContract_eq_ok hm).2]
    decide
  · refine ⟨by decide, ?_, by decide⟩
    exact List.forall_mem_singleton.2 ⟨by decide, by decide, fun _ => by decide⟩

/-- A schema whose function has a hyphen in its name. -/
def hyphenSchema : Contract := { functions := [{ name := "foo-bar" }] }

theorem not_isIdentifier_hyphenSchema :
    IsAscii "Wallet" ∧ hyphenSchema.AsciiNames ∧
      ∃ m, ofContract "tvm_abi" "Wallet" hyphenSchema = .ok m ∧ "foo-barBody" ∈ m.methodNames ∧
        "foo-barBody" ∈ m.names ∧ ¬ IsIdentifier "foo-barBody" :=
  ⟨by decide, ⟨by decide, by decide, by decide⟩, _, rfl, by decide, by decide, by decide⟩

end BindingModule

end CellAbi
