import CellAbi.Proofs.Bindings.Legality

/-!
# Generated types over imported ones

A type that a module declares takes the place of one that it imports under the same name, wherever
the module uses that name.  No method or field is to blame: the type of the contract can be any
imported one, and of the generated structs just two can have the name of one, the initial state of a
contract `State` and the parameters of a function `json`.  What a module uses is listed here by its
parts; `importedNames_toText` finds the same names in the text that is rendered.

    (∀ name ∈ m.typeNames, name ∉ m.importedNames) ↔
      Name.type contract ∉ m.importedNames ∧ Name.type contract ≠ "State" ∧
        ∀ f ∈ c.functions, 2 ≤ f.inputs.length → Name.type f.name ≠ "Json"
                                                              (`forall_notMem_importedNames_iff`)
-/

namespace CellAbi

/-! ## Imported names -/

/-- What the runtime re-exports for binding modules. -/
def preludeNames : List String := [
  "BTreeMap", "AbiError", "Result", "AbiCodec", "AbiParam", "AbiType", "Address", "BigInt", "Cell",
  "ContractProvider", "ExternalAddress", "ExternalBodyRequest", "ExternalHeader", "FromAbi",
  "InternalMessage", "IntoAbi", "SendMode", "SignedBody", "StackItem", "StateInit", "StdAddress",
  "TupleReader", "Value", "WireCodec", "JsonParams", "StateVariables", "contract_address",
  "decode_arg", "encode_arg", "read_state_variables"]

/-- The types that every module has without an import. -/
def builtinNames : List String := ["Option", "String", "Vec"]

/-- The fields of a shape. -/
def Shape.fields : Shape → List Field
  | .none => []
  | .single f => [f]
  | .struct s => s.fields

/-- The words of the type of a field, and the constructor of its parameter. -/
def Field.words (f : Field) : List String :=
  "AbiParam" :: (Text.alphanumericRuns [] f.type.toList).map String.ofList

namespace BindingModule

/-- The fields of all structs and the arguments and results that stand alone. -/
def fields (m : BindingModule) : List Field :=
  m.init.fields ++ m.state.fields ++ m.functions.flatMap (·.inputs.fields) ++
    m.getters.flatMap fun g => g.inputs.fields ++ g.outputs.fields

/-- The names in the type of every contract and in the methods that every contract has. -/
def commonNames : List String := [
  "StdAddress", "Option", "StateInit", "Result", "AbiCodec", "Cell", "JsonParams",
  "contract_address", "ContractProvider", "read_state_variables"]

/-- The names in the types and bodies of a module that it does not declare: of the contract, of the
methods of functions, of getters, and of all fields. -/
def usedNames (m : BindingModule) : List String :=
  commonNames ++ (if m.hasConstructor then [] else ["InternalMessage"]) ++
    m.functions.flatMap (fun _ => ["SendMode", "InternalMessage", "ExternalHeader", "SignedBody",
      "ExternalBodyRequest"]) ++
    m.getters.flatMap (fun g => (if g.inputs = .none then ["Vec"] else []) ++
      g.inputs.fields.map (fun _ => "encode_arg") ++ g.outputs.fields.map fun _ => "decode_arg") ++
    m.fields.flatMap (·.words)

/-- The names that a module uses from its imports. -/
def importedNames (m : BindingModule) : List String :=
  m.usedNames.filter fun name => (preludeNames ++ builtinNames).contains name

/-- The types that a module declares. -/
def typeNames (m : BindingModule) : List String := m.contract :: m.structs.map (·.name)

end BindingModule

/-! ## What takes the place of what -/

/-- The types of getters begin with the letter of their prefix. -/
theorem Name.type_get_ne_json (name : String) : type (get name) ≠ "Json" := by
  obtain ⟨rest, hrest⟩ := prefix_withWord "get" name
  have hhead := Text.head?_upperCamelCase_of_cons hrest.symm (by decide) (by decide)
  intro heq
  rw [get, type] at heq
  rw [heq] at hhead
  cases hhead

namespace BindingModule

variable {runtimeCrate contract : String} {c : Contract} {m : BindingModule}

theorem mem_imports_of_mem {name : String} (h : name ∈ m.importedNames) :
    name ∈ preludeNames ++ builtinNames :=
  List.contains_iff_mem.1 (List.mem_filter.1 h).2

theorem mem_importedNames_of_common {name : String} (h : name ∈ commonNames) :
    name ∈ m.importedNames := by
  have hall : ∀ name ∈ commonNames, (preludeNames ++ builtinNames).contains name = true := by decide
  refine List.mem_filter.2 ⟨?_, hall name h⟩
  simp only [usedNames, List.append_assoc]
  exact List.mem_append_left _ h

/-- A name with a suffix that ends just one imported name, which every module uses. -/
theorem append_notMem_importedNames_iff {name start suffix : String}
    (h : ∀ word ∈ preludeNames ++ builtinNames, suffix.toList <:+ word.toList →
      word = start ++ suffix) (hmem : start ++ suffix ∈ commonNames) :
    name ++ suffix ∉ m.importedNames ↔ name ≠ start := by
  refine not_congr ⟨fun hname => ?_, fun hname => mem_importedNames_of_common (hname ▸ hmem)⟩
  have heq := h _ (mem_imports_of_mem hname) (by
    rw [String.toList_append]
    exact List.suffix_append _ _)
  rw [← String.toList_inj, String.toList_append, String.toList_append] at heq
  exact String.toList_inj.1 (List.append_cancel_right heq)

/-- A name with a suffix that ends no imported name. -/
theorem append_notMem_importedNames {name suffix : String}
    (h : ∀ word ∈ preludeNames ++ builtinNames, ¬ suffix.toList <:+ word.toList) :
    name ++ suffix ∉ m.importedNames := by
  intro hname
  refine h _ (mem_imports_of_mem hname) ?_
  rw [String.toList_append]
  exact List.suffix_append _ _

/-- No type of an accepted contract takes the place of a name that its module uses from the imports
exactly when the contract itself does not, is not called after the state, and has no function called
after JSON whose parameters are grouped. -/
theorem forall_notMem_importedNames_iff (hm : ofContract runtimeCrate contract c = .ok m) :
    (∀ name ∈ m.typeNames, name ∉ m.importedNames) ↔
      Name.type contract ∉ m.importedNames ∧ Name.type contract ≠ "State" ∧
        ∀ f ∈ c.functions, 2 ≤ f.inputs.length → Name.type f.name ≠ "Json" := by
  obtain ⟨hcontract, -, hstructs, -⟩ := names_ofValid (ofContract_eq_ok hm).2
  have hnames : m.structs.map (·.name) = (c.structNames contract).map (·.name) := by
    rw [← hstructs, List.map_map]
    rfl
  have hinit (name : String) : name ++ "Init" ∉ m.importedNames ↔ name ≠ "State" :=
    append_notMem_importedNames_iff (by decide +kernel) (by decide)
  have hparams (name : String) : name ++ "Params" ∉ m.importedNames ↔ name ≠ "Json" :=
    append_notMem_importedNames_iff (by decide +kernel) (by decide)
  have hstate (name : String) : name ++ "State" ∉ m.importedNames :=
    append_notMem_importedNames (by decide +kernel)
  have houtput (name : String) : name ++ "Output" ∉ m.importedNames :=
    append_notMem_importedNames (by decide +kernel)
  rw [typeNames, hnames, hcontract, List.forall_mem_cons, List.forall_mem_map,
    Contract.forall_structNames]
  simp only [Param.structNames, hinit, hparams]
  constructor
  · rintro ⟨htype, hne, -, hfunctions, -⟩
    exact ⟨htype, hne, hfunctions⟩
  · rintro ⟨htype, hne, hfunctions⟩
    exact ⟨htype, hne, hstate _, hfunctions, fun g _ =>
      ⟨fun _ => Name.type_get_ne_json g.name, fun _ => houtput _⟩⟩

/-- A contract whose function is called after JSON, but has no parameters to group. -/
theorem forall_notMem_importedNames_wallet :
    ∃ m, ofContract "tvm_abi" "Wallet" { functions := [{ name := "json" }] } = .ok m ∧
      "WalletInit" ∈ m.typeNames ∧ "StateInit" ∈ m.importedNames ∧
      ∀ name ∈ m.typeNames, name ∉ m.importedNames := by
  have hiff : ∀ m, ofContract "tvm_abi" "Wallet" { functions := [{ name := "json" }] } = .ok m →
      ((∀ name ∈ m.typeNames, name ∉ m.importedNames) ↔ _) :=
    fun m hm => forall_notMem_importedNames_iff hm
  exact ⟨_, rfl, by decide, by decide, (hiff _ rfl).2 ⟨by decide, by decide, by decide⟩⟩

/-- The constructor of a contract `Cell` takes its code as a contract, and the one of a contract
`State` makes an initial state of the fields for it. -/
theorem mem_importedNames_cell :
    (∃ m, ofContract "tvm_abi" "Cell" {} = .ok m ∧ "Cell" ∈ m.typeNames ∧
      "Cell" ∈ m.importedNames) ∧
    ∃ m, ofContract "tvm_abi" "State" {} = .ok m ∧ "StateInit" ∈ m.typeNames ∧
      "StateInit" ∈ m.importedNames :=
  ⟨⟨_, rfl, by decide, by decide⟩, _, rfl, by decide, by decide⟩

end BindingModule

end CellAbi
