import CellAbi.Bindings.Build
import CellAbi.Proofs.Outcome
import Mathlib.Data.List.Basic

/-!
# The names that a schema leads to

A binding module is resolved exactly when the types of its schema can be read, and its names are
those that the names in the schema lead to: four methods per function, one per getter, a struct
where several parameters are grouped, and an argument where one stands for itself.

    (∃ m, ofValid crate contract c = .ok m) ← c.validate = .ok ()                (`exists_ofValid`)
    ofValid crate contract c = .ok m → m.contract = Name.type contract ∧
      m.methodNames = c.methodNames ∧ m.structs.map Struct.names = c.structNames contract ∧
      m.arguments = c.arguments                                                 (`names_ofValid`)
-/

namespace CellAbi

/-! ## Names of a schema -/

/-- The name of a struct and the identifiers of its fields. -/
structure StructNames where
  name : String
  idents : List String
deriving DecidableEq

def Struct.names (s : Struct) : StructNames := ⟨s.name, s.fields.map (·.ident)⟩

namespace Param

/-- The type of the parameter can be read. -/
def IsTyped (p : Param) : Prop := ∃ type, p.abiType = .ok type

/-- The struct of these parameters. -/
def structNames (name : String) (ps : List Param) : StructNames :=
  ⟨name, ps.map fun p => Name.identifier p.name⟩

/-- The struct that groups parameters; one alone is not grouped. -/
def grouped (name : String) : List Param → List StructNames
  | [] | [_] => []
  | ps => [structNames name ps]

/-- The argument that a parameter alone becomes. -/
def alone : List Param → List String
  | [p] => [Name.argument p.name]
  | _ => []

end Param

namespace Contract

/-- The names of the methods that are generated for the schema. -/
def methodNames (c : Contract) : List String :=
  ["new", "createFromABI", "getStateVariables"] ++
    (if c.hasConstructor then [] else ["sendDeploy"]) ++
    c.functions.flatMap (fun f =>
      [Name.body f.name, Name.send f.name, Name.bodyExternal f.name, Name.sendExternal f.name]) ++
    c.getters.map fun g => Name.get g.name

/-- The structs that are generated for the schema of a contract. -/
def structNames (contract : String) (c : Contract) : List StructNames :=
  [Param.structNames (Name.type contract ++ "Init") c.initFields,
      Param.structNames (Name.type contract ++ "State") c.fields] ++
    c.functions.flatMap (fun f => Param.grouped (Name.type f.name ++ "Params") f.inputs) ++
    c.getters.flatMap fun g =>
      Param.grouped (Name.type (Name.get g.name) ++ "Params") g.inputs ++
        Param.grouped (Name.type (Name.get g.name) ++ "Output") g.outputs

/-- The arguments that stand for a single input. -/
def arguments (c : Contract) : List String :=
  c.functions.flatMap (fun f => Param.alone f.inputs) ++
    c.getters.flatMap fun g => Param.alone g.inputs

end Contract

/-! ## Parameters -/

/-- The argument of a shape that is a single parameter. -/
def Shape.argument? : Shape → Option String
  | .single f => some f.ident
  | _ => Option.none

/-- The arguments that stand for a single input. -/
def BindingModule.arguments (m : BindingModule) : List String :=
  m.functions.flatMap (fun f => f.inputs.argument?.toList) ++
    m.getters.flatMap fun g => g.inputs.argument?.toList

theorem Field.ofParam_eq_ok {ident : String} {p : Param} {f : Field} :
    Field.ofParam ident p = .ok f ↔
      ∃ type, p.abiType = .ok type ∧ f = ⟨ident, p, type.nativeText⟩ :=
  Outcome.bind_pure_eq_ok

theorem Field.exists_ofParam {p : Param} (h : p.IsTyped) (ident : String) :
    ∃ f, Field.ofParam ident p = .ok f := by
  obtain ⟨type, htype⟩ := h
  exact ⟨_, Field.ofParam_eq_ok.2 ⟨type, htype, rfl⟩⟩

namespace Struct

variable {name : String} {ps : List Param} {s : Struct}

theorem ofParams_eq_ok :
    ofParams name ps = .ok s ↔
      ∃ fields, ps.mapM (fun p => Field.ofParam (Name.identifier p.name) p) = .ok fields ∧
        s = ⟨name, fields⟩ :=
  Outcome.bind_pure_eq_ok

theorem exists_ofParams (h : ∀ p ∈ ps, p.IsTyped) : ∃ s, ofParams name ps = .ok s := by
  obtain ⟨fields, hfields⟩ := Outcome.exists_mapM fun p hp =>
    Field.exists_ofParam (h p hp) (Name.identifier p.name)
  exact ⟨_, ofParams_eq_ok.2 ⟨fields, hfields, rfl⟩⟩

theorem names_ofParams (h : ofParams name ps = .ok s) : s.names = Param.structNames name ps := by
  obtain ⟨fields, hfields, rfl⟩ := ofParams_eq_ok.1 h
  refine congrArg (StructNames.mk name) (Outcome.map_eq_of_mapM hfields fun p f hf => ?_)
  obtain ⟨_, -, rfl⟩ := Field.ofParam_eq_ok.1 hf
  rfl

end Struct

namespace Shape

variable {name : String} {ps : List Param} {s : Shape}

theorem exists_ofInputs (h : ∀ p ∈ ps, p.IsTyped) : ∃ s, ofInputs name ps = .ok s := by
  match ps with
  | [] => exact ⟨_, rfl⟩
  | [p] =>
    obtain ⟨f, hf⟩ := Field.exists_ofParam (h p List.mem_cons_self) (Name.argument p.name)
    exact ⟨_, Outcome.bind_pure_eq_ok.2 ⟨f, hf, rfl⟩⟩
  | _ :: _ :: _ =>
    obtain ⟨s, hs⟩ := Struct.exists_ofParams h
    exact ⟨_, Outcome.bind_pure_eq_ok.2 ⟨s, hs, rfl⟩⟩

theorem exists_ofOutputs (h : ∀ p ∈ ps, p.IsTyped) : ∃ s, ofOutputs name ps = .ok s := by
  match ps with
  | [] => exact ⟨_, rfl⟩
  | [p] =>
    obtain ⟨f, hf⟩ := Field.exists_ofParam (h p List.mem_cons_self) (Name.identifier p.name)
    exact ⟨_, Outcome.bind_pure_eq_ok.2 ⟨f, hf, rfl⟩⟩
  | _ :: _ :: _ =>
    obtain ⟨s, hs⟩ := Struct.exists_ofParams h
    exact ⟨_, Outcome.bind_pure_eq_ok.2 ⟨s, hs, rfl⟩⟩

/-- The names of the struct of a shape, if it has one. -/
def structNames (s : Shape) : List StructNames := s.struct?.toList.map Struct.names

/-- How parameters make a shape: one alone is a field that `ident` names, and several are grouped in
a struct. -/
inductive Built (name : String) (ident : String → String) : List Param → Shape → Prop
  | none : Built name ident [] .none
  | single {p : Param} {f : Field} (h : Field.ofParam (ident p.name) p = .ok f) :
    Built name ident [p] (.single f)
  | struct {p q : Param} {ps : List Param} {s : Struct}
    (h : Struct.ofParams name (p :: q :: ps) = .ok s) : Built name ident (p :: q :: ps) (.struct s)

theorem built_ofInputs (h : ofInputs name ps = .ok s) : Built name Name.argument ps s := by
  match ps with
  | [] =>
    obtain rfl := Except.ok.inj h
    exact .none
  | [_] =>
    obtain ⟨f, hf, rfl⟩ := Outcome.bind_pure_eq_ok.1 h
    exact .single hf
  | _ :: _ :: _ =>
    obtain ⟨s, hs, rfl⟩ := Outcome.bind_pure_eq_ok.1 h
    exact .struct hs

theorem built_ofOutputs (h : ofOutputs name ps = .ok s) : Built name Name.identifier ps s := by
  match ps with
  | [] =>
    obtain rfl := Except.ok.inj h
    exact .none
  | [_] =>
    obtain ⟨f, hf, rfl⟩ := Outcome.bind_pure_eq_ok.1 h
    exact .single hf
  | _ :: _ :: _ =>
    obtain ⟨s, hs, rfl⟩ := Outcome.bind_pure_eq_ok.1 h
    exact .struct hs

theorem Built.structNames_eq {ident : String → String} (h : Built name ident ps s) :
    s.structNames = Param.grouped name ps := by
  cases h with
  | none | single => rfl
  | struct h => exact congrArg ([·]) (Struct.names_ofParams h)

theorem Built.argument_eq (h : Built name Name.argument ps s) :
    s.argument?.toList = Param.alone ps := by
  cases h with
  | none | struct => rfl
  | single h =>
    obtain ⟨_, -, rfl⟩ := Field.ofParam_eq_ok.1 h
    rfl

end Shape

/-! ## Functions and getters -/

theorem FunctionBinding.ofFunction_eq_ok {f : Function} {b : FunctionBinding} :
    ofFunction f = .ok b ↔
      ∃ inputs, Shape.ofInputs (Name.type f.name ++ "Params") f.inputs = .ok inputs ∧
        b = {
          abiName := f.name
          send := Name.send f.name
          body := Name.body f.name
          bodyExternal := Name.bodyExternal f.name
          sendExternal := Name.sendExternal f.name
          inputs
          deploys := f.name == "constructor" } :=
  Outcome.bind_pure_eq_ok

theorem GetterBinding.ofGetter_eq_ok {g : Getter} {b : GetterBinding} :
    ofGetter g = .ok b ↔
      ∃ inputs outputs,
        Shape.ofInputs (Name.type (Name.get g.name) ++ "Params") g.inputs = .ok inputs ∧
        Shape.ofOutputs (Name.type (Name.get g.name) ++ "Output") g.outputs = .ok outputs ∧
        b = { abiName := g.name, method := Name.get g.name, inputs, outputs } := by
  unfold ofGetter
  simp only [Outcome.bind_eq_ok]
  constructor
  · rintro ⟨outputs, houtputs, inputs, hinputs, h⟩
    exact ⟨inputs, outputs, hinputs, houtputs, (Except.ok.inj h).symm⟩
  · rintro ⟨inputs, outputs, hinputs, houtputs, rfl⟩
    exact ⟨outputs, houtputs, inputs, hinputs, rfl⟩

/-! ## Modules -/

namespace Contract

variable {c : Contract}

theorem validate_eq_ok : c.validate = .ok () ↔ ∀ p ∈ c.bindingParams, p.IsTyped := by
  rw [validate, Outcome.forM_eq_ok]
  refine forall₂_congr fun p _ => ?_
  rw [Outcome.bind_pure_eq_ok]
  simp only [and_true]
  rfl

/-- All types in the structs, inputs and outputs of the bindings of a contract can be read. -/
structure Builds (contract : String) (c : Contract) : Prop where
  init : ∃ s, Struct.ofParams (Name.type contract ++ "Init") c.initFields = .ok s
  state : ∃ s, Struct.ofParams (Name.type contract ++ "State") c.fields = .ok s
  functionInputs : ∀ f ∈ c.functions,
    ∃ s, Shape.ofInputs (Name.type f.name ++ "Params") f.inputs = .ok s
  getterInputs : ∀ g ∈ c.getters,
    ∃ s, Shape.ofInputs (Name.type (Name.get g.name) ++ "Params") g.inputs = .ok s
  getterOutputs : ∀ g ∈ c.getters,
    ∃ s, Shape.ofOutputs (Name.type (Name.get g.name) ++ "Output") g.outputs = .ok s

theorem builds_of_validate (contract : String) (h : c.validate = .ok ()) : c.Builds contract := by
  have htyped := validate_eq_ok.1 h
  simp only [bindingParams, List.mem_append, List.mem_flatMap] at htyped
  have hfields : ∀ p ∈ c.fields, p.IsTyped := fun p hp => htyped p (.inl (.inl hp))
  refine ⟨?_, ?_, fun f hf => ?_, fun g hg => ?_, fun g hg => ?_⟩
  · exact Struct.exists_ofParams fun p hp => hfields p (List.mem_of_mem_filter hp)
  · exact Struct.exists_ofParams hfields
  · exact Shape.exists_ofInputs fun p hp => htyped p (.inl (.inr ⟨f, hf, .inl hp⟩))
  · exact Shape.exists_ofInputs fun p hp => htyped p (.inr ⟨g, hg, .inl hp⟩)
  · exact Shape.exists_ofOutputs fun p hp => htyped p (.inr ⟨g, hg, .inr hp⟩)

end Contract

namespace BindingModule

variable {runtimeCrate contract : String} {c : Contract} {m : BindingModule}

theorem ofValid_eq_ok :
    ofValid runtimeCrate contract c = .ok m ↔
      ∃ init state functions getters,
        Struct.ofParams (Name.type contract ++ "Init") c.initFields = .ok init ∧
        Struct.ofParams (Name.type contract ++ "State") c.fields = .ok state ∧
        c.functions.mapM FunctionBinding.ofFunction = .ok functions ∧
        c.getters.mapM GetterBinding.ofGetter = .ok getters ∧
        m = {
          contract := Name.type contract
          contractPath := contract
          runtimeCrate
          hasConstructor := c.hasConstructor
          init, state, functions, getters } := by
  unfold ofValid
  simp only [Outcome.bind_eq_ok]
  constructor
  · rintro ⟨init, hinit, state, hstate, functions, hfunctions, getters, hgetters, h⟩
    exact ⟨init, state, functions, getters, hinit, hstate, hfunctions, hgetters,
      (Except.ok.inj h).symm⟩
  · rintro ⟨init, state, functions, getters, hinit, hstate, hfunctions, hgetters, rfl⟩
    exact ⟨init, hinit, state, hstate, functions, hfunctions, getters, hgetters, rfl⟩

/-- Every type that a module needs is one that the check of the schema has read. -/
theorem exists_ofValid (h : c.validate = .ok ()) :
    ∃ m, ofValid runtimeCrate contract c = .ok m := by
  have hbuilds := Contract.builds_of_validate contract h
  obtain ⟨init, hinit⟩ := hbuilds.init
  obtain ⟨state, hstate⟩ := hbuilds.state
  obtain ⟨functions, hfunctions⟩ := Outcome.exists_mapM (f := FunctionBinding.ofFunction)
    (l := c.functions) fun f hf => by
      obtain ⟨inputs, hinputs⟩ := hbuilds.functionInputs f hf
      exact ⟨_, FunctionBinding.ofFunction_eq_ok.2 ⟨inputs, hinputs, rfl⟩⟩
  obtain ⟨getters, hgetters⟩ := Outcome.exists_mapM (f := GetterBinding.ofGetter)
    (l := c.getters) fun g hg => by
      obtain ⟨inputs, hinputs⟩ := hbuilds.getterInputs g hg
      obtain ⟨outputs, houtputs⟩ := hbuilds.getterOutputs g hg
      exact ⟨_, GetterBinding.ofGetter_eq_ok.2 ⟨inputs, outputs, hinputs, houtputs, rfl⟩⟩
  exact ⟨_, ofValid_eq_ok.2
    ⟨init, state, functions, getters, hinit, hstate, hfunctions, hgetters, rfl⟩⟩

/-- The names of a module are the ones that the names of its schema lead to. -/
theorem names_ofValid (h : ofValid runtimeCrate contract c = .ok m) :
    m.contract = Name.type contract ∧ m.methodNames = c.methodNames ∧
      m.structs.map Struct.names = c.structNames contract ∧ m.arguments = c.arguments := by
  obtain ⟨init, state, functions, getters, hinit, hstate, hfunctions, hgetters, rfl⟩ :=
    ofValid_eq_ok.1 h
  have hmethods : functions.flatMap (fun f => [f.body, f.send, f.bodyExternal, f.sendExternal]) =
      c.functions.flatMap fun f => [Name.body f.name, Name.send f.name,
        Name.bodyExternal f.name, Name.sendExternal f.name] := by
    refine Outcome.flatMap_eq_of_mapM hfunctions fun f b hb => ?_
    obtain ⟨inputs, -, rfl⟩ := FunctionBinding.ofFunction_eq_ok.1 hb
    rfl
  have hget : getters.map (·.method) = c.getters.map fun g => Name.get g.name := by
    refine Outcome.map_eq_of_mapM hgetters fun g b hb => ?_
    obtain ⟨inputs, outputs, -, -, rfl⟩ := GetterBinding.ofGetter_eq_ok.1 hb
    rfl
  have hinputs : functions.flatMap (·.inputs.structNames) =
        c.functions.flatMap (fun f => Param.grouped (Name.type f.name ++ "Params") f.inputs) ∧
      functions.flatMap (fun f => f.inputs.argument?.toList) =
        c.functions.flatMap fun f => Param.alone f.inputs := by
    constructor <;> refine Outcome.flatMap_eq_of_mapM hfunctions fun f b hb => ?_
    all_goals obtain ⟨inputs, hinputs, rfl⟩ := FunctionBinding.ofFunction_eq_ok.1 hb
    · exact (Shape.built_ofInputs hinputs).structNames_eq
    · exact (Shape.built_ofInputs hinputs).argument_eq
  have hshapes : getters.flatMap (fun g => g.inputs.structNames ++ g.outputs.structNames) =
        c.getters.flatMap (fun g =>
          Param.grouped (Name.type (Name.get g.name) ++ "Params") g.inputs ++
            Param.grouped (Name.type (Name.get g.name) ++ "Output") g.outputs) ∧
      getters.flatMap (fun g => g.inputs.argument?.toList) =
        c.getters.flatMap fun g => Param.alone g.inputs := by
    constructor <;> refine Outcome.flatMap_eq_of_mapM hgetters fun g b hb => ?_
    all_goals obtain ⟨inputs, outputs, hinputs, houtputs, rfl⟩ := GetterBinding.ofGetter_eq_ok.1 hb
    · rw [(Shape.built_ofInputs hinputs).structNames_eq,
        (Shape.built_ofOutputs houtputs).structNames_eq]
    · exact (Shape.built_ofInputs hinputs).argument_eq
  refine ⟨rfl, ?_, ?_, congrArg₂ (· ++ ·) hinputs.2 hshapes.2⟩
  · rw [methodNames, hmethods, hget]
    rfl
  · rw [structs, List.map_append, List.map_append, List.filterMap_eq_flatMap_toList,
      List.map_flatMap, List.map_flatMap, Contract.structNames, ← hinputs.1, ← hshapes.1,
      ← Struct.names_ofParams hinit, ← Struct.names_ofParams hstate]
    simp only [List.map_append]
    rfl

end BindingModule

end CellAbi
