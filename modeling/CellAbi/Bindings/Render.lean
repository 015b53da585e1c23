import CellAbi.Bindings.Module
import CellAbi.Bindings.Source
import CellAbi.Text.Quoted

/-!
# Rendering binding modules

The Rust source of a binding module.  Generated methods convert their typed arguments with the
helpers of the runtime and forward them to the codec service or the provider.
-/

namespace CellAbi

open Source

/-! ## Parameters -/

namespace Param

mutual

/-- The expression that constructs a parameter; the `init` mark is left out. -/
def expression : Param → String
  | ⟨name, type, components, _⟩ =>
    "AbiParam::new(" ++ Text.quoted name ++ ", " ++ Text.quoted type ++ ")" ++
      componentsExpression components

def componentsExpression : Option (List Param) → String
  | none => ""
  | some ps => ".with_components(vec![" ++ ", ".intercalate (expressions ps) ++ "])"

def expressions : List Param → List String
  | [] => []
  | p :: ps => expression p :: expressions ps

end

end Param

namespace Render

/-! ## Pieces -/

def struct (s : Struct) : List Source :=
  line "#[derive(Debug, Clone, PartialEq)]" ::
    block ("pub struct " ++ s.name ++ " \x7b") "\x7d"
      (s.fields.map fun f => line ("pub " ++ f.ident ++ ": " ++ f.type ++ ","))

/-- An asynchronous method with one argument per line. -/
def method (name : String) (args : List String) (result : String) (body : List Source) :
    List Source :=
  [line ("pub async fn " ++ name ++ "("), indented (args.map fun a => line (a ++ ","))] ++
    block (") -> Result<" ++ result ++ "> \x7b") "\x7d" body

/-- The arguments that take the inputs. -/
def inputArgs : Shape → List String
  | .none => []
  | .single f => [f.ident ++ ": " ++ f.type]
  | .struct s => ["params: " ++ s.name]

/-- The argument that is passed on. -/
def forwarded? : Shape → Option String
  | .none => none
  | .single f => some f.ident
  | .struct _ => some "params"

def insertion (f : Field) (source : String) : Source :=
  line ("json.insert(&" ++ f.param.expression ++ ", " ++ source ++ ")?;")

/-- Collects the fields of a struct into a parameter object. -/
def structJson (s : Struct) (source : String) : List Source :=
  if s.fields.isEmpty then [line "let json = JsonParams::new();"]
  else
    line "let mut json = JsonParams::new();" ::
      s.fields.map fun f => insertion f (source ++ "." ++ f.ident)

/-- Collects the inputs into a parameter object. -/
def inputsJson : Shape → List Source
  | .none => [line "let json = JsonParams::new();"]
  | .single f => [line "let mut json = JsonParams::new();", insertion f f.ident]
  | .struct s => structJson s "params"

/-- Puts the initial state into the message. -/
def attachInit : List Source :=
  block "if let Some(init) = &self.init \x7b" "\x7d"
    [line "message = message.with_init(init.clone());"]

def sendInternal : List Source := [line "provider.internal(message).await?;", line "Ok(())"]

/-! ## Methods of the contract -/

def createMethod (m : BindingModule) : List Source :=
  let params := if m.init.fields.isEmpty then "_params" else "params"
  line "/// Compute the address and initial state from constructor-flagged fields." ::
    method "createFromABI"
      ["codec: &dyn AbiCodec", params ++ ": " ++ m.init.name, "code: Cell", "workchain: i32"]
      "Self"
      (structJson m.init params ++
        [line "let data = codec.build_data(Self::CONTRACT_PATH, &json.into_json()).await?;",
          line "let init = StateInit::new(code, data);"] ++
        block "Ok(Self \x7b" "\x7d)"
          [line "address: contract_address(workchain, &init)?,", line "init: Some(init),"])

def deployMethod : List Source :=
  line "/// Deploy with an empty internal message carrying the initial state." ::
    method "sendDeploy" ["&self", "provider: &dyn ContractProvider", "value: u128"] "()"
      (line "let mut message = InternalMessage::new(value);" :: (attachInit ++ sendInternal))

def stateMethod (state : Struct) : List Source :=
  let read := "read_state_variables(provider, codec, Self::CONTRACT_PATH).await?;"
  method "getStateVariables"
    ["&self", "provider: &dyn ContractProvider", "codec: &dyn AbiCodec"] state.name
    (if state.fields.isEmpty then [line read, line ("Ok(" ++ state.name ++ " \x7b\x7d)")]
    else
      line ("let state = " ++ read) ::
        block ("Ok(" ++ state.name ++ " \x7b") "\x7d)"
          (state.fields.map fun f =>
            line (f.ident ++ ": state.field(&" ++ f.param.expression ++ ")?,")))

/-! ## Methods of a function -/

def bodyMethod (f : FunctionBinding) : List Source :=
  method f.body ("codec: &dyn AbiCodec" :: inputArgs f.inputs) "Cell"
    (inputsJson f.inputs ++
      [line ("Ok(codec.internal_body(Self::CONTRACT_PATH, " ++ Text.quoted f.abiName ++
        ", &json.into_json()).await?)")])

def sendMethod (f : FunctionBinding) : List Source :=
  let callArgs := match forwarded? f.inputs with
    | some arg => "codec, " ++ arg
    | none => "codec"
  let binding := if f.deploys then "let mut message" else "let message"
  method f.send
    (["&self", "provider: &dyn ContractProvider", "codec: &dyn AbiCodec", "value: u128"] ++
      inputArgs f.inputs ++ ["bounce: Option<bool>", "send_mode: Option<SendMode>"])
    "()"
    ([line ("let body = Self::" ++ f.body ++ "(" ++ callArgs ++ ").await?;"),
      line (binding ++ " = InternalMessage::new(value)"),
      indented [line ".with_body(body)", line ".with_bounce(bounce)",
        line ".with_send_mode(send_mode);"]] ++
      (if f.deploys then attachInit else []) ++ sendInternal)

def bodyExternalMethod (f : FunctionBinding) : List Source :=
  method f.bodyExternal
    (["&self", "codec: &dyn AbiCodec", "secret_key: &[u8]", "header: ExternalHeader"] ++
      inputArgs f.inputs)
    "SignedBody"
    (inputsJson f.inputs ++ [line "let json = json.into_json();"] ++
      block "let request = ExternalBodyRequest \x7b" "\x7d;"
        [line "contract: Self::CONTRACT_PATH,",
          line ("function: " ++ Text.quoted f.abiName ++ ","), line "address: &self.address,",
          line "header: &header,", line "secret_key,", line "params: &json,"] ++
      [line "Ok(codec.external_body(request).await?)"])

def sendExternalMethod (f : FunctionBinding) : List Source :=
  let callArgs := match forwarded? f.inputs with
    | some arg => "codec, secret_key, header, " ++ arg
    | none => "codec, secret_key, header"
  line "/// Send the signed external message and return its expiry." ::
    method f.sendExternal
      (["&self", "provider: &dyn ContractProvider", "codec: &dyn AbiCodec", "secret_key: &[u8]",
        "header: ExternalHeader"] ++ inputArgs f.inputs)
      "u32"
      [line ("let signed = self." ++ f.bodyExternal ++ "(" ++ callArgs ++ ").await?;"),
        line "provider.external(signed.message).await?;", line "Ok(signed.expire_at)"]

def functionMethods (f : FunctionBinding) : List Source :=
  bodyMethod f ++ [blank] ++ sendMethod f ++ [blank] ++ bodyExternalMethod f ++ [blank] ++
    sendExternalMethod f

/-! ## Method of a getter -/

def encoding (f : Field) (source : String) : Source :=
  line ("encode_arg(codec, &" ++ f.param.expression ++ ", " ++ source ++ ").await?,")

def decoding (f : Field) : String :=
  "decode_arg(codec, &" ++ f.param.expression ++ ", &mut stack).await"

def getterArgs : Shape → List Source
  | .none => [line "let args = Vec::new();"]
  | .single f => block "let args = vec![" "];" [encoding f f.ident]
  | .struct s =>
    block "let args = vec![" "];" (s.fields.map fun f => encoding f ("params." ++ f.ident))

def getterResult (call : String) : Shape → List Source
  | .none => [line call, line "Ok(())"]
  | .single f => [line ("let mut stack = " ++ call), line (decoding f)]
  | .struct s =>
    line ("let mut stack = " ++ call) ::
      block ("Ok(" ++ s.name ++ " \x7b") "\x7d)"
        (s.fields.map fun f => line (f.ident ++ ": " ++ decoding f ++ "?,"))

def resultType : Shape → String
  | .none => "()"
  | .single f => f.type
  | .struct s => s.name

def getterMethod (g : GetterBinding) : List Source :=
  let codec := match g.inputs, g.outputs with
    | .none, .none => "_codec"
    | _, _ => "codec"
  method g.method
    (["&self", "provider: &dyn ContractProvider", codec ++ ": &dyn AbiCodec"] ++
      inputArgs g.inputs)
    (resultType g.outputs)
    (getterArgs g.inputs ++
      getterResult ("provider.get(" ++ Text.quoted g.abiName ++ ", args).await?;") g.outputs)

/-! ## Modules -/

/-- The lines above every generated module. -/
def banner : List Source := [
  line "// **********************************************",
  line "// This file is auto-generated. Do not modify it.",
  line "// **********************************************"]

def implementation (m : BindingModule) : List Source :=
  [line ("pub const CONTRACT_PATH: &str = " ++ Text.quoted m.contractPath ++ ";"), blank] ++
    block "pub fn new(address: StdAddress) -> Self \x7b" "\x7d"
      [line "Self \x7b address, init: None \x7d"] ++
    [blank] ++ createMethod m ++
    (if m.hasConstructor then [] else blank :: deployMethod) ++
    [blank] ++ stateMethod m.state ++
    m.functions.flatMap (fun f => blank :: functionMethods f) ++
    m.getters.flatMap fun g => blank :: getterMethod g

def moduleSource (m : BindingModule) : List Source :=
  banner ++ [blank, line "#![allow(non_snake_case, clippy::too_many_arguments)]", blank,
    line ("use " ++ m.runtimeCrate ++ "::prelude::*;")] ++
    m.structs.flatMap (fun s => blank :: struct s) ++
    [blank, line ("/// Client for the \x60" ++ m.contractPath ++ "\x60 contract."),
      line "#[derive(Debug, Clone, PartialEq)]"] ++
    block ("pub struct " ++ m.contract ++ " \x7b") "\x7d"
      [line "pub address: StdAddress,", line "pub init: Option<StateInit>,"] ++
    [blank] ++ block ("impl " ++ m.contract ++ " \x7b") "\x7d" (implementation m)

end Render

/-- The source of a binding module. -/
def BindingModule.toText (m : BindingModule) : String := Source.toText (Render.moduleSource m)

end CellAbi
