import CellAbi.Proofs.Bindings.Landmark

/-!
# The landmarks of a rendered module

Each piece of a rendered module is read back as the structs and methods that it is printed from, and
as the attachment where it has one.  No line is broken as long as the raw names are not: those of
the contract, the runtime and the methods.

    Reads intact (functionMethods f) f.landmarks                        (`reads_functionMethods`)
    Reads intact (moduleSource m) m.landmarks                              (`reads_moduleSource`)
-/

namespace CellAbi

open Source

/-! ## Names on one line -/

/-- The identifier is one word, and the type is on one line. -/
structure Field.IsInline (f : Field) : Prop where
  ident : ∀ c ∈ f.ident.toList, c ≠ ' ' ∧ c ≠ '\n'
  type : Unbroken f.type

theorem Field.IsInline.unbroken_ident {f : Field} (h : f.IsInline) : Unbroken f.ident :=
  fun hmem => (h.ident _ hmem).2 rfl

structure Struct.IsInline (s : Struct) : Prop where
  name : Unbroken s.name
  fields : ∀ f ∈ s.fields, f.IsInline

def Shape.IsInline : Shape → Prop
  | .none => True
  | .single f => f.IsInline
  | .struct s => s.IsInline

structure BindingModule.IsInline (m : BindingModule) : Prop where
  contract : Unbroken m.contract
  init : m.init.IsInline
  state : m.state.IsInline
  functions : ∀ f ∈ m.functions, f.inputs.IsInline
  getters : ∀ g ∈ m.getters, g.inputs.IsInline ∧ g.outputs.IsInline

theorem Shape.IsInline.struct {s : Shape} (h : s.IsInline) : ∀ t ∈ s.struct?, t.IsInline := by
  cases s with
  | none | single => exact nofun
  | struct s => exact fun t ht => Option.some.inj ht ▸ h

theorem BindingModule.IsInline.structs {m : BindingModule} (h : m.IsInline) :
    ∀ s ∈ m.structs, s.IsInline := by
  simp only [BindingModule.structs, List.forall_mem_append, List.forall_mem_cons]
  refine ⟨⟨⟨h.init, h.state, nofun⟩, fun s hs => ?_⟩, fun s hs => ?_⟩
  · obtain ⟨f, hf, hs⟩ := List.mem_filterMap.1 hs
    exact (h.functions f hf).struct s hs
  · obtain ⟨g, hg, hs⟩ := List.mem_flatMap.1 hs
    obtain hs | hs := List.mem_append.1 hs
    · exact (h.getters g hg).1.struct s (Option.mem_toList.1 hs)
    · exact (h.getters g hg).2.struct s (Option.mem_toList.1 hs)

/-- The names that a rendered module holds as they are have no line break. -/
structure BindingModule.IsIntact (m : BindingModule) : Prop where
  contractPath : Unbroken m.contractPath
  runtimeCrate : Unbroken m.runtimeCrate
  methods : ∀ name ∈ m.methodNames, Unbroken name

/-! ## Landmarks of a module -/

def FunctionBinding.landmarks (f : FunctionBinding) : List Landmark :=
  [.method f.body, .method f.send] ++ (if f.deploys then [.attachment] else []) ++
    [.method f.bodyExternal, .method f.sendExternal]

/-- The type of the contract and the methods that are named for no function or getter. -/
def BindingModule.clientLandmarks (m : BindingModule) : List Landmark :=
  [.struct m.contract, .method "new", .method "createFromABI"] ++
    (if m.hasConstructor then [] else [.method "sendDeploy", .attachment]) ++
    [.method "getStateVariables"]

def BindingModule.landmarks (m : BindingModule) : List Landmark :=
  m.structs.map (fun s => .struct s.name) ++ m.clientLandmarks ++
    m.functions.flatMap (·.landmarks) ++ m.getters.map fun g => .method g.method

/-! ## Reading source -/

variable {intact : Prop}

/-- A line that is no landmark, and that is not broken if the raw names are intact. -/
structure IsInner (intact : Prop) (text : String) : Prop where
  plain : Landmark.ofText? text = none
  unbroken : intact → Unbroken text

/-- The lines of `body` are read as these landmarks, and none is broken if the raw names are
intact. -/
structure Reads (intact : Prop) (body : List Source) (landmarks : List Landmark) : Prop where
  landmarks_eq : (textsOf body).filterMap Landmark.ofText? = landmarks
  unbroken : intact → ∀ text ∈ textsOf body, Unbroken text

section
variable {cs : List Char} {text rest ident : String}

theorem unbroken_ofList (h : cs.all (· != '\n') = true) : Unbroken (String.ofList cs) := by
  rw [Unbroken, String.toList_ofList]
  exact fun hmem => bne_iff_ne.1 (List.all_eq_true.1 h _ hmem) rfl

theorem IsInner.append (h : Landmark.isSettled Landmark.lineWords cs = true)
    (hrest : intact → Unbroken rest) : IsInner intact (String.ofList cs ++ rest) := by
  constructor
  · rw [Landmark.ofText?, String.toList_append, String.toList_ofList]
    exact Landmark.ofLine?_settled h rest.toList
  · intro hi
    rw [unbroken_append, Unbroken, String.toList_ofList]
    exact ⟨(Landmark.isSettled_iff.1 h).2, hrest hi⟩

/-- Fixed text on both sides of a name. -/
theorem IsInner.around {middle last : String}
    (h : Landmark.isSettled Landmark.lineWords cs = true) (hmiddle : intact → Unbroken middle)
    (hlast : Unbroken last) : IsInner intact (String.ofList cs ++ middle ++ last) := by
  rw [String.append_assoc]
  exact .append h fun hi => unbroken_append.2 ⟨hmiddle hi, hlast⟩

/-- The same with two names in it. -/
theorem IsInner.around_two {a between b last : String}
    (h : Landmark.isSettled Landmark.lineWords cs = true) (ha : intact → Unbroken a)
    (hbetween : Unbroken between) (hb : intact → Unbroken b) (hlast : Unbroken last) :
    IsInner intact (String.ofList cs ++ a ++ between ++ b ++ last) := by
  simp only [String.append_assoc]
  refine .append h fun hi => ?_
  simp only [unbroken_append]
  exact ⟨ha hi, hbetween, hb hi, hlast⟩

/-- A public item that is neither a struct nor a method. -/
theorem IsInner.pub (h : Landmark.isSettled Landmark.publicWords cs = true)
    (hrest : intact → Unbroken rest) :
    IsInner intact (String.ofList ('p' :: 'u' :: 'b' :: ' ' :: cs) ++ rest) := by
  constructor
  · rw [Landmark.ofText?, String.toList_append, String.toList_ofList]
    exact Landmark.ofLine?_pub_settled h rest.toList
  · intro hi
    rw [unbroken_append, Unbroken, String.toList_ofList]
    refine ⟨?_, hrest hi⟩
    simpa using (Landmark.isSettled_iff.1 h).2

theorem IsInner.fixed (h : Landmark.isSettled Landmark.lineWords cs = true) :
    IsInner intact (String.ofList cs) := by
  have happend : IsInner intact (String.ofList cs ++ "") := .append h fun _ => by decide
  rwa [String.append_empty] at happend

/-- An argument of a method. -/
theorem IsInner.arg (h : Landmark.isSettled Landmark.lineWords cs = true) :
    IsInner intact (String.ofList cs ++ ",") :=
  .append h fun _ => by decide

theorem IsInner.blank : IsInner intact "" := ⟨by decide, fun _ => by decide⟩

/-- A line that begins with a word and a colon. -/
theorem IsInner.word (hident : ∀ c ∈ ident.toList, c ≠ ' ' ∧ c ≠ '\n')
    (h : cs.all (· != '\n') = true) (hrest : intact → Unbroken rest) :
    IsInner intact (ident ++ (String.ofList (':' :: cs) ++ rest)) := by
  have hblank : ' ' ∉ ident.toList := fun h => (hident _ h).1 rfl
  have htext : (ident ++ (String.ofList (':' :: cs) ++ rest)).toList =
      ident.toList ++ ':' :: (cs ++ rest.toList) := by
    rw [String.toList_append, String.toList_append, String.toList_ofList, List.cons_append]
  -- The line begins with its word, as it stands, and a landmark has a blank behind its first word.
  have hfirst : unindent (ident.toList ++ ':' :: (cs ++ rest.toList)) =
      ident.toList ++ ':' :: (cs ++ rest.toList) := by
    cases hident : ident.toList with
    | nil => rfl
    | cons c tail =>
      refine List.dropWhile_cons_of_neg fun hc => hblank ?_
      rw [hident, ← beq_iff_eq.1 hc]
      exact List.mem_cons_self
  constructor
  · rw [Landmark.ofText?, htext, hfirst]
    exact Landmark.ofLine?_eq_none
      (Landmark.not_prefix_of_colon ['p', 'u', 'b'] (by decide) hblank)
      (Landmark.not_prefix_of_colon ['m', 'e', 's', 's', 'a', 'g', 'e'] (by decide) hblank)
  · intro hi
    rw [unbroken_append, unbroken_append]
    refine ⟨fun h => (hident _ h).2 rfl, unbroken_ofList ?_, hrest hi⟩
    rw [List.all_cons, h]
    rfl

/-- A public field. -/
theorem IsInner.pub_word (hident : ∀ c ∈ ident.toList, c ≠ ' ' ∧ c ≠ '\n')
    (hrest : intact → Unbroken rest) : IsInner intact ("pub " ++ (ident ++ (": " ++ rest))) := by
  have hblank : ' ' ∉ ident.toList := fun h => (hident _ h).1 rfl
  have htext : ("pub " ++ (ident ++ (": " ++ rest))).toList =
      'p' :: 'u' :: 'b' :: ' ' :: (ident.toList ++ ':' :: ' ' :: rest.toList) := by
    simp only [String.toList_append]
    rfl
  constructor
  · rw [Landmark.ofText?, htext]
    exact Landmark.ofLine?_pub_eq_none
      (Landmark.not_prefix_of_colon ['s', 't', 'r', 'u', 'c', 't'] (by decide) hblank)
      (Landmark.not_prefix_of_colon ['f', 'n'] (by decide) hblank)
      (Landmark.not_prefix_of_colon ['a', 's', 'y', 'n', 'c'] (by decide) hblank)
  · intro hi
    simp only [unbroken_append]
    exact ⟨by decide, fun h => (hident _ h).2 rfl, by decide, hrest hi⟩

end

namespace Reads

variable {a b body rest : List Source} {ks ls : List Landmark} {k : Landmark} {text : String}

theorem nil : Reads intact [] [] := ⟨rfl, fun _ => nofun⟩

theorem append (ha : Reads intact a ks) (hb : Reads intact b ls) :
    Reads intact (a ++ b) (ks ++ ls) := by
  constructor
  · rw [textsOf_append, List.filterMap_append, ha.landmarks_eq, hb.landmarks_eq]
  · intro hi
    rw [textsOf_append, List.forall_mem_append]
    exact ⟨ha.unbroken hi, hb.unbroken hi⟩

theorem inner_append (ha : Reads intact a []) (hb : Reads intact b ks) :
    Reads intact (a ++ b) ks := append ha hb

theorem append_inner (ha : Reads intact a ks) (hb : Reads intact b []) :
    Reads intact (a ++ b) ks := List.append_nil ks ▸ append ha hb

theorem inner (h : IsInner intact text) (hrest : Reads intact rest ks) :
    Reads intact (line text :: rest) ks := by
  constructor
  · exact (List.filterMap_cons_none h.plain).trans hrest.landmarks_eq
  · exact fun hi => List.forall_mem_cons.2 ⟨h.unbroken hi, hrest.unbroken hi⟩

theorem landmark (h : Landmark.ofText? text = some k) (htext : intact → Unbroken text)
    (hrest : Reads intact rest ks) : Reads intact (line text :: rest) (k :: ks) := by
  constructor
  · exact (List.filterMap_cons_some h).trans (congrArg (k :: ·) hrest.landmarks_eq)
  · exact fun hi => List.forall_mem_cons.2 ⟨htext hi, hrest.unbroken hi⟩

theorem indented (hbody : Reads intact body ks) (hrest : Reads intact rest ls) :
    Reads intact (.indented body :: rest) (ks ++ ls) := by
  constructor
  · show (textsOf body ++ textsOf rest).filterMap _ = _
    rw [List.filterMap_append, hbody.landmarks_eq, hrest.landmarks_eq]
  · exact fun hi => List.forall_mem_append.2 ⟨hbody.unbroken hi, hrest.unbroken hi⟩

theorem indented_inner (hbody : Reads intact body []) (hrest : Reads intact rest ks) :
    Reads intact (.indented body :: rest) ks := indented hbody hrest

theorem block {first last : String} (hfirst : IsInner intact first) (hbody : Reads intact body ks)
    (hlast : IsInner intact last) : Reads intact (block first last body) ks := by
  have h := inner hfirst (indented hbody (inner hlast nil))
  rwa [List.append_nil] at h

theorem map_line {α : Type} {g : α → String} {l : List α} (h : ∀ a ∈ l, IsInner intact (g a)) :
    Reads intact (l.map fun a => line (g a)) [] := by
  constructor
  · rw [textsOf_map_line]
    exact List.filterMap_eq_nil_iff.2 (List.forall_mem_map.2 fun a ha => (h a ha).plain)
  · intro hi
    rw [textsOf_map_line]
    exact List.forall_mem_map.2 fun a ha => (h a ha).unbroken hi

theorem flatMap {α : Type} {f : α → List Source} {g : α → List Landmark} {l : List α}
    (h : ∀ a ∈ l, Reads intact (f a) (g a)) : Reads intact (l.flatMap f) (l.flatMap g) := by
  induction l with
  | nil => exact nil
  | cons a l ih =>
    obtain ⟨ha, hl⟩ := List.forall_mem_cons.1 h
    rw [List.flatMap_cons, List.flatMap_cons]
    exact append ha (ih hl)

end Reads

/-! ## Pieces -/

namespace Render

variable {body : List Source} {ks : List Landmark} {args : List String}
variable {name result source : String}

theorem reads_struct {s : Struct} (h : s.IsInline) : Reads intact (struct s) [.struct s.name] := by
  refine .inner (.fixed rfl) (.landmark (Landmark.ofText?_struct s.name) ?_
    (.indented (.map_line fun f hf => ?_) (.inner (.fixed rfl) .nil)))
  · exact fun _ => unbroken_append.2 ⟨unbroken_append.2 ⟨by decide, h.name⟩, by decide⟩
  · simp only [String.append_assoc]
    refine .pub_word (h.fields f hf).ident fun _ => ?_
    exact unbroken_append.2 ⟨(h.fields f hf).type, by decide⟩

/-- A method is read by its first line and its body. -/
theorem reads_method (hname : intact → Unbroken name)
    (hargs : ∀ arg ∈ args, IsInner intact (arg ++ ",")) (hresult : intact → Unbroken result)
    (hbody : Reads intact body ks) :
    Reads intact (method name args result body) (.method name :: ks) := by
  have hlast : IsInner intact (") -> Result<" ++ result ++ "> \x7b") :=
    .around rfl hresult (by decide)
  refine .landmark (Landmark.ofText?_method name) ?_
    (.indented (.map_line hargs) (.block hlast hbody (.fixed rfl)))
  exact fun hi => unbroken_append.2 ⟨unbroken_append.2 ⟨by decide, hname hi⟩, by decide⟩

theorem isInner_inputArgs {inputs : Shape} (h : inputs.IsInline) :
    ∀ arg ∈ inputArgs inputs, IsInner intact (arg ++ ",") := by
  cases inputs with
  | none => exact nofun
  | single f =>
    refine List.forall_mem_singleton.2 ?_
    simp only [String.append_assoc]
    exact .word h.ident rfl fun _ => unbroken_append.2 ⟨h.type, by decide⟩
  | struct s =>
    refine List.forall_mem_singleton.2 ?_
    exact .around rfl (fun _ => h.name) (by decide)

theorem isInner_insertion {f : Field} (hsource : intact → Unbroken source) :
    IsInner intact ("json.insert(&" ++ f.param.expression ++ ", " ++ source ++ ")?;") :=
  .around_two rfl (fun _ => f.param.unbroken_expression) (by decide) hsource (by decide)

theorem reads_structJson {s : Struct} (h : s.IsInline) (hsource : Unbroken source) :
    Reads intact (structJson s source) [] := by
  unfold structJson
  split
  · exact .inner (.fixed rfl) .nil
  · refine .inner (.fixed rfl) (.map_line fun f hf => isInner_insertion fun _ => ?_)
    simp only [unbroken_append]
    exact ⟨⟨hsource, by decide⟩, (h.fields f hf).unbroken_ident⟩

theorem reads_inputsJson {inputs : Shape} (h : inputs.IsInline) :
    Reads intact (inputsJson inputs) [] := by
  cases inputs with
  | none => exact .inner (.fixed rfl) .nil
  | single f =>
    exact .inner (.fixed rfl) (.inner (isInner_insertion fun _ => h.unbroken_ident) .nil)
  | struct s => exact reads_structJson h (by decide)

theorem reads_attachInit : Reads intact attachInit [.attachment] :=
  .inner (.fixed rfl) (.indented (.landmark (by decide) (fun _ => by decide) .nil)
    (.inner (.fixed rfl) .nil))

theorem reads_sendInternal : Reads intact sendInternal [] :=
  .inner (.fixed rfl) (.inner (.fixed rfl) .nil)

/-! ## Methods of the contract -/

theorem reads_createMethod {m : BindingModule} (h : m.init.IsInline) :
    Reads intact (createMethod m) [.method "createFromABI"] := by
  have hparams (params : String) (hword : ∀ c ∈ params.toList, c ≠ ' ' ∧ c ≠ '\n') :
      Reads intact (method "createFromABI"
        ["codec: &dyn AbiCodec", params ++ ": " ++ m.init.name, "code: Cell", "workchain: i32"]
        "Self"
        (structJson m.init params ++
          [line "let data = codec.build_data(Self::CONTRACT_PATH, &json.into_json()).await?;",
            line "let init = StateInit::new(code, data);"] ++
          block "Ok(Self \x7b" "\x7d)"
            [line "address: contract_address(workchain, &init)?,", line "init: Some(init),"]))
        [.method "createFromABI"] := by
    refine reads_method (fun _ => by decide) ?_ (fun _ => by decide) ?_
    · simp only [List.forall_mem_cons, String.append_assoc]
      refine ⟨.arg rfl, .word hword rfl fun _ => ?_, .arg rfl, .arg rfl, nofun⟩
      exact unbroken_append.2 ⟨h.name, by decide⟩
    · have hsource : Unbroken params := fun hmem => (hword _ hmem).2 rfl
      refine .inner_append (.inner_append (reads_structJson h hsource) ?_)
        (.block (.fixed rfl) ?_ (.fixed rfl))
      · exact .inner (.fixed rfl) (.inner (.fixed rfl) .nil)
      · exact .inner (.fixed rfl) (.inner (.fixed rfl) .nil)
  refine .inner (.fixed rfl) (hparams _ ?_)
  split <;> decide

theorem reads_deployMethod : Reads intact deployMethod [.method "sendDeploy", .attachment] := by
  refine .inner (.fixed rfl) (reads_method (fun _ => by decide) ?_ (fun _ => by decide)
    (.inner (.fixed rfl) (.append reads_attachInit reads_sendInternal)))
  simp only [List.forall_mem_cons]
  exact ⟨.arg rfl, .arg rfl, .arg rfl, nofun⟩

theorem reads_stateMethod {state : Struct} (h : state.IsInline) :
    Reads intact (stateMethod state) [.method "getStateVariables"] := by
  refine reads_method (fun _ => by decide) ?_ (fun _ => h.name) ?_
  · simp only [List.forall_mem_cons]
    exact ⟨.arg rfl, .arg rfl, .arg rfl, nofun⟩
  split
  · refine .inner (.fixed rfl) (.inner ?_ .nil)
    exact .around rfl (fun _ => h.name) (by decide)
  · refine .inner (.append rfl fun _ => by decide)
      (.block ?_ (.map_line fun f hf => ?_) (.fixed rfl))
    · exact .around rfl (fun _ => h.name) (by decide)
    · simp only [String.append_assoc]
      refine .word (h.fields f hf).ident rfl fun _ => ?_
      exact unbroken_append.2 ⟨f.param.unbroken_expression, by decide⟩

/-! ## Methods of a function -/

section
variable {f : FunctionBinding} (h : f.inputs.IsInline)
include h

/-- The arguments that a method passes on. -/
theorem unbroken_passed {first alone : String} (hfirst : Unbroken first) (halone : Unbroken alone) :
    Unbroken (match forwarded? f.inputs with
      | some arg => first ++ arg
      | none => alone) := by
  cases hinputs : f.inputs with
  | none => exact halone
  | single g =>
    rw [hinputs] at h
    exact unbroken_append.2 ⟨hfirst, h.unbroken_ident⟩
  | struct s => exact unbroken_append.2 ⟨hfirst, by decide⟩

theorem reads_bodyMethod (hbody : intact → Unbroken f.body) :
    Reads intact (bodyMethod f) [.method f.body] := by
  refine reads_method hbody (List.forall_mem_cons.2 ⟨.arg rfl, isInner_inputArgs h⟩)
    (fun _ => by decide) (.inner_append (reads_inputsJson h) (.inner ?_ .nil))
  exact .around rfl (fun _ => unbroken_quoted _) (by decide)

theorem reads_sendMethod (hbody : intact → Unbroken f.body) (hsend : intact → Unbroken f.send) :
    Reads intact (sendMethod f)
      (.method f.send :: if f.deploys then [.attachment] else []) := by
  refine reads_method hsend ?_ (fun _ => by decide) ?_
  · simp only [List.forall_mem_append, List.forall_mem_cons]
    exact ⟨⟨⟨.arg rfl, .arg rfl, .arg rfl, .arg rfl, nofun⟩, isInner_inputArgs h⟩,
      .arg rfl, .arg rfl, nofun⟩
  have hfront : IsInner intact ((if f.deploys then "let mut message" else "let message") ++
      " = InternalMessage::new(value)") := by
    split <;> exact .append rfl fun _ => by decide
  have hattach : Reads intact (if f.deploys then attachInit else [])
      (if f.deploys then [.attachment] else []) := by
    split
    · exact reads_attachInit
    · exact .nil
  refine .append_inner (.inner_append (.inner ?_ (.inner hfront (.indented_inner ?_ .nil))) hattach)
    reads_sendInternal
  · exact .around_two rfl hbody (by decide)
      (fun _ => unbroken_passed h (by decide) (by decide)) (by decide)
  · exact .inner (.fixed rfl) (.inner (.fixed rfl) (.inner (.fixed rfl) .nil))

theorem reads_bodyExternalMethod (hexternal : intact → Unbroken f.bodyExternal) :
    Reads intact (bodyExternalMethod f) [.method f.bodyExternal] := by
  refine reads_method hexternal ?_ (fun _ => by decide) ?_
  · simp only [List.forall_mem_append, List.forall_mem_cons]
    exact ⟨⟨.arg rfl, .arg rfl, .arg rfl, .arg rfl, nofun⟩, isInner_inputArgs h⟩
  refine .inner_append (.inner_append (.inner_append (reads_inputsJson h)
    (.inner (.fixed rfl) .nil)) (.block (.fixed rfl) ?_ (.fixed rfl))) (.inner (.fixed rfl) .nil)
  refine .inner (.fixed rfl) (.inner ?_ (.inner (.fixed rfl) (.inner (.fixed rfl)
    (.inner (.fixed rfl) (.inner (.fixed rfl) .nil)))))
  exact .around rfl (fun _ => unbroken_quoted _) (by decide)

theorem reads_sendExternalMethod (hexternal : intact → Unbroken f.bodyExternal)
    (hsend : intact → Unbroken f.sendExternal) :
    Reads intact (sendExternalMethod f) [.method f.sendExternal] := by
  refine .inner (.fixed rfl) (reads_method hsend ?_ (fun _ => by decide)
    (.inner ?_ (.inner (.fixed rfl) (.inner (.fixed rfl) .nil))))
  · simp only [List.forall_mem_append, List.forall_mem_cons]
    exact ⟨⟨.arg rfl, .arg rfl, .arg rfl, .arg rfl, .arg rfl, nofun⟩, isInner_inputArgs h⟩
  · exact .around_two rfl hexternal (by decide)
      (fun _ => unbroken_passed h (by decide) (by decide)) (by decide)

theorem reads_functionMethods
    (hnames : intact → ∀ name ∈ [f.body, f.send, f.bodyExternal, f.sendExternal], Unbroken name) :
    Reads intact (functionMethods f) f.landmarks := by
  have hbody : intact → Unbroken f.body := fun hi => hnames hi _ (by simp)
  have hsend : intact → Unbroken f.send := fun hi => hnames hi _ (by simp)
  have hexternal : intact → Unbroken f.bodyExternal := fun hi => hnames hi _ (by simp)
  have hlast : intact → Unbroken f.sendExternal := fun hi => hnames hi _ (by simp)
  have hblank : Reads intact [blank] [] := .inner .blank .nil
  have hlandmarks : f.landmarks =
      [.method f.body] ++ (.method f.send :: if f.deploys then [.attachment] else []) ++
        [.method f.bodyExternal] ++ [.method f.sendExternal] := by
    rw [FunctionBinding.landmarks, List.append_assoc _ [_] [_]]
    rfl
  rw [hlandmarks]
  refine .append (.append_inner (.append (.append_inner (.append (.append_inner ?_ hblank) ?_)
    hblank) ?_) hblank) ?_
  · exact reads_bodyMethod h hbody
  · exact reads_sendMethod h hbody hsend
  · exact reads_bodyExternalMethod h hexternal
  · exact reads_sendExternalMethod h hexternal hlast

end

/-! ## Method of a getter -/

theorem isInner_encoding {f : Field} (hsource : Unbroken source) :
    IsInner intact ("encode_arg(codec, &" ++ f.param.expression ++ ", " ++ source ++
      ").await?,") :=
  .around_two rfl (fun _ => f.param.unbroken_expression) (by decide) (fun _ => hsource) (by decide)

theorem reads_getterArgs {inputs : Shape} (h : inputs.IsInline) :
    Reads intact (getterArgs inputs) [] := by
  cases inputs with
  | none => exact .inner (.fixed rfl) .nil
  | single f =>
    have hline : Reads intact [encoding f f.ident] [] :=
      .inner (isInner_encoding (f := f) h.unbroken_ident) .nil
    exact .block (.fixed rfl) hline (.fixed rfl)
  | struct s =>
    refine .block (.fixed rfl) (.map_line fun f hf => isInner_encoding ?_) (.fixed rfl)
    exact unbroken_append.2 ⟨by decide, (h.fields f hf).unbroken_ident⟩

theorem decoding_eq (f : Field) :
    decoding f = "decode_arg(codec, &" ++ (f.param.expression ++ ", &mut stack).await") :=
  String.append_assoc

theorem unbroken_decoding (f : Field) : Unbroken (decoding f) := by
  rw [decoding_eq, unbroken_append, unbroken_append]
  exact ⟨by decide, f.param.unbroken_expression, by decide⟩

theorem reads_getterResult {call : String} {outputs : Shape} (hcall : IsInner intact call)
    (hbroken : Unbroken call) (h : outputs.IsInline) :
    Reads intact (getterResult call outputs) [] := by
  have hstack : IsInner intact ("let mut stack = " ++ call) := .append rfl fun _ => hbroken
  cases outputs with
  | none => exact .inner hcall (.inner (.fixed rfl) .nil)
  | single f =>
    refine .inner hstack (.inner ?_ .nil)
    rw [decoding_eq]
    exact .append rfl fun _ => unbroken_append.2 ⟨f.param.unbroken_expression, by decide⟩
  | struct s =>
    refine .inner hstack (.block ?_ (.map_line fun f hf => ?_) (.fixed rfl))
    · exact .around rfl (fun _ => h.name) (by decide)
    · simp only [String.append_assoc]
      refine .word (h.fields f hf).ident rfl fun _ => ?_
      exact unbroken_append.2 ⟨unbroken_decoding f, by decide⟩

theorem unbroken_resultType {outputs : Shape} (h : outputs.IsInline) :
    Unbroken (resultType outputs) := by
  cases outputs with
  | none => decide
  | single f => exact h.type
  | struct s => exact h.name

theorem reads_getterMethod {g : GetterBinding} (hinputs : g.inputs.IsInline)
    (houtputs : g.outputs.IsInline) (hmethod : intact → Unbroken g.method) :
    Reads intact (getterMethod g) [.method g.method] := by
  have hcall : Unbroken ("provider.get(" ++ Text.quoted g.abiName ++ ", args).await?;") := by
    rw [unbroken_append, unbroken_append]
    exact ⟨⟨by decide, unbroken_quoted _⟩, by decide⟩
  refine reads_method hmethod ?_ (fun _ => unbroken_resultType houtputs)
    (.inner_append (reads_getterArgs hinputs) (reads_getterResult ?_ hcall houtputs))
  · simp only [List.forall_mem_append, List.forall_mem_cons]
    refine ⟨⟨.arg rfl, .arg rfl, ?_, nofun⟩, isInner_inputArgs hinputs⟩
    rw [String.append_assoc]
    split <;> exact .append rfl fun _ => by decide
  · exact .around rfl (fun _ => unbroken_quoted _) (by decide)

/-! ## Modules -/

section
variable {m : BindingModule} (h : m.IsInline) (hintact : intact → m.IsIntact)
include h hintact

theorem reads_implementation :
    Reads intact (implementation m) ([.method "new", .method "createFromABI"] ++
      (if m.hasConstructor then [] else [.method "sendDeploy", .attachment]) ++
      [.method "getStateVariables"] ++ m.functions.flatMap (·.landmarks) ++
      m.getters.map fun g => .method g.method) := by
  have hblank : Reads intact [blank] [] := .inner .blank .nil
  have hpath : IsInner intact
      ("pub const CONTRACT_PATH: &str = " ++ Text.quoted m.contractPath ++ ";") := by
    rw [String.append_assoc]
    exact .pub rfl fun _ => unbroken_append.2 ⟨unbroken_quoted _, by decide⟩
  have hnew : Reads intact (block "pub fn new(address: StdAddress) -> Self \x7b" "\x7d"
      [line "Self \x7b address, init: None \x7d"]) [.method "new"] :=
    .landmark (by decide) (fun _ => by decide)
      (.indented (.inner (.fixed rfl) .nil) (.inner (.fixed rfl) .nil))
  have hdeploy : Reads intact (if m.hasConstructor then [] else blank :: deployMethod)
      (if m.hasConstructor then [] else [.method "sendDeploy", .attachment]) := by
    split
    · exact .nil
    · exact .inner .blank reads_deployMethod
  have hmethods (hi : intact) : (∀ f ∈ m.functions, ∀ name ∈
      [f.body, f.send, f.bodyExternal, f.sendExternal], Unbroken name) ∧
      ∀ g ∈ m.getters, Unbroken g.method := by
    have hall := (hintact hi).methods
    simp only [BindingModule.methodNames, List.forall_mem_append, List.forall_mem_flatMap,
      List.forall_mem_map] at hall
    exact ⟨hall.1.2, hall.2⟩
  have hfunctions : Reads intact (m.functions.flatMap fun f => blank :: functionMethods f)
      (m.functions.flatMap (·.landmarks)) :=
    .flatMap fun f hf => .inner .blank <|
      reads_functionMethods (h.functions f hf) fun hi => (hmethods hi).1 f hf
  have hgetters : Reads intact (m.getters.flatMap fun g => blank :: getterMethod g)
      (m.getters.flatMap fun g => [.method g.method]) :=
    .flatMap fun g hg => .inner .blank <|
      reads_getterMethod (h.getters g hg).1 (h.getters g hg).2 fun hi => (hmethods hi).2 g hg
  rw [List.map_eq_flatMap]
  exact .append (.append (.append (.append_inner (.append (.append (.append_inner
    (.inner_append (.inner hpath hblank) hnew) hblank) (reads_createMethod h.init)) hdeploy) hblank)
    (reads_stateMethod h.state)) hfunctions) hgetters

/-- The lines of a rendered module tell its structs and its methods, and nothing else. -/
theorem reads_moduleSource : Reads intact (moduleSource m) m.landmarks := by
  have hblank : Reads intact [blank] [] := .inner .blank .nil
  have hbanner : Reads intact banner [] :=
    .inner (.fixed rfl) (.inner (.fixed rfl) (.inner (.fixed rfl) .nil))
  have huse : IsInner intact ("use " ++ m.runtimeCrate ++ "::prelude::*;") :=
    .around rfl (fun hi => (hintact hi).runtimeCrate) (by decide)
  have hstructs : Reads intact (m.structs.flatMap fun s => blank :: struct s)
      (m.structs.flatMap fun s => [.struct s.name]) :=
    .flatMap fun s hs => .inner .blank (reads_struct (h.structs s hs))
  have hcomment :
      IsInner intact ("/// Client for the \x60" ++ m.contractPath ++ "\x60 contract.") :=
    .around rfl (fun hi => (hintact hi).contractPath) (by decide)
  have hfields : Reads intact [line "pub address: StdAddress,", line "pub init: Option<StateInit>,"]
      [] :=
    .inner ⟨by decide, fun _ => by decide⟩ (.inner ⟨by decide, fun _ => by decide⟩ .nil)
  have hclient : Reads intact (block ("pub struct " ++ m.contract ++ " \x7b") "\x7d"
      [line "pub address: StdAddress,", line "pub init: Option<StateInit>,"])
      [.struct m.contract] := by
    refine .landmark (Landmark.ofText?_struct m.contract) (fun _ => ?_)
      (.indented hfields (.inner (.fixed rfl) .nil))
    exact unbroken_append.2 ⟨unbroken_append.2 ⟨by decide, h.contract⟩, by decide⟩
  have himpl : IsInner intact ("impl " ++ m.contract ++ " \x7b") :=
    .around rfl (fun _ => h.contract) (by decide)
  have hlandmarks : m.landmarks = m.structs.flatMap (fun s => [.struct s.name]) ++
      [.struct m.contract] ++ ([.method "new", .method "createFromABI"] ++
        (if m.hasConstructor then [] else [.method "sendDeploy", .attachment]) ++
        [.method "getStateVariables"] ++ m.functions.flatMap (·.landmarks) ++
        m.getters.map fun g => .method g.method) := by
    simp only [BindingModule.landmarks, BindingModule.clientLandmarks, ← List.map_eq_flatMap,
      List.append_assoc]
    rfl
  rw [hlandmarks]
  refine .append (.append_inner (.append (.append_inner (.inner_append ?_ hstructs) ?_) hclient)
    hblank) (.block himpl (reads_implementation h hintact) (.fixed rfl))
  · refine .append_inner hbanner (.inner .blank (.inner (.fixed rfl) ?_))
    exact .inner .blank (.inner huse .nil)
  · exact .inner .blank (.inner hcomment (.inner (.fixed rfl) .nil))

end

end Render

end CellAbi
