import CellAbi.Proofs.Bindings.Declarations
import CellAbi.Proofs.Bindings.Mentions

/-!
# Imported names in the text of a module

The names that a module uses from its imports are listed field by field and method by method, apart
from the renderer.  The text of every accepted contract mentions all of them, and no other imported
name but where a text of the schema holds one: a name that is generated, a path, or a quoted name or
type.

    ofContract crate contract c = .ok m →
      m.importedNames ⊆ importsIn m.toText ∧
      ∀ name ∈ importsIn m.toText, name ∈ m.importedNames ∨
        ∃ text ∈ m.rawTexts, name ∈ importsIn text                         (`importedNames_toText`)
-/

namespace CellAbi

open Source Render

/-! ## Native types -/

/-- The words of a native type are its runs of letters and numbers. -/
theorem Text.wordRuns_native {cs : List Char} (h : ∀ c ∈ cs, c ∈ nativeChars) (run : List Char) :
    wordRuns run cs = alphanumericRuns run cs := by
  have hchars : ∀ c ∈ nativeChars, (IsWordChar c ↔ isAlphanumeric c = true) := by decide +kernel
  induction cs generalizing run with
  | nil => rfl
  | cons c cs ih =>
    obtain ⟨hc, hcs⟩ := List.forall_mem_cons.1 h
    rw [wordRuns, alphanumericRuns, ih hcs, ih hcs]
    exact if_congr (hchars c hc) rfl rfl

/-- The type is written with the characters of native types. -/
def Field.IsNative (f : Field) : Prop := CellAbi.IsNative f.type

theorem Field.filter_words {f : Field} (h : f.IsNative) :
    f.words.filter isImported = "AbiParam" :: importsIn f.type := by
  rw [words, List.filter_cons_of_pos (by decide), ← Text.wordRuns_native h]
  rfl

theorem Field.isNative_ofParam {ident : String} {p : Param} {f : Field}
    (h : ofParam ident p = .ok f) : f.IsNative := by
  obtain ⟨type, -, rfl⟩ := ofParam_eq_ok.1 h
  exact type.native.isNative_toText

theorem Struct.isNative_ofParams {name : String} {ps : List Param} {s : Struct}
    (h : ofParams name ps = .ok s) : ∀ f ∈ s.fields, f.IsNative := by
  obtain ⟨fields, hfields, rfl⟩ := ofParams_eq_ok.1 h
  intro f hf
  obtain ⟨p, -, hp⟩ := (Outcome.mapM_spec hfields).2.2 f hf
  exact Field.isNative_ofParam hp

theorem Shape.Built.isNative {name : String} {ident : String → String} {ps : List Param} {s : Shape}
    (h : Built name ident ps s) : ∀ f ∈ s.fields, f.IsNative := by
  cases h with
  | none => exact List.forall_mem_nil _
  | single h => exact List.forall_mem_singleton.2 (Field.isNative_ofParam h)
  | struct h => exact Struct.isNative_ofParams h

namespace BindingModule

variable {runtimeCrate contract : String} {c : Contract} {m : BindingModule}

theorem isNative_ofValid (h : ofValid runtimeCrate contract c = .ok m) :
    ∀ f ∈ m.fields, f.IsNative := by
  obtain ⟨init, state, functions, getters, hinit, hstate, hfunctions, hgetters, rfl⟩ :=
    ofValid_eq_ok.1 h
  simp only [fields, List.forall_mem_append, List.forall_mem_flatMap]
  refine ⟨⟨⟨Struct.isNative_ofParams hinit, Struct.isNative_ofParams hstate⟩, fun f hf => ?_⟩,
    fun g hg => ?_⟩
  · obtain ⟨function, -, hfunction⟩ := (Outcome.mapM_spec hfunctions).2.2 f hf
    obtain ⟨inputs, hinputs, rfl⟩ := FunctionBinding.ofFunction_eq_ok.1 hfunction
    exact (Shape.built_ofInputs hinputs).isNative
  · obtain ⟨getter, -, hgetter⟩ := (Outcome.mapM_spec hgetters).2.2 g hg
    obtain ⟨inputs, outputs, hinputs, houtputs, rfl⟩ := GetterBinding.ofGetter_eq_ok.1 hgetter
    exact ⟨(Shape.built_ofInputs hinputs).isNative, (Shape.built_ofOutputs houtputs).isNative⟩

/-! ## What a module takes from its schema -/

/-- The texts that go into the source of a module as they are: its names, what it is imported from
and found by, and what stands quoted in it. -/
def rawTexts (m : BindingModule) : List String :=
  m.names ++ [m.runtimeCrate, m.contractPath, Text.quoted m.contractPath] ++
    m.functions.map (fun f => Text.quoted f.abiName) ++
    m.getters.map (fun g => Text.quoted g.abiName) ++ m.fields.flatMap (·.param.quotedTexts)

/-- The module uses the name from its imports, or has it in a text of its schema. -/
def Mentions (m : BindingModule) (name : String) : Prop :=
  name ∈ m.importedNames ∨ ∃ text ∈ m.rawTexts, name ∈ importsIn text

/-! ## Names and fields of the parts -/

/-- The fields of the shape are fields of the module, and so is its struct. -/
structure Has (m : BindingModule) (shape : Shape) : Prop where
  fields : ∀ f ∈ shape.fields, f ∈ m.fields
  struct : ∀ s ∈ shape.struct?, s ∈ m.structs

/-- A shape that methods take: alone it is an argument. -/
structure Takes (m : BindingModule) (inputs : Shape) : Prop extends m.Has inputs where
  argument : ∀ name ∈ inputs.argument?, name ∈ m.arguments

section
variable {name : String} {f : Field} {s : Struct} {b : FunctionBinding} {g : GetterBinding}

theorem mem_names_of_struct (hs : s ∈ m.structs) : s.name ∈ m.names := by
  simp only [names, List.mem_append, List.mem_cons]
  exact .inl (.inl (.inl (.inr (List.mem_map_of_mem hs))))

theorem mem_names_of_field (hs : s ∈ m.structs) (hf : f ∈ s.fields) : f.ident ∈ m.names := by
  simp only [names, List.mem_append]
  exact .inl (.inl (.inr (List.mem_flatMap.2 ⟨s, hs, List.mem_map_of_mem hf⟩)))

theorem mem_names_of_method (h : name ∈ m.methodNames) : name ∈ m.names := by
  simp only [names, List.mem_append]
  exact .inl (.inr h)

theorem mem_names_of_argument (h : name ∈ m.arguments) : name ∈ m.names := by
  simp only [names, List.mem_append]
  exact .inr h

theorem mem_methodNames_of_function (hb : b ∈ m.functions) :
    ∀ name ∈ [b.body, b.send, b.bodyExternal, b.sendExternal], name ∈ m.methodNames := by
  intro name hname
  simp only [methodNames, List.mem_append]
  exact .inl (.inr (List.mem_flatMap.2 ⟨b, hb, hname⟩))

theorem mem_methodNames_of_getter (hg : g ∈ m.getters) : g.method ∈ m.methodNames := by
  simp only [methodNames, List.mem_append]
  exact .inr (List.mem_map_of_mem hg)

theorem has_init : m.Has (.struct m.init) where
  fields f hf := by
    simp only [BindingModule.fields, List.mem_append]
    exact .inl (.inl (.inl hf))
  struct s hs := by
    obtain rfl := Option.mem_some.1 hs
    exact List.mem_append_left _ (List.mem_append_left _ List.mem_cons_self)

theorem has_state : m.Has (.struct m.state) where
  fields f hf := by
    simp only [BindingModule.fields, List.mem_append]
    exact .inl (.inl (.inr hf))
  struct s hs := by
    obtain rfl := Option.mem_some.1 hs
    simp only [structs, List.mem_append, List.mem_cons, true_or, or_true]

theorem takes_function (hb : b ∈ m.functions) : m.Takes b.inputs where
  fields f hf := by
    simp only [BindingModule.fields, List.mem_append]
    exact .inl (.inr (List.mem_flatMap.2 ⟨b, hb, hf⟩))
  struct s hs := by
    simp only [structs, List.mem_append]
    exact .inl (.inr (List.mem_filterMap.2 ⟨b, hb, hs⟩))
  argument name hname :=
    List.mem_append_left _ (List.mem_flatMap.2 ⟨b, hb, Option.mem_toList.2 hname⟩)

theorem takes_getter (hg : g ∈ m.getters) : m.Takes g.inputs where
  fields _ hf := List.mem_append_right _ (List.mem_flatMap.2 ⟨g, hg, List.mem_append_left _ hf⟩)
  struct _ hs := List.mem_append_right _
    (List.mem_flatMap.2 ⟨g, hg, List.mem_append_left _ (Option.mem_toList.2 hs)⟩)
  argument _ hname :=
    List.mem_append_right _ (List.mem_flatMap.2 ⟨g, hg, Option.mem_toList.2 hname⟩)

theorem has_outputs (hg : g ∈ m.getters) : m.Has g.outputs where
  fields _ hf := List.mem_append_right _ (List.mem_flatMap.2 ⟨g, hg, List.mem_append_right _ hf⟩)
  struct _ hs := List.mem_append_right _
    (List.mem_flatMap.2 ⟨g, hg, List.mem_append_right _ (Option.mem_toList.2 hs)⟩)

/-- Every struct of a module is the one of a shape that the module has. -/
theorem has_of_struct (hs : s ∈ m.structs) : m.Has (.struct s) := by
  have hshape {shape : Shape} (hhas : m.Has shape) (h : shape.struct? = some s) :
      m.Has (.struct s) := by
    cases shape with
    | none | single => cases h
    | struct =>
      obtain rfl := Option.some.inj h
      exact hhas
  simp only [structs, List.mem_append, List.mem_cons, List.mem_filterMap, List.mem_flatMap,
    Option.mem_toList, List.not_mem_nil, or_false] at hs
  obtain ((rfl | rfl) | ⟨b, hb, hs⟩) | ⟨g, hg, hs | hs⟩ := hs
  · exact has_init
  · exact has_state
  · exact hshape (takes_function hb).toHas hs
  · exact hshape (takes_getter hg).toHas hs
  · exact hshape (has_outputs hg) hs

theorem Takes.ident {inputs : Shape} (h : m.Takes inputs) (hf : f ∈ inputs.fields) :
    f.ident ∈ m.names := by
  cases inputs with
  | none => cases hf
  | single field =>
    obtain rfl := List.mem_singleton.1 hf
    exact mem_names_of_argument (h.argument _ rfl)
  | struct s => exact mem_names_of_field (h.struct s rfl) hf

end

/-! ## Every mention is an import in use or a text of the schema -/

section
variable {text name : String} {f : Field} {s : Struct} {b : FunctionBinding} {g : GetterBinding}

theorem mentions_of_raw (h : text ∈ m.rawTexts) : ∀ name ∈ importsIn text, m.Mentions name :=
  fun _ hname => .inr ⟨text, h, hname⟩

theorem mentions_of_name (h : text ∈ m.names) : ∀ name ∈ importsIn text, m.Mentions name :=
  mentions_of_raw (by
    simp only [rawTexts, List.append_assoc]
    exact List.mem_append_left _ h)

theorem mentions_of_common (h : name ∈ commonNames) : m.Mentions name :=
  .inl (mem_importedNames_of_common h)

theorem mem_importedNames_of_words (hf : f ∈ m.fields) (h : name ∈ f.words.filter isImported) :
    name ∈ m.importedNames := by
  obtain ⟨hword, himported⟩ := List.mem_filter.1 h
  refine List.mem_filter.2 ⟨?_, himported⟩
  rw [usedNames]
  exact List.mem_append_right _ (List.mem_flatMap.2 ⟨f, hf, hword⟩)

theorem mem_importedNames_of_function (hb : b ∈ m.functions) : ∀ name ∈
    ["SendMode", "InternalMessage", "ExternalHeader", "SignedBody", "ExternalBodyRequest"],
      name ∈ m.importedNames := by
  intro name hname
  have hall : ∀ name ∈ ["SendMode", "InternalMessage", "ExternalHeader", "SignedBody",
      "ExternalBodyRequest"], isImported name = true := by decide
  refine List.mem_filter.2 ⟨?_, hall name hname⟩
  simp only [usedNames, List.mem_append]
  exact .inl (.inl (.inr (List.mem_flatMap.2 ⟨b, hb, hname⟩)))

/-- The names in the calls of a getter. -/
theorem mem_importedNames_of_getter (hg : g ∈ m.getters) : ∀ name ∈
    (if g.inputs = .none then ["Vec"] else []) ++ g.inputs.fields.map (fun _ => "encode_arg") ++
      g.outputs.fields.map (fun _ => "decode_arg"), name ∈ m.importedNames := by
  intro name hname
  refine List.mem_filter.2 ⟨?_, ?_⟩
  · simp only [usedNames, List.mem_append]
    refine .inl (.inr (List.mem_flatMap.2 ⟨g, hg, ?_⟩))
    simpa only [List.mem_append] using hname
  · simp only [List.mem_append, List.mem_map] at hname
    obtain (hname | ⟨f, -, rfl⟩) | ⟨f, -, rfl⟩ := hname
    · split at hname
      · obtain rfl := List.mem_singleton.1 hname
        decide
      · cases hname
    · decide
    · decide

theorem mentions_of_expression (hf : f ∈ m.fields) (hnative : f.IsNative) :
    ∀ name ∈ importsIn f.param.expression, m.Mentions name := by
  intro name hname
  obtain rfl | hname := List.mem_cons.1 (f.param.importsIn_expression_subset hname)
  · refine .inl (mem_importedNames_of_words hf ?_)
    rw [Field.filter_words hnative]
    exact List.mem_cons_self
  · obtain ⟨text, htext, hname⟩ := List.mem_flatMap.1 hname
    exact .inr ⟨text, List.mem_append_right _ (List.mem_flatMap.2 ⟨f, hf, htext⟩), hname⟩

theorem mentions_of_type (hf : f ∈ m.fields) (hnative : f.IsNative) :
    ∀ name ∈ importsIn f.type, m.Mentions name := by
  refine fun name hname => .inl (mem_importedNames_of_words hf ?_)
  rw [Field.filter_words hnative]
  exact List.mem_cons_of_mem _ hname

theorem Takes.mentions_passed {inputs : Shape} (h : m.Takes inputs) :
    ∀ name ∈ passedImports inputs, m.Mentions name := by
  cases inputs with
  | none => exact nofun
  | single f =>
    rw [passedImports, forwarded?, Option.toList_some, List.flatMap_singleton]
    exact mentions_of_name (h.ident List.mem_cons_self)
  | struct s =>
    rw [passedImports, forwarded?, Option.toList_some, List.flatMap_singleton,
      importsIn_fixed [] rfl]
    exact nofun

theorem mentions_of_deploy (h : m.hasConstructor = false) :
    ∀ name ∈ importsOf deployMethod, m.Mentions name := by
  have hused : "InternalMessage" ∈ m.importedNames := by
    refine List.mem_filter.2 ⟨?_, by decide⟩
    simp only [usedNames, h, List.mem_append]
    exact .inl (.inl (.inl (.inr List.mem_cons_self)))
  rw [importsOf_deployMethod]
  simp only [List.forall_mem_cons]
  exact ⟨mentions_of_common (by decide), mentions_of_common (by decide), .inl hused,
    List.forall_mem_nil _⟩

variable (hnative : ∀ f ∈ m.fields, f.IsNative)
include hnative

theorem mentions_of_struct (hs : s ∈ m.structs) :
    ∀ name ∈ importsOf (Render.struct s), m.Mentions name := by
  have hfields := (has_of_struct hs).fields
  rw [importsOf_struct]
  simp only [List.forall_mem_append, List.forall_mem_flatMap]
  exact ⟨mentions_of_name (mem_names_of_struct hs), fun f hf =>
    ⟨mentions_of_name (mem_names_of_field hs hf),
      mentions_of_type (hfields f hf) (hnative f (hfields f hf))⟩⟩

theorem mentions_of_bound (hf : f ∈ m.fields) (hident : f.ident ∈ m.names) :
    ∀ name ∈ boundImports f, m.Mentions name := by
  rw [boundImports]
  simp only [List.forall_mem_append]
  exact ⟨mentions_of_expression hf (hnative f hf), mentions_of_name hident⟩

theorem Takes.mentions_args {inputs : Shape} (h : m.Takes inputs) :
    ∀ name ∈ argImports inputs, m.Mentions name := by
  cases inputs with
  | none => exact nofun
  | single f =>
    have hf : f ∈ m.fields := h.fields f List.mem_cons_self
    rw [argImports, inputArgs, List.flatMap_singleton, importsIn_link rfl]
    simp only [List.forall_mem_append]
    exact ⟨mentions_of_name (h.ident List.mem_cons_self), mentions_of_type hf (hnative f hf)⟩
  | struct s =>
    rw [argImports, inputArgs, List.flatMap_singleton, importsIn_before [] rfl rfl,
      List.nil_append]
    exact mentions_of_name (mem_names_of_struct (h.struct s rfl))

theorem Takes.mentions_bound {inputs : Shape} (h : m.Takes inputs) :
    ∀ name ∈ inputs.fields.flatMap boundImports, m.Mentions name := by
  simp only [List.forall_mem_flatMap]
  exact fun f hf => mentions_of_bound hnative (h.fields f hf) (h.ident hf)

theorem mentions_of_create : ∀ name ∈ importsOf (createMethod m), m.Mentions name := by
  have hinit : m.init ∈ m.structs := has_init.struct _ rfl
  rw [importsOf_createMethod]
  simp only [List.forall_mem_cons, List.forall_mem_append, List.forall_mem_flatMap]
  exact ⟨mentions_of_common (by decide), mentions_of_name (mem_names_of_struct hinit),
    mentions_of_common (by decide), mentions_of_common (by decide),
    mentions_of_common (by decide),
    fun f hf => mentions_of_bound hnative (has_init.fields f hf) (mem_names_of_field hinit hf),
    mentions_of_common (by decide), mentions_of_common (by decide), nofun⟩

theorem mentions_of_state : ∀ name ∈ importsOf (stateMethod m.state), m.Mentions name := by
  have hstate : m.state ∈ m.structs := has_state.struct _ rfl
  rw [importsOf_stateMethod]
  simp only [List.forall_mem_cons, List.forall_mem_append, List.forall_mem_flatMap]
  exact ⟨mentions_of_common (by decide), mentions_of_common (by decide),
    mentions_of_common (by decide), mentions_of_name (mem_names_of_struct hstate),
    mentions_of_common (by decide), mentions_of_name (mem_names_of_struct hstate),
    fun f hf => ⟨mentions_of_name (mem_names_of_field hstate hf),
      mentions_of_expression (has_state.fields f hf) (hnative f (has_state.fields f hf))⟩⟩

theorem mentions_of_function (hb : b ∈ m.functions) :
    ∀ name ∈ importsOf (functionMethods b), m.Mentions name := by
  have htakes : m.Takes b.inputs := takes_function hb
  have hargs := htakes.mentions_args hnative
  have hpassed := htakes.mentions_passed
  have hbound := htakes.mentions_bound hnative
  have habi : ∀ name ∈ importsIn (Text.quoted b.abiName), m.Mentions name :=
    mentions_of_raw (by
      simp only [rawTexts, List.mem_append]
      exact .inl (.inl (.inr (List.mem_map_of_mem hb))))
  have hmethods := mem_methodNames_of_function hb
  have hused := mem_importedNames_of_function hb
  simp only [List.forall_mem_cons] at hmethods hused
  obtain ⟨hbody, hsend, hbodyExternal, hsendExternal, -⟩ := hmethods
  obtain ⟨hmode, hmessage, hheader, hsigned, hrequest, -⟩ := hused
  have hcommon : ∀ name ∈ commonNames, m.Mentions name := fun _ => mentions_of_common
  simp only [commonNames, List.forall_mem_cons] at hcommon
  obtain ⟨-, hoption, -, hresult, hcodec, hcell, hjson, -, hprovider, -⟩ := hcommon
  rw [importsOf_functionMethods, importsOf_bodyMethod, importsOf_sendMethod,
    importsOf_bodyExternalMethod, importsOf_sendExternalMethod]
  simp only [List.forall_mem_cons, List.forall_mem_append]
  refine ⟨⟨?_, hcodec, hargs, hresult, hcell, hjson, hbound, habi⟩,
    ⟨?_, hprovider, hcodec, hargs, hoption, hoption, .inl hmode, hresult, ?_, hpassed,
      .inl hmessage, List.forall_mem_nil _⟩,
    ⟨?_, hcodec, .inl hheader, hargs, hresult, .inl hsigned, hjson, hbound, .inl hrequest, habi⟩,
    ?_, hprovider, hcodec, .inl hheader, hargs, hresult, ?_, hpassed⟩
  · exact mentions_of_name (mem_names_of_method hbody)
  · exact mentions_of_name (mem_names_of_method hsend)
  · exact mentions_of_name (mem_names_of_method hbody)
  · exact mentions_of_name (mem_names_of_method hbodyExternal)
  · exact mentions_of_name (mem_names_of_method hsendExternal)
  · exact mentions_of_name (mem_names_of_method hbodyExternal)

theorem mentions_of_outputs (hg : g ∈ m.getters) :
    (∀ name ∈ importsIn (resultType g.outputs), m.Mentions name) ∧
      ∀ name ∈ outputImports g.outputs, m.Mentions name := by
  have hhas : m.Has g.outputs := has_outputs hg
  have hdecoding {f : Field} (hf : f ∈ g.outputs.fields) :
      ∀ name ∈ importsIn (decoding f), m.Mentions name := by
    have hused : "decode_arg" ∈ m.importedNames := mem_importedNames_of_getter hg _
      (List.mem_append_right _ (List.mem_map.2 ⟨f, hf, rfl⟩))
    rw [importsIn_decoding, List.forall_mem_cons]
    exact ⟨.inl hused,
      mentions_of_expression (hhas.fields f hf) (hnative f (hhas.fields f hf))⟩
  cases houtputs : g.outputs with
  | none =>
    rw [resultType, importsIn_fixed [] rfl]
    exact ⟨nofun, nofun⟩
  | single f =>
    rw [houtputs] at hhas hdecoding
    have hf : f ∈ m.fields := hhas.fields f List.mem_cons_self
    exact ⟨mentions_of_type hf (hnative f hf), hdecoding List.mem_cons_self⟩
  | struct s =>
    rw [houtputs] at hhas hdecoding
    have hs : s ∈ m.structs := hhas.struct s rfl
    have hname := mentions_of_name (mem_names_of_struct hs)
    rw [resultType, outputImports]
    simp only [List.forall_mem_append, List.forall_mem_flatMap]
    exact ⟨hname, hname, fun f hf => ⟨mentions_of_name (mem_names_of_field hs hf), hdecoding hf⟩⟩

theorem mentions_of_getter (hg : g ∈ m.getters) :
    ∀ name ∈ importsOf (getterMethod g), m.Mentions name := by
  have htakes : m.Takes g.inputs := takes_getter hg
  have hargs := htakes.mentions_args hnative
  have hbound := htakes.mentions_bound hnative
  obtain ⟨hresult, houtputs⟩ := mentions_of_outputs hnative hg
  have habi : ∀ name ∈ importsIn (Text.quoted g.abiName), m.Mentions name :=
    mentions_of_raw (by
      simp only [rawTexts, List.mem_append]
      exact .inl (.inr (List.mem_map_of_mem hg)))
  have hused := mem_importedNames_of_getter hg
  simp only [List.forall_mem_append, List.forall_mem_map] at hused
  obtain ⟨⟨hvec, hencode⟩, -⟩ := hused
  rw [importsOf_getterMethod, importsOf_getterArgs]
  simp only [List.forall_mem_cons, List.forall_mem_append, List.forall_mem_flatMap]
  simp only [List.forall_mem_flatMap] at hbound
  exact ⟨mentions_of_name (mem_names_of_method (mem_methodNames_of_getter hg)),
    mentions_of_common (by decide), mentions_of_common (by decide), hargs,
    mentions_of_common (by decide), hresult,
    ⟨fun name hname => .inl (hvec name hname), fun f hf => ⟨.inl (hencode f hf), hbound f hf⟩⟩,
    habi, houtputs⟩

theorem mentions_of_implementation : ∀ name ∈ importsOf (implementation m), m.Mentions name := by
  have hpath : ∀ name ∈ importsIn (Text.quoted m.contractPath), m.Mentions name :=
    mentions_of_raw (by simp [rawTexts])
  have hdeploy : ∀ name ∈ (if m.hasConstructor then [] else importsOf deployMethod),
      m.Mentions name := by
    cases h : m.hasConstructor with
    | true => exact nofun
    | false => exact mentions_of_deploy h
  rw [importsOf_implementation]
  simp only [List.forall_mem_cons, List.forall_mem_append, List.forall_mem_flatMap]
  exact ⟨hpath, mentions_of_common (by decide), mentions_of_create hnative, hdeploy,
    mentions_of_state hnative, fun b hb => mentions_of_function hnative hb,
    fun g hg => mentions_of_getter hnative hg⟩

theorem mentions_of_toText : ∀ name ∈ importsIn m.toText, m.Mentions name := by
  have hcontract : m.contract ∈ m.names := by
    rw [names, List.cons_append, List.cons_append, List.cons_append]
    exact List.mem_cons_self
  rw [toText, importsIn_toText, importsOf_moduleSource]
  simp only [List.forall_mem_cons, List.forall_mem_append, List.forall_mem_flatMap]
  exact ⟨mentions_of_raw (by simp [rawTexts]), fun s hs => mentions_of_struct hnative hs,
    mentions_of_raw (by simp [rawTexts]), mentions_of_name hcontract,
    mentions_of_common (by decide), mentions_of_common (by decide), mentions_of_common (by decide),
    mentions_of_name hcontract, mentions_of_implementation hnative⟩

end

/-! ## Every import in use is mentioned -/

section
variable {name : String} {f : Field} {s : Struct} {b : FunctionBinding} {g : GetterBinding}

theorem mem_toText_of_source (h : name ∈ importsOf (moduleSource m)) :
    name ∈ importsIn m.toText := by
  rwa [toText, importsIn_toText]

theorem mem_toText_of_struct (hs : s ∈ m.structs) (h : name ∈ importsOf (Render.struct s)) :
    name ∈ importsIn m.toText := by
  refine mem_toText_of_source ?_
  rw [importsOf_moduleSource]
  exact List.mem_append_right _ (List.mem_append_left _ (List.mem_flatMap.2 ⟨s, hs, h⟩))

theorem mem_toText_of_implementation (h : name ∈ importsOf (implementation m)) :
    name ∈ importsIn m.toText := by
  refine mem_toText_of_source ?_
  rw [importsOf_moduleSource]
  simp only [List.mem_append, List.mem_cons, h, or_true]

theorem mem_toText_of_create (h : name ∈ importsOf (createMethod m)) :
    name ∈ importsIn m.toText := by
  refine mem_toText_of_implementation ?_
  rw [importsOf_implementation]
  simp only [List.mem_append, List.mem_cons, h, true_or, or_true]

theorem mem_toText_of_state (h : name ∈ importsOf (stateMethod m.state)) :
    name ∈ importsIn m.toText := by
  refine mem_toText_of_implementation ?_
  rw [importsOf_implementation]
  simp only [List.mem_append, List.mem_cons, h, true_or, or_true]

theorem mem_toText_of_function (hb : b ∈ m.functions) (h : name ∈ importsOf (functionMethods b)) :
    name ∈ importsIn m.toText := by
  have hfunctions : name ∈ m.functions.flatMap fun b => importsOf (functionMethods b) :=
    List.mem_flatMap.2 ⟨b, hb, h⟩
  refine mem_toText_of_implementation ?_
  rw [importsOf_implementation]
  simp only [List.mem_append, List.mem_cons, hfunctions, true_or, or_true]

theorem mem_toText_of_getter (hg : g ∈ m.getters) (h : name ∈ importsOf (getterMethod g)) :
    name ∈ importsIn m.toText := by
  have hgetters : name ∈ m.getters.flatMap fun g => importsOf (getterMethod g) :=
    List.mem_flatMap.2 ⟨g, hg, h⟩
  refine mem_toText_of_implementation ?_
  rw [importsOf_implementation]
  simp only [List.mem_append, List.mem_cons, hgetters, or_true]

/-- The type of a field is mentioned with its struct, or else where the field stands alone. -/
theorem Has.mem_toText_of_type {shape : Shape} (hhas : m.Has shape) (hf : f ∈ shape.fields)
    (h : name ∈ importsIn f.type) (halone : shape = .single f → name ∈ importsIn m.toText) :
    name ∈ importsIn m.toText := by
  cases shape with
  | none => cases hf
  | single field =>
    obtain rfl := List.mem_singleton.1 hf
    exact halone rfl
  | struct s =>
    refine mem_toText_of_struct (hhas.struct s rfl) ?_
    rw [importsOf_struct]
    exact List.mem_append_right _ (List.mem_flatMap.2 ⟨f, hf, List.mem_append_right _ h⟩)

theorem mem_argImports (h : name ∈ importsIn f.type) : name ∈ argImports (.single f) := by
  rw [argImports, inputArgs, List.flatMap_singleton, importsIn_link rfl]
  exact List.mem_append_right _ h

theorem mem_boundImports (f : Field) : "AbiParam" ∈ boundImports f :=
  List.mem_append_left _ f.param.mem_importsIn_expression

theorem mem_toText_of_init (hf : f ∈ m.init.fields) :
    "AbiParam" ∈ importsIn m.toText ∧ importsIn f.type ⊆ importsIn m.toText := by
  have hbound : "AbiParam" ∈ m.init.fields.flatMap boundImports :=
    List.mem_flatMap.2 ⟨f, hf, mem_boundImports f⟩
  refine ⟨mem_toText_of_create ?_,
    fun name h => has_init.mem_toText_of_type hf h fun halone => by cases halone⟩
  rw [importsOf_createMethod]
  simp only [List.mem_append, List.mem_cons, hbound, true_or, or_true]

theorem mem_toText_of_stateField (hf : f ∈ m.state.fields) :
    "AbiParam" ∈ importsIn m.toText ∧ importsIn f.type ⊆ importsIn m.toText := by
  refine ⟨mem_toText_of_state ?_,
    fun name h => has_state.mem_toText_of_type hf h fun halone => by cases halone⟩
  rw [importsOf_stateMethod]
  simp only [List.mem_append, List.mem_cons, List.mem_flatMap]
  exact .inr (.inr (.inr (.inr (.inr (.inr ⟨f, hf, .inr f.param.mem_importsIn_expression⟩)))))

theorem mem_toText_of_functionInput (hb : b ∈ m.functions) (hf : f ∈ b.inputs.fields) :
    "AbiParam" ∈ importsIn m.toText ∧ importsIn f.type ⊆ importsIn m.toText := by
  have hbound : "AbiParam" ∈ b.inputs.fields.flatMap boundImports :=
    List.mem_flatMap.2 ⟨f, hf, mem_boundImports f⟩
  have hbody {name : String} (h : name ∈ importsOf (bodyMethod b)) : name ∈ importsIn m.toText := by
    refine mem_toText_of_function hb ?_
    rw [importsOf_functionMethods]
    exact List.mem_append_left _ h
  refine ⟨hbody ?_,
    fun name h => (takes_function hb).mem_toText_of_type hf h fun halone => hbody ?_⟩
  · rw [importsOf_bodyMethod]
    simp only [List.mem_append, List.mem_cons, hbound, true_or, or_true]
  · rw [importsOf_bodyMethod, halone]
    simp only [List.mem_append, List.mem_cons, mem_argImports h, true_or, or_true]

theorem mem_toText_of_getterInput (hg : g ∈ m.getters) (hf : f ∈ g.inputs.fields) :
    ("AbiParam" ∈ importsIn m.toText ∧ importsIn f.type ⊆ importsIn m.toText) ∧
      "encode_arg" ∈ importsIn m.toText := by
  have hgetter {name : String} (h : name ∈ importsOf (getterArgs g.inputs)) :
      name ∈ importsIn m.toText := by
    refine mem_toText_of_getter hg ?_
    rw [importsOf_getterMethod]
    simp only [List.mem_append, List.mem_cons, h, true_or, or_true]
  have hencode {name : String} (h : name ∈ "encode_arg" :: boundImports f) :
      name ∈ importsIn m.toText := by
    refine hgetter ?_
    rw [importsOf_getterArgs]
    exact List.mem_append_right _ (List.mem_flatMap.2 ⟨f, hf, h⟩)
  refine ⟨⟨hencode (List.mem_cons_of_mem _ (mem_boundImports f)), fun name h =>
    (takes_getter hg).mem_toText_of_type hf h fun halone => mem_toText_of_getter hg ?_⟩,
    hencode List.mem_cons_self⟩
  rw [importsOf_getterMethod, halone]
  simp only [List.mem_append, List.mem_cons, mem_argImports h, true_or, or_true]

theorem mem_outputImports {outputs : Shape} (hf : f ∈ outputs.fields)
    (h : name ∈ importsIn (decoding f)) : name ∈ outputImports outputs := by
  cases outputs with
  | none => cases hf
  | single field =>
    obtain rfl := List.mem_singleton.1 hf
    exact h
  | struct s =>
    exact List.mem_append_right _ (List.mem_flatMap.2 ⟨f, hf, List.mem_append_right _ h⟩)

theorem mem_toText_of_getterOutput (hg : g ∈ m.getters) (hf : f ∈ g.outputs.fields) :
    ("AbiParam" ∈ importsIn m.toText ∧ importsIn f.type ⊆ importsIn m.toText) ∧
      "decode_arg" ∈ importsIn m.toText := by
  have hdecode {name : String} (h : name ∈ "decode_arg" :: importsIn f.param.expression) :
      name ∈ importsIn m.toText := by
    rw [← importsIn_decoding] at h
    refine mem_toText_of_getter hg ?_
    rw [importsOf_getterMethod]
    simp only [List.mem_append, List.mem_cons, mem_outputImports hf h, or_true]
  refine ⟨⟨hdecode (List.mem_cons_of_mem _ f.param.mem_importsIn_expression), fun name h =>
    (has_outputs hg).mem_toText_of_type hf h fun halone => mem_toText_of_getter hg ?_⟩,
    hdecode List.mem_cons_self⟩
  rw [importsOf_getterMethod, halone, resultType]
  simp only [List.mem_append, List.mem_cons, h, true_or, or_true]

theorem mem_toText_of_field (h : f ∈ m.fields) :
    "AbiParam" ∈ importsIn m.toText ∧ importsIn f.type ⊆ importsIn m.toText := by
  simp only [fields, List.mem_append, List.mem_flatMap] at h
  obtain ((hf | hf) | ⟨b, hb, hf⟩) | ⟨g, hg, hf | hf⟩ := h
  · exact mem_toText_of_init hf
  · exact mem_toText_of_stateField hf
  · exact mem_toText_of_functionInput hb hf
  · exact (mem_toText_of_getterInput hg hf).1
  · exact (mem_toText_of_getterOutput hg hf).1

theorem mem_toText_of_common : ∀ name ∈ commonNames, name ∈ importsIn m.toText := by
  simp only [commonNames, List.forall_mem_cons]
  refine ⟨mem_toText_of_source ?_, mem_toText_of_source ?_, mem_toText_of_source ?_,
    mem_toText_of_create ?_, mem_toText_of_create ?_, mem_toText_of_create ?_,
    mem_toText_of_create ?_, mem_toText_of_create ?_, mem_toText_of_state ?_,
    mem_toText_of_state ?_, List.forall_mem_nil _⟩
  all_goals
    simp only [importsOf_moduleSource, importsOf_createMethod, importsOf_stateMethod,
      List.mem_append, List.mem_cons, true_or, or_true]

/-- The names that go with every function, wherever its inputs come from. -/
theorem mem_toText_of_functions (hb : b ∈ m.functions) : ∀ name ∈
    ["SendMode", "InternalMessage", "ExternalHeader", "SignedBody", "ExternalBodyRequest"],
      name ∈ importsIn m.toText := by
  simp only [List.forall_mem_cons]
  refine ⟨mem_toText_of_function hb ?_, mem_toText_of_function hb ?_, mem_toText_of_function hb ?_,
    mem_toText_of_function hb ?_, mem_toText_of_function hb ?_, List.forall_mem_nil _⟩
  all_goals
    simp only [importsOf_functionMethods, importsOf_sendMethod, importsOf_bodyExternalMethod,
      List.mem_append, List.mem_cons, true_or, or_true]

theorem mem_toText_of_deploy (h : m.hasConstructor = false) :
    "InternalMessage" ∈ importsIn m.toText := by
  refine mem_toText_of_implementation ?_
  rw [importsOf_implementation, h, importsOf_deployMethod]
  simp only [List.mem_append, List.mem_cons, Bool.false_eq_true, if_false, true_or, or_true]

theorem mem_toText_of_emptyArgs (hg : g ∈ m.getters) (h : g.inputs = .none) :
    "Vec" ∈ importsIn m.toText := by
  refine mem_toText_of_getter hg ?_
  rw [importsOf_getterMethod, importsOf_getterArgs, if_pos h]
  simp only [List.mem_append, List.mem_cons, true_or, or_true]

theorem importedNames_subset (hnative : ∀ f ∈ m.fields, f.IsNative) :
    m.importedNames ⊆ importsIn m.toText := by
  intro name h
  obtain ⟨hused, himported⟩ := List.mem_filter.1 h
  simp only [usedNames, List.mem_append, List.mem_flatMap, List.mem_map] at hused
  obtain (((hcommon | hdeploy) | ⟨b, hb, hname⟩) | ⟨g, hg, (hvec | ⟨f, hf, rfl⟩) | ⟨f, hf, rfl⟩⟩) |
    ⟨f, hf, hword⟩ := hused
  · exact mem_toText_of_common name hcommon
  · split at hdeploy
    · cases hdeploy
    · next hconstructor =>
      obtain rfl := List.mem_singleton.1 hdeploy
      exact mem_toText_of_deploy (Bool.eq_false_iff.2 hconstructor)
  · exact mem_toText_of_functions hb name hname
  · split at hvec
    · next hinputs =>
      obtain rfl := List.mem_singleton.1 hvec
      exact mem_toText_of_emptyArgs hg hinputs
    · cases hvec
  · exact (mem_toText_of_getterInput hg hf).2
  · exact (mem_toText_of_getterOutput hg hf).2
  · have hname : name ∈ f.words.filter isImported := List.mem_filter.2 ⟨hword, himported⟩
    obtain ⟨hparam, htype⟩ := mem_toText_of_field hf
    rw [Field.filter_words (hnative f hf)] at hname
    obtain rfl | hname := List.mem_cons.1 hname
    · exact hparam
    · exact htype hname

end

/-! ## Imports in use -/

/-- The text of a module mentions the names that it uses from its imports, and no other imported
name but those in the texts that it takes from its schema. -/
theorem importedNames_toText (hm : ofContract runtimeCrate contract c = .ok m) :
    m.importedNames ⊆ importsIn m.toText ∧
      ∀ name ∈ importsIn m.toText, name ∈ m.importedNames ∨
        ∃ text ∈ m.rawTexts, name ∈ importsIn text :=
  have hnative := isNative_ofValid (ofContract_eq_ok hm).2
  ⟨importedNames_subset hnative, mentions_of_toText hnative⟩

end BindingModule

end CellAbi
