import CellAbi.Proofs.AbiType.NormalForm
import CellAbi.Proofs.Value.RoundTrip
import CellAbi.Proofs.Wire.Alignment

/-!
# What the codec service is asked

Encoding asks the service about the composite values that stand below optionals and tuples alone, in
order (`composites`).  Decoding asks it about what the item says (`consulted`).  For an item that a
value is encoded into these are the same names and types, so that the service is asked to decode
under the parameters that it encoded under.

    encode … (s, calls) = .ok item (s', calls') →
      ∃ asked, calls' = calls ++ asked ∧ Asked name type v item asked          (`asked_of_encode`)
    decode … ((t, calls), item :: rest) = .ok w ((t', calls'), left) →
      ∃ answered, calls' = calls ++ answered ∧
        Forall₂ Answers (consulted name type item) answered                 (`answered_of_decode`)
-/

namespace CellAbi

open Outcome

/-! ## Composite values -/

/-- The types whose values go through the service. -/
def AbiType.isComposite : AbiType → Bool
  | .string | .bytes _ | .array _ | .map _ _ => true
  | _ => false

/-- The parameter of a call that is about a value. -/
def Codec.Call.param? : Codec.Call → Option Param
  | .encode p _ | .decode p _ => some p
  | .decodeState _ _ => none

/-- What a service reads back does not depend on whether its calls are kept. -/
theorem Codec.Inverse.recording {σ : Type} {codec : Codec σ} (h : codec.Inverse) :
    codec.recording.Inverse where
  decode_encode hp hcell := h.decode_encode hp hcell
  decode_counted hp hcount hcell := h.decode_counted hp hcount hcell

namespace Wire

open Value

variable {σ : Type} {codec : Codec σ} {name : String} {type U : AbiType} {v w : Value}
  {item : Item} {components : List (String × AbiType)}

mutual

/-- The composite values in a value that stand below optionals and tuples alone, in order. -/
def composites (name : String) : AbiType → Value → List Argument
  | .optional inner, v => if v.isNull then [] else composites name inner v
  | .tuple components, v => compositeFields components v
  | type, v => if type.isComposite then [⟨name, type, v⟩] else []

/-- The same of the fields that the components name, in their order. -/
def compositeFields : List (String × AbiType) → Value → List Argument
  | [], _ => []
  | (name, type) :: rest, v =>
    (match v.field? name with
      | none => []
      | some w => composites name type w) ++ compositeFields rest v

end

mutual

/-- The names and types of composite values that an item says that it holds, in order. -/
def consulted (name : String) : AbiType → Item → List (String × AbiType)
  | .optional _, .null => []
  | .optional inner, item => consulted name inner item
  | .tuple components, .tuple items => consultedFields components items
  | type, _ => if type.isComposite then [(name, type)] else []

/-- The same of the items of a tuple, one for every component. -/
def consultedFields : List (String × AbiType) → List Item → List (String × AbiType)
  | (name, type) :: rest, item :: items => consulted name type item ++ consultedFields rest items
  | _, _ => []

end

theorem composites_of_isComposite (h : type.isComposite = true) :
    composites name type v = [⟨name, type, v⟩] := by
  cases type with
  | string | bytes | array | map => simp only [composites, h, if_true]
  | _ => cases h

theorem consulted_of_isComposite (h : type.isComposite = true) :
    consulted name type item = [(name, type)] := by
  cases type with
  | string | bytes | array | map => simp only [consulted, h, if_true]
  | _ => cases h

theorem composites_present {inner : AbiType} (hne : v ≠ null) :
    composites name (.optional inner) v = composites name inner v := by
  rw [composites, if_neg fun h => hne (isNull_iff.1 h)]

theorem consulted_present {inner : AbiType} (hne : item ≠ .null) :
    consulted name (.optional inner) item = consulted name inner item := by
  rw [consulted]
  exact hne

theorem mem_compositeFields {a : Argument} :
    a ∈ compositeFields components v ↔
      ∃ c ∈ components, ∃ w, v.field? c.1 = some w ∧ a ∈ composites c.1 c.2 w := by
  induction components with
  | nil => simp [compositeFields]
  | cons c rest ih =>
    cases c with
    | mk name type =>
      rw [compositeFields, List.mem_append, ih]
      cases hfield : v.field? name <;> simp [hfield]

/-! ### Composite values stand in the value directly -/

theorem direct_of_mem_composites (hlegal : type.Legal) : ∀ {name v} {a : Argument},
    a ∈ composites name type v → a.type.isComposite = true ∧ Direct a.type a.value type v := by
  have hcomposite : ∀ {type name v} {a : Argument}, type.isComposite = true →
      a ∈ composites name type v → a.type.isComposite = true ∧ Direct a.type a.value type v := by
    intro type name v a h ha
    rw [composites_of_isComposite h, List.mem_singleton] at ha
    rw [ha]
    exact ⟨h, .self⟩
  induction hlegal with
  | integer | bool | cell | address =>
    intro name v a ha
    simp [composites, AbiType.isComposite] at ha
  | string | bytes | array | map => exact hcomposite rfl
  | optional _ ih =>
    intro name v a ha
    by_cases hne : v = null
    · rw [hne] at ha
      cases ha
    · rw [composites_present hne] at ha
      exact ⟨(ih ha).1, .inner hne (ih ha).2⟩
  | tuple _ _ ih =>
    intro name v a ha
    rw [composites, mem_compositeFields] at ha
    obtain ⟨c, hc, w, hfield, ha⟩ := ha
    cases v with
    | tuple fields => exact ⟨(ih c hc ha).1, .field hc hfield (ih c hc ha).2⟩
    | _ => cases hfield

theorem exists_mem_composites (hU : U.isComposite = true) (h : Direct U w type v) :
    ∀ name, ∃ a ∈ composites name type v, a.type = U ∧ a.value = w := by
  induction h with
  | self =>
    intro name
    rw [composites_of_isComposite hU]
    exact ⟨_, List.mem_singleton_self _, rfl, rfl⟩
  | inner hne _ ih =>
    intro name
    rw [composites_present hne]
    exact ih name
  | field hc hfield _ ih =>
    intro name
    obtain ⟨a, ha, hvalue⟩ := ih _
    exact ⟨a, by rw [composites]; exact mem_compositeFields.2 ⟨_, hc, _, hfield, ha⟩, hvalue⟩

/-! ## Calls -/

/-- The parameter that the service gets for the argument. -/
def Argument.param (a : Argument) : Param := a.type.toParam a.name

/-- The call hands the JSON form of the value to the service. -/
def Asks (a : Argument) (call : Codec.Call) : Prop :=
  ∃ json, a.value.toJson = .ok json ∧ call = .encode a.param json

/-- The call has the service decode a cell as a value of the name and type. -/
def Answers (p : String × AbiType) (call : Codec.Call) : Prop :=
  ∃ c, call = .decode (p.2.toParam p.1) c

/-! ### Encoding -/

/-- The calls are about the composite values, in order, and the item says that it holds just
these. -/
structure Asked (name : String) (type : AbiType) (v : Value) (item : Item)
    (asked : List Codec.Call) : Prop where
  null : item = .null → v = .null
  calls : List.Forall₂ Asks (composites name type v) asked
  consulted : consulted name type item = (composites name type v).map fun a => (a.name, a.type)

section
variable {s s' : σ} {calls calls' : List Codec.Call}

theorem asked_nothing (hnull : item = .null → v = .null) (hv : composites name type v = [])
    (hitem : consulted name type item = []) :
    ∃ asked, calls = calls ++ asked ∧ Asked name type v item asked :=
  ⟨[], (List.append_nil calls).symm, hnull, hv ▸ .nil, by rw [hv, hitem]; rfl⟩

/-- A composite value is encoded with one call, which is about it. -/
theorem asked_composite {c : Cell} (htype : type.isComposite = true) (hitem : item ≠ .null)
    (h : (encodeCell codec.recording name type v).run (s, calls) = .ok c (s', calls')) :
    ∃ asked, calls' = calls ++ asked ∧ Asked name type v item asked := by
  obtain ⟨_, _, hconforms, h⟩ := run_bind.1 h
  obtain ⟨-, rfl⟩ := run_ofExcept.1 hconforms
  obtain ⟨json, _, hwrite, h⟩ := run_bind.1 h
  obtain ⟨hjson, rfl⟩ := run_ofExcept.1 hwrite
  have hcalls : calls ++ [.encode (type.toParam name) json] = calls' :=
    congrArg Prod.snd (run_call.1 h).2
  refine ⟨_, hcalls.symm, fun hn => absurd hn hitem, ?_, ?_⟩
  · rw [composites_of_isComposite htype]
    exact .cons ⟨json, hjson, rfl⟩ .nil
  · rw [composites_of_isComposite htype, consulted_of_isComposite htype]
    rfl

/-- Strings, byte strings and maps travel as the cell of the service alone. -/
theorem asked_cell (htype : type.isComposite = true)
    (h : (do return .cell (← encodeCell codec.recording name type v) : Encode _ Item).run
      (s, calls) = .ok item (s', calls')) :
    ∃ asked, calls' = calls ++ asked ∧ Asked name type v item asked := by
  obtain ⟨c, _, hcell, h⟩ := run_bind.1 h
  cases h
  exact asked_composite htype (by simp) hcell

theorem asked_of_encodeFields {fields : List (String × Value)}
    (h : ∀ name type v, (name, type) ∈ components → (name, v) ∈ fields →
      ∀ {s calls item s' calls'},
        (encode codec.recording name type v).run (s, calls) = .ok item (s', calls') →
          ∃ asked, calls' = calls ++ asked ∧ Asked name type v item asked)
    {items : List Item} {s s' : σ} {calls calls' : List Codec.Call}
    (henc : (encodeFields codec.recording components fields).run (s, calls) =
      .ok items (s', calls')) :
    ∃ asked, calls' = calls ++ asked ∧
      List.Forall₂ Asks (compositeFields components (tuple fields)) asked ∧
      consultedFields components items =
        (compositeFields components (tuple fields)).map fun a => (a.name, a.type) := by
  induction components generalizing s calls items with
  | nil =>
    rw [encodeFields] at henc
    cases henc
    exact ⟨[], (List.append_nil _).symm, .nil, rfl⟩
  | cons c components ih =>
    cases c with
    | mk name type =>
      rw [encodeFields] at henc
      cases hlookup : Sorted.lookup name fields with
      | none =>
        rw [hlookup] at henc
        cases henc
      | some v =>
        rw [hlookup] at henc
        obtain ⟨item, ⟨s₁, calls₁⟩, hitem, henc⟩ := run_bind.1 henc
        obtain ⟨more, _, hmore, henc⟩ := run_bind.1 henc
        cases henc
        obtain ⟨first, rfl, hfirst⟩ :=
          h name type v List.mem_cons_self (Sorted.mem_of_lookup hlookup) hitem
        obtain ⟨others, rfl, hothers, hconsulted⟩ := ih
          (fun name type v hc => h name type v (List.mem_cons_of_mem _ hc)) hmore
        have hfields : compositeFields ((name, type) :: components) (tuple fields) =
            composites name type v ++ compositeFields components (tuple fields) := by
          rw [compositeFields, show (tuple fields).field? name = some v from hlookup]
        refine ⟨first ++ others, List.append_assoc .., ?_, ?_⟩
        · rw [hfields]
          exact List.rel_append hfirst.calls hothers
        · rw [hfields, List.map_append, consultedFields, hfirst.consulted, hconsulted]

/-- By the constructors of proper values. -/
theorem asked_of_encode (h : Proper type v) : ∀ {name s calls item s' calls'},
    (encode codec.recording name type v).run (s, calls) = .ok item (s', calls') →
      ∃ asked, calls' = calls ++ asked ∧ Asked name type v item asked := by
  induction h with
  | absent =>
    intro name s calls item s' calls' henc
    rw [encode] at henc
    cases henc
    exact asked_nothing (fun _ => rfl) rfl (by rw [consulted])
  | present hne h ih =>
    intro name s calls item s' calls' henc
    rw [encode_optional hne] at henc
    obtain ⟨asked, hcalls, hnull, hasked, hconsulted⟩ := ih henc
    refine ⟨asked, hcalls, hnull, ?_, ?_⟩
    · rwa [composites_present hne]
    · rwa [composites_present hne, consulted_present fun hn => hne (hnull hn)]
  | int h =>
    intro name s calls item s' calls' henc
    rw [encode] at henc
    obtain ⟨_, _, hcheck, henc⟩ := run_bind.1 henc
    obtain ⟨-, rfl⟩ := run_ofExcept.1 hcheck
    cases henc
    exact asked_nothing (by simp) rfl rfl
  | bool | cell =>
    intro name s calls item s' calls' henc
    rw [encode] at henc
    cases henc
    exact asked_nothing (by simp) rfl rfl
  | string | bytes | map =>
    intro name s calls item s' calls' henc
    rw [encode] at henc
    exact asked_cell rfl henc
  | noAddress strict =>
    intro name s calls item s' calls' henc
    rw [encode] at henc
    obtain ⟨-, h⟩ := run_ofExcept.1 henc
    cases h
    exact asked_nothing (fun _ => rfl) rfl rfl
  | address h =>
    intro name s calls item s' calls' henc
    rw [encode] at henc
    obtain ⟨_, _, hconforms, henc⟩ := run_bind.1 henc
    obtain ⟨-, rfl⟩ := run_ofExcept.1 hconforms
    obtain ⟨hitem, h⟩ := run_ofExcept.1 henc
    cases h
    obtain ⟨c, rfl, -⟩ := addressItem_eq_ok hitem
    exact asked_nothing (by simp) rfl rfl
  | array h ih =>
    intro name s calls item s' calls' henc
    rw [encode] at henc
    obtain ⟨c, _, hcell, henc⟩ := run_bind.1 henc
    cases henc
    exact asked_composite rfl (by simp) hcell
  | tuple ha hnames h ih =>
    intro name s calls item s' calls' henc
    rw [encode] at henc
    obtain ⟨items, _, hitems, henc⟩ := run_bind.1 henc
    cases henc
    obtain ⟨asked, hcalls, hasked, hconsulted⟩ :=
      asked_of_encodeFields (fun name type v hc hv => ih name type v hc hv) hitems
    exact ⟨asked, hcalls, by simp, by rwa [composites], by rwa [composites, consulted]⟩

end

/-! ### Decoding -/

section
variable {t t' : σ} {calls calls' : List Codec.Call} {items rest : List Item}

theorem run_read {α : Type} {step : ReadItems α} {a : α} {st st' : σ}
    (h : (Decode.read step).run (st, items) = .ok a (st', rest)) :
    st = st' ∧ step.run items = .ok a rest := by
  simp only [EStateM.run, Decode.read] at h
  cases hstep : step items with
  | error e left =>
    rw [hstep] at h
    cases h
  | ok b left =>
    rw [hstep] at h
    cases h
    exact ⟨rfl, hstep⟩

/-- A step that reads items alone makes no calls. -/
theorem run_read_map {α : Type} {step : ReadItems α} {g : α → Value}
    (h : (do return g (← Decode.read step) : Decode _ Value).run ((t, calls), items) =
      .ok w ((t', calls'), rest)) : calls' = calls := by
  obtain ⟨a, ⟨st, left⟩, hread, h⟩ := run_bind.1 h
  obtain ⟨rfl, -⟩ := run_read hread
  cases h
  rfl

theorem answered_nothing (hitem : consulted name type item = []) (h : calls' = calls) :
    ∃ answered, calls' = calls ++ answered ∧
      List.Forall₂ Answers (consulted name type item) answered :=
  ⟨[], by rw [h, List.append_nil], hitem ▸ .nil⟩

/-- A composite value is decoded with one call, which is about it. -/
theorem answered_composite {c : Cell} (htype : type.isComposite = true)
    (h : (decodeCell codec.recording name type c).run ((t, calls), items) =
      .ok w ((t', calls'), rest)) :
    ∃ answered, calls' = calls ++ answered ∧
      List.Forall₂ Answers (consulted name type item) answered := by
  obtain ⟨json, ⟨st, left⟩, hcall, h⟩ := run_bind.1 h
  obtain ⟨-, heq⟩ := run_ofExcept.1 h
  cases heq
  simp only [EStateM.run, Decode.call] at hcall
  split at hcall
  · next json' st hstep =>
    cases hcall
    have hcalls : calls ++ [.decode (type.toParam name) c] = calls' :=
      congrArg Prod.snd (run_call.1 (show EStateM.run _ _ = _ from hstep)).2
    refine ⟨_, hcalls.symm, ?_⟩
    rw [consulted_of_isComposite htype]
    exact .cons ⟨c, rfl⟩ .nil
  · cases hcall

/-- Strings, byte strings and maps travel as the cell of the service alone. -/
theorem answered_cell (htype : type.isComposite = true)
    (h : (do decodeCell codec.recording name type (← Decode.read ReadItems.cell)).run
      ((t, calls), items) = .ok w ((t', calls'), rest)) :
    ∃ answered, calls' = calls ++ answered ∧
      List.Forall₂ Answers (consulted name type item) answered := by
  obtain ⟨c, ⟨st, left⟩, hread, h⟩ := run_bind.1 h
  obtain ⟨rfl, -⟩ := run_read hread
  exact answered_composite htype h

theorem answered_of_decodeFields
    (h : ∀ c ∈ components, ∀ {name t calls item rest w t' calls' left},
      (decode codec.recording name c.2).run ((t, calls), item :: rest) =
        .ok w ((t', calls'), left) →
      ∃ answered, calls' = calls ++ answered ∧
        List.Forall₂ Answers (consulted name c.2 item) answered)
    {t t' : σ} {calls calls' : List Codec.Call} {items rest : List Item}
    {fields : List (String × Value)}
    (hrun : (decodeFields codec.recording components).run ((t, calls), items) =
      .ok fields ((t', calls'), rest)) :
    ∃ answered, calls' = calls ++ answered ∧
      List.Forall₂ Answers (consultedFields components items) answered := by
  induction components generalizing t calls items fields with
  | nil =>
    rw [decodeFields] at hrun
    cases hrun
    exact ⟨[], (List.append_nil _).symm, by simp only [consultedFields]; exact .nil⟩
  | cons c components ih =>
    cases c with
    | mk name type =>
      rw [decodeFields] at hrun
      obtain ⟨v, ⟨⟨t₁, calls₁⟩, left⟩, hv, hrun⟩ := run_bind.1 hrun
      obtain ⟨more, _, hmore, hrun⟩ := run_bind.1 hrun
      cases hrun
      obtain ⟨item, rfl⟩ := (takesFirst_decode codec.recording name type).exists_cons hv
      obtain ⟨first, rfl, hfirst⟩ := h _ List.mem_cons_self hv
      obtain ⟨others, rfl, hothers⟩ := ih (fun c hc => h c (List.mem_cons_of_mem _ hc)) hmore
      refine ⟨first ++ others, List.append_assoc .., ?_⟩
      rw [consultedFields]
      exact List.rel_append hfirst hothers

/-- By the type; the fields of a tuple are decoded from one item each. -/
theorem answered_of_decode (hlegal : type.Legal) : ∀ {name t calls item rest w t' calls' left},
    (decode codec.recording name type).run ((t, calls), item :: rest) = .ok w ((t', calls'), left) →
      ∃ answered, calls' = calls ++ answered ∧
        List.Forall₂ Answers (consulted name type item) answered := by
  induction hlegal with
  | integer | bool | cell =>
    intro name t calls item rest w t' calls' left h
    rw [decode] at h
    exact answered_nothing rfl (run_read_map h)
  | string | bytes | map =>
    intro name t calls item rest w t' calls' left h
    rw [decode] at h
    exact answered_cell rfl h
  | address strict =>
    intro name t calls item rest w t' calls' left h
    rw [decode] at h
    obtain ⟨a, ⟨st, items⟩, hread, h⟩ := run_bind.1 h
    obtain ⟨rfl, -⟩ := run_read hread
    refine answered_nothing rfl ?_
    cases a with
    | none =>
      cases h
      rfl
    | some a =>
      dsimp only at h
      split at h
      · cases h
      · cases h
        rfl
  | array =>
    intro name t calls item rest w t' calls' left h
    rw [decode] at h
    obtain ⟨inner, ⟨st, items⟩, hread, h⟩ := run_bind.1 h
    obtain ⟨rfl, -⟩ := run_read hread
    obtain ⟨parts, ⟨st, items⟩, hwithin, h⟩ := run_bind.1 h
    obtain ⟨-, _, hparts⟩ := run_within.1 hwithin
    obtain ⟨rfl, -⟩ := run_read hparts
    obtain ⟨c, ⟨st, items⟩, hc, h⟩ := run_bind.1 h
    obtain ⟨-, heq⟩ := run_ofExcept.1 hc
    cases heq
    exact answered_composite rfl h
  | optional _ ih =>
    intro name t calls item rest w t' calls' left h
    by_cases hnull : item = .null
    · subst hnull
      rw [decode] at h
      cases h
      exact answered_nothing (by rw [consulted]) rfl
    · rw [decode_optional hnull] at h
      rw [consulted_present hnull]
      exact ih h
  | tuple _ _ ih =>
    intro name t calls item rest w t' calls' left h
    rw [decode] at h
    obtain ⟨inner, ⟨st, items⟩, hread, h⟩ := run_bind.1 h
    obtain ⟨rfl, hitems⟩ := run_read hread
    obtain ⟨fields, ⟨st, items⟩, hwithin, h⟩ := run_bind.1 h
    obtain ⟨-, _, hfields⟩ := run_within.1 hwithin
    cases h
    cases item with
    | tuple its =>
      cases hitems
      rw [consulted]
      exact answered_of_decodeFields ih hfields
    | _ => cases hitems

end

/-! ## Encoding and decoding -/

theorem legal_of_direct (h : Direct U w type v) : type.Legal → U.Legal := by
  induction h with
  | self => exact id
  | inner _ _ ih =>
    rintro (_ | _ | _ | _ | _ | _ | _ | hinner)
    exact ih hinner
  | field hc _ _ ih =>
    intro hlegal
    cases hlegal with
    | tuple _ hcomponents => exact ih (hcomponents _ hc)

theorem map_param?_of_asks {args : List Argument} {asked : List Codec.Call}
    (h : List.Forall₂ Asks args asked) :
    asked.map Codec.Call.param? = args.map fun a => some a.param := by
  induction h with
  | nil => rfl
  | cons h _ ih =>
    obtain ⟨json, -, rfl⟩ := h
    rw [List.map_cons, List.map_cons, ih]
    rfl

theorem map_param?_of_answers {params : List (String × AbiType)} {answered : List Codec.Call}
    (h : List.Forall₂ Answers params answered) :
    answered.map Codec.Call.param? = params.map fun p => some (p.2.toParam p.1) := by
  induction h with
  | nil => rfl
  | cons h _ ih =>
    obtain ⟨c, rfl⟩ := h
    rw [List.map_cons, List.map_cons, ih]
    rfl

/-- A value that is encoded has the service encode its composite parts that stand below optionals
and tuples alone, in order and nothing else, each as JSON that is read back as the part, under the
type that the parameter is read as.  Decoding the item has the service decode under the same
parameters, in the same order. -/
theorem calls_mirrored {descriptor : String} {params : Option (List Param)}
    (hparse : AbiType.parse descriptor params = .ok type) (hcodec : codec.Inverse)
    (hconforms : conforms type v = .ok ()) (hdeclared : Declared type v) (hsound : Sound v)
    {s s' : σ} {calls calls' : List Codec.Call}
    (henc : (encode codec.recording name type v).run (s, calls) = .ok item (s', calls')) :
    (∀ U w, (∃ a ∈ composites name type v, a.type = U ∧ a.value = w) ↔
      U.isComposite = true ∧ Direct U w type v) ∧
    (∀ a ∈ composites name type v, a.param.abiType = .ok a.type ∧
      ∃ json w, a.value.toJson = .ok json ∧ ofJson a.type json = .ok w ∧
        equal w a.value = true ∧ equal a.value w = true) ∧
    ∃ asked, calls' = calls ++ asked ∧ List.Forall₂ Asks (composites name type v) asked ∧
      ∀ t earlier rest, ∃ w t' answered,
        (decode codec.recording name type).run ((t, earlier), item :: rest) =
          .ok w ((t', earlier ++ answered), rest) ∧
        equal w v = true ∧
        List.Forall₂ Answers ((composites name type v).map fun a => (a.name, a.type)) answered ∧
        answered.map Codec.Call.param? = asked.map Codec.Call.param? := by
  have hlegal := AbiType.legal_of_parse hparse
  have hproper := proper_of_conforms hconforms hdeclared hsound.regular
  refine ⟨fun U w => ⟨?_, fun ⟨hU, hw⟩ => exists_mem_composites hU hw name⟩, fun a ha => ?_, ?_⟩
  · rintro ⟨a, ha, rfl, rfl⟩
    exact direct_of_mem_composites hlegal ha
  · obtain ⟨-, hdirect⟩ := direct_of_mem_composites hlegal ha
    have hpart := proper_of_conforms (hdirect.typed.conforms hconforms)
      (hdirect.typed.declared hdeclared) (hsound.regular.part hdirect.typed.part)
    have ha := legal_of_direct hdirect hlegal
    obtain ⟨json, hjson⟩ := hpart.exists_toJson ha
    obtain ⟨w, hw, hto, hfrom⟩ := hpart.readsBack json hjson
    exact ⟨AbiType.abiType_toParam ha a.name, json, w, hjson, hw, hfrom, hto⟩
  · obtain ⟨asked, hcalls, hasked⟩ := asked_of_encode hproper henc
    refine ⟨asked, hcalls, hasked.calls, fun t earlier rest => ?_⟩
    obtain ⟨w, hagrees, hdec⟩ :=
      (carries_encode hcodec.recording hproper hsound henc).decodes
    obtain ⟨⟨t', later⟩, hrun⟩ := hdec (t, earlier) rest
    obtain ⟨answered, rfl, hanswered⟩ := answered_of_decode hlegal hrun
    rw [hasked.consulted] at hanswered
    refine ⟨w, t', answered, hrun, hagrees.2, hanswered, ?_⟩
    rw [map_param?_of_answers hanswered, map_param?_of_asks hasked.calls, List.map_map]
    rfl

/-- A service that knows two strings. -/
def letters : Codec Unit where
  encode _ json _ :=
    match json with
    | .string "a" => (.ok (.node [0x61] 8 []), ())
    | .string "b" => (.ok (.node [0x62] 8 []), ())
    | _ => (.error ⟨"encode", "unknown value"⟩, ())
  decode _ c _ :=
    if c = .node [0x61] 8 [] then (.ok (.string "a"), ())
    else if c = .node [0x62] 8 [] then (.ok (.string "b"), ())
    else (.error ⟨"decode", "unknown cell"⟩, ())
  decodeState _ _ _ := (.error ⟨"decode", "unknown contract"⟩, ())

theorem inverse_letters : letters.Inverse where
  decode_encode {p json c s t} hp h := by
    simp only [letters] at h
    split at h
    · cases h
      rfl
    · cases h
      rfl
    · cases h
  decode_counted {p items c s t} hp hcount h := by cases h

/-- The parameter of a string. -/
def stringParam (name : String) : Param := ⟨name, "string", none, none⟩

/-- Two strings, one of them optional, around a number and an absent byte string. -/
def labels : Value :=
  .tuple [("m", .null), ("n", .int 7), ("x", .string "b"), ("y", .string "a")]

def labelsType : AbiType :=
  .tuple [("x", .string), ("n", .uint 8), ("m", .optional (.bytes none)), ("y", .optional .string)]

theorem calls_mirrored_letters :
    ∃ w answered, AbiType.parse "tuple" (some [stringParam "x", ⟨"n", "uint8", none, none⟩,
        ⟨"m", "optional(bytes)", none, none⟩, ⟨"y", "optional(string)", none, none⟩]) =
        .ok labelsType ∧
      (encode letters.recording "p" labelsType labels).run ((), []) =
        .ok (.tuple [.cell (.node [0x62] 8 []), .int 7, .null, .cell (.node [0x61] 8 [])])
          ((), [.encode (stringParam "x") (.string "b"), .encode (stringParam "y") (.string "a")]) ∧
      (decode letters.recording "p" labelsType).run (((), []),
          [.tuple [.cell (.node [0x62] 8 []), .int 7, .null, .cell (.node [0x61] 8 [])], .int 5]) =
        .ok w (((), answered), [.int 5]) ∧
      equal w labels = true ∧
      answered.map Codec.Call.param? = [some (stringParam "x"), some (stringParam "y")] := by
  have hparse := AbiType.ofDescriptor_tuple (d := "tuple".toList) rfl
    (AbiType.ofParams_cons (p := stringParam "x") (AbiType.ofDescriptor_plain rfl)
      (AbiType.ofParams_cons (p := ⟨"n", "uint8", none, none⟩) (AbiType.ofDescriptor_plain rfl)
        (AbiType.ofParams_cons (p := ⟨"m", "optional(bytes)", none, none⟩)
          (AbiType.ofDescriptor_optional rfl (AbiType.ofDescriptor_plain rfl))
          (AbiType.ofParams_cons (p := ⟨"y", "optional(string)", none, none⟩)
            (AbiType.ofDescriptor_optional rfl (AbiType.ofDescriptor_plain rfl))
            AbiType.ofParams_nil))))
  have hdeclared : Declared labelsType labels := by
    simp only [labels, labelsType, Declared, DeclaredAll, AbiType.uint, List.map_cons, List.map_nil,
      List.mem_cons, List.not_mem_nil, or_false, implies_true, and_true]
    exact fun name => by tauto
  have hsound : Sound labels := by
    have hmn : compare "m" "n" = .lt := by decide
    have hmx : compare "m" "x" = .lt := by decide
    have hmy : compare "m" "y" = .lt := by decide
    have hnx : compare "n" "x" = .lt := by decide
    have hny : compare "n" "y" = .lt := by decide
    have hxy : compare "x" "y" = .lt := by decide
    simp [labels, Sound, SoundFields, Sorted.Ascending, hmn, hmx, hmy, hnx, hny, hxy]
  have henc : (encode letters.recording "p" labelsType labels).run ((), []) =
      .ok (.tuple [.cell (.node [0x62] 8 []), .int 7, .null, .cell (.node [0x61] 8 [])])
        ((), [.encode (stringParam "x") (.string "b"), .encode (stringParam "y") (.string "a")]) :=
    rfl
  obtain ⟨-, -, asked, hasked, -, hdecode⟩ :=
    calls_mirrored hparse inverse_letters rfl hdeclared hsound henc
  obtain ⟨w, t', answered, hrun, hequal, -, hparams⟩ := hdecode () [] [.int 5]
  refine ⟨w, answered, hparse, henc, hrun, hequal, ?_⟩
  rw [hparams, ← List.nil_append asked, ← hasked]
  rfl

end Wire

end CellAbi
