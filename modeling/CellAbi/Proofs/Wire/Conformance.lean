import CellAbi.Proofs.AbiType.Legal
import CellAbi.Proofs.Value.Reading
import CellAbi.Proofs.Wire.Service

/-!
# Conformance of decoded values

Whatever a codec service answers, what comes out of its cells conforms, for it is read as JSON.  Of
what is read from the items themselves, integers are the one thing that is not checked: a decoded
value conforms to its type iff the integers that were read from items are in range.

    (decode codec name type).run (s, items) = .ok v (s', rest) →
      (conforms type v = .ok () ↔ DirectInRange type v)                     (`conforms_decode_iff`)
-/

namespace CellAbi.Wire

open Value

variable {σ : Type} {codec : Codec σ} {name : String} {type : AbiType} {v : Value}
  {s s' : σ} {items rest : List Item}

/-- The integers that stand below optionals and tuples alone are in the ranges of their types. -/
def DirectInRange (type : AbiType) (v : Value) : Prop :=
  ∀ signed width i, Direct (.integer signed width) (.int i) type v →
    AbiType.checkInteger (.integer signed width) i = .ok ()

theorem directInRange_of_conforms (h : conforms type v = .ok ()) : DirectInRange type v := by
  intro signed width i hdirect
  have hi := hdirect.typed.conforms h
  rwa [conforms] at hi

/-! ## Steps -/

/-- What the service answers for a cell is read as JSON, so that it conforms. -/
theorem conforms_of_decodeCell (hnames : type.DistinctNames) {step : Decode σ Cell}
    {st st' : σ × List Item}
    (h : (step >>= fun c => decodeCell codec name type c).run st = .ok v st') :
    conforms type v = .ok () := by
  obtain ⟨c, _, -, h⟩ := Outcome.run_bind.1 h
  obtain ⟨json, _, -, h⟩ := Outcome.run_bind.1 h
  exact conforms_of_ofJson hnames (run_ofExcept.1 h).1

theorem decodeFields_spec {P : AbiType → Value → Prop} {components : List (String × AbiType)}
    (h : ∀ c ∈ components, ∀ {name st v st'}, (decode codec name c.2).run st = .ok v st' → P c.2 v)
    {st st' : σ × List Item} {fields : List (String × Value)}
    (hrun : (decodeFields codec components).run st = .ok fields st') :
    fields.map Prod.fst = components.map Prod.fst ∧
      ∀ c ∈ components, ∃ v, (c.1, v) ∈ fields ∧ P c.2 v := by
  induction components generalizing st fields with
  | nil =>
    rw [decodeFields] at hrun
    cases hrun
    exact ⟨rfl, fun _ hc => absurd hc List.not_mem_nil⟩
  | cons c components ih =>
    cases c with
    | mk name type =>
      rw [decodeFields] at hrun
      obtain ⟨v, mid, hv, hrun⟩ := Outcome.run_bind.1 hrun
      obtain ⟨more, last, hmore, hrun⟩ := Outcome.run_bind.1 hrun
      cases hrun
      obtain ⟨hnames, hfields⟩ := ih (fun c hc => h c (List.mem_cons_of_mem _ hc)) hmore
      refine ⟨congrArg (name :: ·) hnames, List.forall_mem_cons.2
        ⟨⟨v, List.mem_cons_self, h _ List.mem_cons_self hv⟩, fun c hc => ?_⟩⟩
      obtain ⟨w, hw, hP⟩ := hfields c hc
      exact ⟨w, List.mem_cons_of_mem _ hw, hP⟩

/-! ## All types -/

/-- By induction on the type; only an integer item leaves something to be checked. -/
theorem conforms_of_decode (hnames : type.DistinctNames) :
    ∀ {name st v st'}, (decode codec name type).run st = .ok v st' → DirectInRange type v →
      conforms type v = .ok () := by
  induction hnames with
  | integer signed width =>
    intro name st v st' h hrange
    rw [decode] at h
    obtain ⟨i, _, -, h⟩ := Outcome.run_bind.1 h
    cases h
    rw [conforms]
    exact hrange signed width i .self
  | bool =>
    intro name st v st' h _
    rw [decode] at h
    obtain ⟨b, _, -, h⟩ := Outcome.run_bind.1 h
    cases h
    rw [conforms]
  | string =>
    intro name st v st' h _
    rw [decode] at h
    exact conforms_of_decodeCell .string h
  | bytes length =>
    intro name st v st' h _
    rw [decode] at h
    exact conforms_of_decodeCell (.bytes length) h
  | cell =>
    intro name st v st' h _
    rw [decode] at h
    obtain ⟨c, _, -, h⟩ := Outcome.run_bind.1 h
    cases h
    rw [conforms]
  | address strict =>
    intro name st v st' h _
    rw [decode] at h
    obtain ⟨a, _, -, h⟩ := Outcome.run_bind.1 h
    cases a with
    | none =>
      cases h
      rw [conforms]
    | some a =>
      simp only at h
      split at h
      · cases h
      · next hexternal =>
        cases h
        exact conforms_address.2 (not_not.1 (isExternal_iff.not.1 hexternal))
  | array helement _ =>
    intro name st v st' h _
    rw [decode] at h
    obtain ⟨items, _, -, h⟩ := Outcome.run_bind.1 h
    obtain ⟨parts, _, -, h⟩ := Outcome.run_bind.1 h
    exact conforms_of_decodeCell (.array helement) h
  | optional hinner ih =>
    intro name st v st' h hrange
    rw [decode] at h
    obtain ⟨item, mid, -, h⟩ := Outcome.run_bind.1 h
    by_cases hne : v = .null
    · rw [hne, conforms]
    · have hinner : DirectInRange _ v := fun signed width i hi =>
        hrange signed width i (.inner hne hi)
      cases item with
      | null =>
        obtain ⟨_, _, -, h⟩ := Outcome.run_bind.1 h
        cases h
        exact absurd rfl hne
      | _ => exact conforms_optional_of (ih h hinner)
  | map hkey hvalue _ _ =>
    intro name st v st' h _
    rw [decode] at h
    exact conforms_of_decodeCell (.map hkey hvalue) h
  | tuple hnames _ ih =>
    intro name st v st' h hrange
    rw [decode] at h
    obtain ⟨items, _, -, h⟩ := Outcome.run_bind.1 h
    obtain ⟨fields, _, hfields, h⟩ := Outcome.run_bind.1 h
    cases h
    obtain ⟨-, _, hrun⟩ := run_within.1 hfields
    obtain ⟨hfst, hread⟩ := decodeFields_spec (P := fun type v =>
      DirectInRange type v → conforms type v = .ok ()) ih hrun
    -- Every component finds its own value again, since no other one has its name.
    have hdistinct : fields.Pairwise fun a b => a.1 ≠ b.1 := by
      refine List.pairwise_map.1 ?_
      rw [hfst]
      exact List.pairwise_map.2 hnames
    refine conforms_tuple_ofList hdistinct fun c hc => ?_
    obtain ⟨w, hw, hconforms⟩ := hread c hc
    have hlookup := (Sorted.lookup_ofList hdistinct).2 hw
    exact ⟨w, hw, hconforms fun signed width i hi => hrange signed width i (.field hc hlookup hi)⟩

/-- Whatever the items and whatever the codec service answers, a decoded value conforms to its type
iff the integers that were read from items are in the ranges of their types. -/
theorem conforms_decode_iff (hnames : type.DistinctNames)
    (h : (decode codec name type).run (s, items) = .ok v (s', rest)) :
    conforms type v = .ok () ↔ DirectInRange type v :=
  ⟨directInRange_of_conforms, conforms_of_decode hnames h⟩

/-- A service that knows no cell. -/
def silent : Codec Unit where
  encode _ _ _ := (.error ⟨"encode", "unknown value"⟩, ())
  decode _ _ _ := (.error ⟨"decode", "unknown cell"⟩, ())
  decodeState _ _ _ := (.error ⟨"decode", "unknown contract"⟩, ())

/-- The greatest integer of the type, and an absent one. -/
theorem conforms_decode_greatest :
    (decode silent "x" (.tuple [("a", .uint 8), ("b", .optional (.int 8))])).run
        ((), [.tuple [.int 255, .null]]) =
      .ok (.tuple [("a", .int 255), ("b", .null)]) ((), []) ∧
    conforms (.tuple [("a", .uint 8), ("b", .optional (.int 8))])
      (.tuple [("a", .int 255), ("b", .null)]) = .ok () := by
  have hnames : AbiType.DistinctNames (.tuple [("a", .uint 8), ("b", .optional (.int 8))]) := by
    refine .tuple (by decide) fun c hc => ?_
    simp only [List.mem_cons, List.not_mem_nil, or_false] at hc
    rcases hc with rfl | rfl
    · exact .integer _ _
    · exact .optional (.integer _ _)
  have hrun : (decode silent "x" (.tuple [("a", .uint 8), ("b", .optional (.int 8))])).run
      ((), [.tuple [.int 255, .null]]) =
        .ok (.tuple [("a", .int 255), ("b", .null)]) ((), []) := rfl
  have hrange : DirectInRange (.tuple [("a", .uint 8), ("b", .optional (.int 8))])
      (.tuple [("a", .int 255), ("b", .null)]) := by
    intro signed width i hdirect
    cases hdirect with
    | field hc hv h =>
      simp only [List.mem_cons, List.not_mem_nil, or_false] at hc
      rcases hc with rfl | rfl
      · obtain rfl := Option.some.inj hv
        cases h
        rfl
      · obtain rfl := Option.some.inj hv
        cases h with
        | inner hne _ => exact absurd rfl hne
  exact ⟨hrun, (conforms_decode_iff hnames hrun).2 hrange⟩

/-- An integer that is refused in JSON is accepted as an item. -/
theorem decode_above_range :
    AbiType.parse "uint8" none = .ok (.uint 8) ∧ AbiType.DistinctNames (.uint 8) ∧
      (decode silent "x" (.uint 8)).run ((), [.int 256]) = .ok (.int 256) ((), []) ∧
      conforms (.uint 8) (.int 256) ≠ .ok () ∧
      ofJson (.uint 8) (.number (.integer 256)) = .error (.outOfRange 256 (.uint 8)) := by
  have hparse : AbiType.parse "uint8" none = .ok (.uint 8) := AbiType.ofDescriptor_plain rfl
  have hrun : (decode silent "x" (.uint 8)).run ((), [.int 256]) = .ok (.int 256) ((), []) := rfl
  have hcheck : conforms (.uint 8) (.int 256) = .error (.outOfRange 256 (.uint 8)) := rfl
  refine ⟨hparse, .integer _ _, hrun, ?_, rfl⟩
  rw [hcheck]
  exact nofun

end CellAbi.Wire
