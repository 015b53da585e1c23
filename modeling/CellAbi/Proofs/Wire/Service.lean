import CellAbi.Proofs.Address.Wire
import CellAbi.Proofs.Value.Json
import CellAbi.Wire.Decode

/-!
# Values through the codec service

What is assumed of a codec service is that it reads back what it writes (`Codec.Inverse`).  Then the
cell of a string, a byte string or a map is decoded as a value that agrees with the one it was
encoded from, and so is the cell of the elements of an array behind their number.

    (encodeCell codec name type v).run s = .ok c s' →
      ∃ w, v.Agrees w ∧ ∀ t items, ∃ t',
        (decodeCell codec name type c).run (t, items) = .ok w (t', items)
                                                                        (`decodeCell_encodeCell`)
-/

namespace CellAbi

/-- The descriptor of the parameter is that of an array. -/
def Param.IsArray (p : Param) : Prop := "[]".toList <:+ p.type.toList

/-- A count in 32 bits and a reference to the elements. -/
def Cell.counted (count : Nat) (elements : Cell) : Cell :=
  .node (Bits.toBytes (Bits.ofNat 32 count)) 32 [elements]

/-- The service decodes what it encodes, whatever states it is in.  The elements of an array come
back from behind their number. -/
structure Codec.Inverse {σ : Type} (codec : Codec σ) : Prop where
  decode_encode {p : Param} {json : Json} {c : Cell} {s t : σ} (hp : ¬ p.IsArray)
    (h : (codec.encode p json s).1 = .ok c) : (codec.decode p c t).1 = .ok json
  decode_counted {p : Param} {items : List Json} {c : Cell} {s t : σ} (hp : p.IsArray)
    (hcount : items.length < 2 ^ 32) (h : (codec.encode p (.array items) s).1 = .ok c) :
    (codec.decode p (.counted items.length c) t).1 = .ok (.array items)

namespace AbiType

theorem isArray_toParam (name : String) (element : AbiType) :
    ((array element).toParam name).IsArray := by
  refine ⟨element.toText.toList, ?_⟩
  show _ = (element.toText ++ "[]").toList
  rw [String.toList_append]

theorem not_isArray_of_getLast? {p : Param} {c : Char} (h : p.type.toList.getLast? = some c)
    (hc : c ≠ ']') : ¬ p.IsArray := by
  rintro ⟨front, hfront⟩
  rw [← hfront, List.getLast?_append] at h
  exact hc (Option.some.inj h).symm

theorem not_isArray_string (name : String) : ¬ (string.toParam name).IsArray :=
  not_isArray_of_getLast? (show "string".toList.getLast? = some 'g' by decide) (by decide)

theorem not_isArray_bytes (name : String) (length : Option Nat) :
    ¬ ((bytes length).toParam name).IsArray := by
  cases length with
  | none => exact not_isArray_of_getLast? (show "bytes".toList.getLast? = some 's' by decide) (by decide)
  | some n =>
    obtain ⟨c, hc⟩ : ∃ c, (Nat.toDigits 10 n).getLast? = some c :=
      ⟨_, List.getLast?_eq_some_getLast Nat.toDigits_ne_nil⟩
    have hdigit := Text.isDigit_of_mem (List.mem_of_getLast? hc)
    refine not_isArray_of_getLast? (c := c) ?_ (Text.ne_of_isDigit hdigit rfl)
    show ("fixedbytes" ++ toString n).toList.getLast? = _
    rw [String.toList_append, List.getLast?_append, Text.toList_toString_nat, hc]
    rfl

theorem not_isArray_map (name : String) (key value : AbiType) :
    ¬ ((map key value).toParam name).IsArray := by
  refine not_isArray_of_getLast? (c := ')') ?_ (by decide)
  show ("map(" ++ key.toText ++ "," ++ value.toText ++ ")").toList.getLast? = _
  rw [String.toList_append, List.getLast?_append]
  rfl

end AbiType

namespace Wire

variable {σ : Type} {codec : Codec σ} {name : String} {type : AbiType} {v : Value} {c : Cell}
  {s s' : σ}

theorem run_ofExcept {ε α : Type} {x : Except ε α} {a : α} :
    (ofExcept x : EStateM ε σ α).run s = .ok a s' ↔ x = .ok a ∧ s = s' := by
  cases x with
  | error e => exact iff_of_false nofun fun h => nomatch h.1
  | ok a' =>
    constructor
    · intro h
      cases h
      exact ⟨rfl, rfl⟩
    · rintro ⟨h, rfl⟩
      cases h
      rfl

theorem run_call {α : Type} {f : σ → Except CollaboratorError α × σ} {a : α} :
    (Codec.call f).run s = .ok a s' ↔ (f s).1 = .ok a ∧ (f s).2 = s' := by
  unfold Codec.call
  rw [EStateM.run_bind, EStateM.run_get]
  simp only [EStateM.run_bind, EStateM.run_set]
  cases hf : (f s).1 with
  | error e => exact iff_of_false nofun fun h => nomatch h.1
  | ok a' => simp

/-- A composite value is encoded through its JSON form. -/
theorem run_encodeCell (h : (encodeCell codec name type v).run s = .ok c s') :
    ∃ json t, v.toJson = .ok json ∧ (codec.encode (type.toParam name) json t).1 = .ok c := by
  obtain ⟨_, s₁, -, h⟩ := Outcome.run_bind.1 h
  obtain ⟨json, s₂, hjson, h⟩ := Outcome.run_bind.1 h
  exact ⟨json, s₂, (run_ofExcept.1 hjson).1, (run_call.1 h).1⟩

theorem run_decodeCall {α : Type} {step : EStateM AbiError σ α} {a : α} {items : List Item}
    (h : step.run s = .ok a s') : (Decode.call step).run (s, items) = .ok a (s', items) := by
  have hstep : step s = .ok a s' := h
  simp only [EStateM.run, Decode.call, hstep]

/-- What is read from items of its own comes from a run on these; the outer ones stay. -/
theorem run_within {α : Type} {inner items items' : List Item} {step : Decode σ α} {a : α} :
    (Decode.within inner step).run (s, items) = .ok a (s', items') ↔
      items = items' ∧ ∃ left, step.run (s, inner) = .ok a (s', left) := by
  simp only [EStateM.run, Decode.within]
  cases hstep : step (s, inner) with
  | error e st => exact iff_of_false nofun fun ⟨_, _, h⟩ => nomatch h
  | ok b st =>
    constructor
    · intro h
      cases h
      exact ⟨rfl, st.2, rfl⟩
    · rintro ⟨rfl, left, h⟩
      cases h
      rfl

theorem run_decodeCell {json : Json} {w : Value} {t : σ} {items : List Item}
    (hcodec : (codec.decode (type.toParam name) c t).1 = .ok json)
    (hread : Value.ofJson type json = .ok w) :
    ∃ t', (decodeCell codec name type c).run (t, items) = .ok w (t', items) :=
  ⟨_, Outcome.run_bind.2 ⟨json, _, run_decodeCall (run_call.2 ⟨hcodec, rfl⟩),
    run_ofExcept.2 ⟨hread, rfl⟩⟩⟩

theorem arrayCell_eq {count : Nat} (h : count < 2 ^ 32) (elements : Cell) :
    arrayCell count elements = .ok (.counted count elements) := by
  have hrun : (do Store.nat count arrayLengthBits; Store.ref elements : Store).run .empty =
      .ok () (Builder.ofBits (Bits.ofNat 32 count) [elements]) := by
    have hsize : ¬ Bits.size count > arrayLengthBits := Nat.not_lt.2 (Bits.size_le_iff.2 h)
    rw [Builder.empty_eq, Store.nat_eq, if_neg hsize]
    refine Outcome.run_bind.2 ⟨(), _, Store.run_bitList.2 ⟨?_, rfl⟩, Store.run_ref.2 ⟨by decide, rfl⟩⟩
    rw [Bits.length_ofNat]
    decide
  show (Cell.ofStore _).mapError _ = _
  rw [Cell.ofStore, hrun]
  rfl

/-- The value comes back from a cell that the service reads as the JSON form of the value. -/
theorem decodeCell_encodeCell (h : Value.Proper type v) {c' : Cell}
    (hback : ∀ json t t', v.toJson = .ok json →
      (codec.encode (type.toParam name) json t).1 = .ok c →
        (codec.decode (type.toParam name) c' t').1 = .ok json)
    (henc : (encodeCell codec name type v).run s = .ok c s') :
    ∃ w, v.Agrees w ∧ ∀ t items, ∃ t',
      (decodeCell codec name type c').run (t, items) = .ok w (t', items) := by
  obtain ⟨json, t, hjson, hcell⟩ := run_encodeCell henc
  obtain ⟨w, hw, hagrees⟩ := h.readsBack json hjson
  exact ⟨w, hagrees, fun t' _ => run_decodeCell (hback json t t' hjson hcell) hw⟩

theorem decodeCell_counted (hcodec : codec.Inverse) {element : AbiType} {items : List Value}
    (h : Value.Proper (.array element) (.array items)) (hcount : items.length < 2 ^ 32)
    (henc : (encodeCell codec name (.array element) (.array items)).run s = .ok c s') :
    ∃ w, (Value.array items).Agrees w ∧ ∀ t rest, ∃ t',
      (decodeCell codec name (.array element) (.counted items.length c)).run (t, rest) =
        .ok w (t', rest) := by
  refine decodeCell_encodeCell h (fun json t t' hjson hcell => ?_) henc
  rw [Value.toJson, Value.itemsToJson_eq, Outcome.bind_eq_ok] at hjson
  obtain ⟨js, hjs, hjson⟩ := hjson
  obtain rfl := Except.ok.inj hjson
  have hlen := (Outcome.mapM_spec hjs).1
  rw [← hlen]
  exact hcodec.decode_counted (AbiType.isArray_toParam name element) (hlen ▸ hcount) hcell

end Wire

end CellAbi
