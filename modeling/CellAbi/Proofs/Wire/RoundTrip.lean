import CellAbi.Proofs.Wire.Service

/-!
# The wire round trip

Every value takes exactly one item, also an absent optional, so that what is decoded first leaves the
items of what is decoded next.  `Carries` says so of one item, by induction on the proper values of a
type; a list of arguments follows argument by argument.

    (encode codec name type v).run s = .ok item s' → Carries codec name type v item
                                                                              (`carries_encode`)
    (encodeAll codec args).run s = .ok items s' →
      ∃ values t', (decodeAll codec args).run (t, items ++ rest) = .ok values (t', rest) ∧ …
                                                                         (`decodeAll_encodeAll`)
-/

namespace CellAbi.Wire

open Value

variable {σ : Type} {codec : Codec σ} {name : String} {type : AbiType} {v : Value} {item : Item}
  {s s' : σ}

/-! ## One value -/

/-- The item carries the value: it is null only for the null value, and whatever items follow, it is
decoded alone and as a value that agrees with this one. -/
structure Carries (codec : Codec σ) (name : String) (type : AbiType) (v : Value) (item : Item) :
    Prop where
  null : item = .null → v = .null
  decodes : ∃ w, v.Agrees w ∧ ∀ t rest, ∃ t',
    (decode codec name type).run (t, item :: rest) = .ok w (t', rest)

theorem carries_of_eq (hnull : item ≠ .null)
    (h : ∀ t rest, (decode codec name type).run (t, item :: rest) = .ok v (t, rest)) :
    Carries codec name type v item :=
  ⟨fun hn => absurd hn hnull, v, agrees_self v, fun t rest => ⟨t, h t rest⟩⟩

theorem encode_optional {inner : AbiType} (hne : v ≠ null) :
    encode codec name (.optional inner) v = encode codec name inner v := by
  rw [encode]
  exact hne

theorem decode_optional {inner : AbiType} (hne : item ≠ .null) (t : σ) (rest : List Item) :
    (decode codec name (.optional inner)).run (t, item :: rest) =
      (decode codec name inner).run (t, item :: rest) := by
  rw [decode]
  cases item <;> first | exact absurd rfl hne | rfl

theorem carries_present {inner : AbiType} (hne : v ≠ null) (h : Carries codec name inner v item) :
    Carries codec name (.optional inner) v item := by
  have hitem : item ≠ .null := fun hn => hne (h.null hn)
  obtain ⟨w, hagrees, hdec⟩ := h.decodes
  refine ⟨h.null, w, hagrees, fun t rest => ?_⟩
  rw [decode_optional hitem]
  exact hdec t rest

/-- Strings, byte strings and maps travel as the cell of the service alone. -/
theorem carries_cell (hcodec : codec.Inverse) (h : Proper type v)
    (hp : ¬ (type.toParam name).IsArray)
    (hdec : decode codec name type =
      do decodeCell codec name type (← Decode.read ReadItems.cell))
    (henc : (do return .cell (← encodeCell codec name type v) : Encode σ Item).run s =
      .ok item s') : Carries codec name type v item := by
  obtain ⟨c, mid, hcell, henc⟩ := Outcome.run_bind.1 henc
  cases henc
  obtain ⟨w, hagrees, hrun⟩ := decodeCell_encodeCell h
    (fun json t t' _ hc => hcodec.decode_encode hp hc) hcell
  refine ⟨nofun, w, hagrees, fun t rest => ?_⟩
  obtain ⟨t', ht⟩ := hrun t rest
  refine ⟨t', ?_⟩
  rw [hdec]
  exact Outcome.run_bind.2 ⟨c, (t, rest), rfl, ht⟩

theorem carries_array (hcodec : codec.Inverse) {element : AbiType} {items : List Value}
    (h : Proper (.array element) (.array items)) (hcount : items.length < 2 ^ 32)
    (henc : (encode codec name (.array element) (.array items)).run s = .ok item s') :
    Carries codec name (.array element) (.array items) item := by
  rw [encode] at henc
  obtain ⟨c, mid, hcell, henc⟩ := Outcome.run_bind.1 henc
  cases henc
  obtain ⟨w, hagrees, hrun⟩ := decodeCell_counted hcodec h hcount hcell
  refine ⟨nofun, w, hagrees, fun t rest => ?_⟩
  obtain ⟨t', ht⟩ := hrun t rest
  refine ⟨t', ?_⟩
  rw [decode]
  refine Outcome.run_bind.2 ⟨_, (t, rest), rfl, ?_⟩
  refine Outcome.run_bind.2 ⟨(items.length, c), (t, rest), rfl, ?_⟩
  exact Outcome.run_bind.2 ⟨_, (t, rest), run_ofExcept.2 ⟨arrayCell_eq hcount c, rfl⟩, ht⟩

theorem addressItem_eq_ok {a : Option Address} (h : addressItem a = .ok item) :
    ∃ c, item = .slice c ∧ ReadItems.addressOfCell c = .ok a := by
  unfold addressItem at h
  split at h
  · next c hc =>
    obtain rfl := Except.ok.inj h
    exact ⟨c, rfl, ReadItems.addressOfCell_eq hc⟩
  · cases h

theorem run_readAddress {a : Option Address} {c : Cell}
    (hread : ReadItems.addressOfCell c = .ok a) (t : σ) (rest : List Item) :
    (Decode.read ReadItems.address).run (t, .slice c :: rest) = .ok a (t, rest) := by
  have haddress : ReadItems.address (.slice c :: rest) = .ok a rest := by
    refine Outcome.run_bind.2 ⟨.slice c, rest, rfl, ?_⟩
    simp only [hread]
    rfl
  simp only [EStateM.run, Decode.read, haddress]

theorem carries_noAddress {strict : Bool}
    (henc : (encode codec name (.address strict) .null).run s = .ok item s') :
    Carries codec name (.address strict) .null item := by
  rw [encode] at henc
  obtain ⟨c, rfl, hread⟩ := addressItem_eq_ok (run_ofExcept.1 henc).1
  refine carries_of_eq nofun fun t rest => ?_
  rw [decode]
  exact Outcome.run_bind.2 ⟨none, (t, rest), run_readAddress hread t rest, rfl⟩

theorem carries_address {strict : Bool} {a : Address}
    (h : strict = true → a.standard?.isSome = true)
    (henc : (encode codec name (.address strict) (.address a)).run s = .ok item s') :
    Carries codec name (.address strict) (.address a) item := by
  rw [encode] at henc
  obtain ⟨_, mid, -, henc⟩ := Outcome.run_bind.1 henc
  obtain ⟨c, rfl, hread⟩ := addressItem_eq_ok (run_ofExcept.1 henc).1
  have hstrict : ¬ (strict && a.standard?.isNone) = true := fun he => isExternal_iff.1 he h
  refine carries_of_eq nofun fun t rest => ?_
  rw [decode]
  refine Outcome.run_bind.2 ⟨some a, (t, rest), run_readAddress hread t rest, ?_⟩
  simp only [if_neg hstrict]
  rfl

theorem carries_bool (b : Bool) : Carries codec name .bool (.bool b) (.int (if b then -1 else 0)) := by
  refine carries_of_eq nofun fun t rest => ?_
  rw [decode]
  cases b <;> rfl

/-! ## Tuples -/

/-- The fields of a tuple are decoded from what they are encoded into, one after the other. -/
theorem decodeFields_encodeFields {components : List (String × AbiType)}
    {fields : List (String × Value)} (ha : Sorted.Ascending fields)
    (h : ∀ name type v, (name, type) ∈ components → (name, v) ∈ fields →
      ∀ s item s', (encode codec name type v).run s = .ok item s' → Carries codec name type v item)
    {s s' : σ} {items : List Item}
    (henc : (encodeFields codec components fields).run s = .ok items s') :
    ∃ ws, ws.map Prod.fst = components.map Prod.fst ∧
      (∀ e ∈ ws, ∃ v, (e.1, v) ∈ fields ∧ v.Agrees e.2) ∧ ∀ t rest, ∃ t',
        (decodeFields codec components).run (t, items ++ rest) = .ok ws (t', rest) := by
  induction components generalizing s items with
  | nil =>
    rw [encodeFields] at henc
    cases henc
    exact ⟨[], rfl, fun _ he => absurd he List.not_mem_nil, fun t rest => ⟨t, by
      rw [decodeFields]
      rfl⟩⟩
  | cons c components ih =>
    cases c with
    | mk name type =>
      rw [encodeFields] at henc
      cases hlookup : Sorted.lookup name fields with
      | none =>
        rw [hlookup] at henc
        cases henc
      | some v =>
        rw [hlookup] at henc
        obtain ⟨item, mid, hitem, henc⟩ := Outcome.run_bind.1 henc
        obtain ⟨more, last, hmore, henc⟩ := Outcome.run_bind.1 henc
        cases henc
        have hv := (Sorted.lookup_eq_some ha).1 hlookup
        obtain ⟨w, hagrees, hdec⟩ :=
          (h name type v List.mem_cons_self hv _ _ _ hitem).decodes
        obtain ⟨ws, hnames, hws, hdecs⟩ := ih
          (fun name type v hc hv => h name type v (List.mem_cons_of_mem _ hc) hv) hmore
        refine ⟨(name, w) :: ws, congrArg (name :: ·) hnames,
          List.forall_mem_cons.2 ⟨⟨v, hv, hagrees⟩, hws⟩, fun t rest => ?_⟩
        obtain ⟨t₁, h₁⟩ := hdec t (more ++ rest)
        obtain ⟨t₂, h₂⟩ := hdecs t₁ rest
        refine ⟨t₂, ?_⟩
        rw [decodeFields]
        refine Outcome.run_bind.2 ⟨w, (t₁, more ++ rest), h₁, ?_⟩
        exact Outcome.run_bind.2 ⟨ws, (t₂, rest), h₂, rfl⟩

theorem carries_tuple {components : List (String × AbiType)} {fields : List (String × Value)}
    (ha : Sorted.Ascending fields)
    (hnames : ∀ name, name ∈ fields.map Prod.fst ↔ name ∈ components.map Prod.fst)
    (h : ∀ name type v, (name, type) ∈ components → (name, v) ∈ fields →
      ∀ s item s', (encode codec name type v).run s = .ok item s' → Carries codec name type v item)
    (henc : (encode codec name (.tuple components) (.tuple fields)).run s = .ok item s') :
    Carries codec name (.tuple components) (.tuple fields) item := by
  rw [encode] at henc
  obtain ⟨items, mid, hitems, henc⟩ := Outcome.run_bind.1 henc
  cases henc
  obtain ⟨ws, hws, hagrees, hdec⟩ := decodeFields_encodeFields ha h hitems
  refine ⟨nofun, .tuple (Sorted.ofList ws),
    agrees_tuple_ofList ha (fun name => by rw [hnames, hws]) hagrees, fun t rest => ?_⟩
  obtain ⟨t', ht⟩ := hdec t []
  rw [List.append_nil] at ht
  refine ⟨t', ?_⟩
  rw [decode]
  refine Outcome.run_bind.2 ⟨items, (t, rest), rfl, ?_⟩
  exact Outcome.run_bind.2 ⟨ws, (t', rest), run_within.2 ⟨rfl, [], ht⟩, rfl⟩

/-! ## All types -/

/-- Whatever a proper value is encoded into carries it. -/
theorem carries_encode (hcodec : codec.Inverse) (h : Proper type v) :
    Sound v → ∀ {name s item s'}, (encode codec name type v).run s = .ok item s' →
      Carries codec name type v item := by
  induction h with
  | absent =>
    intro _ name s item s' henc
    rw [encode] at henc
    cases henc
    exact ⟨fun _ => rfl, .null, agrees_self _, fun t rest => ⟨t, by rw [decode]; rfl⟩⟩
  | present hne h ih =>
    intro hs name s item s' henc
    rw [encode_optional hne] at henc
    exact carries_present hne (ih hs henc)
  | int h =>
    intro _ name s item s' henc
    rw [encode] at henc
    obtain ⟨_, _, -, henc⟩ := Outcome.run_bind.1 henc
    cases henc
    exact carries_of_eq nofun fun t rest => by rw [decode]; rfl
  | bool b =>
    intro _ name s item s' henc
    rw [encode] at henc
    cases henc
    exact carries_bool b
  | string text =>
    intro _ name s item s' henc
    rw [encode] at henc
    exact carries_cell hcodec (.string text) (AbiType.not_isArray_string name) (by rw [decode]) henc
  | bytes h =>
    intro _ name s item s' henc
    rw [encode] at henc
    exact carries_cell hcodec (.bytes h) (AbiType.not_isArray_bytes name _) (by rw [decode]) henc
  | cell hc hsize =>
    intro _ name s item s' henc
    rw [encode] at henc
    cases henc
    exact carries_of_eq nofun fun t rest => by rw [decode]; rfl
  | noAddress strict =>
    intro _ name s item s' henc
    exact carries_noAddress henc
  | address h =>
    intro _ name s item s' henc
    exact carries_address h henc
  | array h ih =>
    intro hs name s item s' henc
    exact carries_array hcodec (.array h) hs.1 henc
  | map hdistinct hnull hkey hvalue ihkey ihvalue =>
    intro _ name s item s' henc
    rw [encode] at henc
    exact carries_cell hcodec (.map hdistinct hnull hkey hvalue) (AbiType.not_isArray_map name _ _)
      (by rw [decode]) henc
  | tuple ha hnames h ih =>
    intro hs name s item s' henc
    have hsound := soundFields_iff.1 hs.2
    exact carries_tuple ha hnames
      (fun name type v hc hv s item s' henc => ih name type v hc hv (hsound _ hv) henc) henc

/-! ## Lists of arguments -/

/-- A named value with its type. -/
structure Argument where
  name : String
  type : AbiType
  value : Value

/-- Encodes arguments in order, one item each. -/
def encodeAll (codec : Codec σ) (args : List Argument) : Encode σ (List Item) :=
  args.mapM fun a => encode codec a.name a.type a.value

/-- Decodes the values of arguments in order, from one list of items. -/
def decodeAll (codec : Codec σ) (args : List Argument) : Decode σ (List Value) :=
  args.mapM fun a => decode codec a.name a.type

theorem run_decodeAll (hcodec : codec.Inverse) {args : List Argument}
    (hproper : ∀ a ∈ args, Proper a.type a.value) (hsound : ∀ a ∈ args, Sound a.value) {s s' : σ}
    {items : List Item}
    (henc : (encodeAll codec args).run s = .ok items s') (t : σ) (rest : List Item) :
    ∃ values t', (decodeAll codec args).run (t, items ++ rest) = .ok values (t', rest) ∧
      Agrees (.array (args.map Argument.value)) (.array values) := by
  induction args generalizing s items t with
  | nil =>
    cases henc
    exact ⟨[], t, rfl, agrees_self _⟩
  | cons a args ih =>
    rw [encodeAll, List.mapM_cons] at henc
    obtain ⟨item, mid, hitem, henc⟩ := Outcome.run_bind.1 henc
    obtain ⟨more, last, hmore, henc⟩ := Outcome.run_bind.1 henc
    cases henc
    obtain ⟨w, hagrees, hdec⟩ :=
      (carries_encode hcodec (hproper a List.mem_cons_self) (hsound a List.mem_cons_self)
        hitem).decodes
    obtain ⟨t₁, h₁⟩ := hdec t (more ++ rest)
    obtain ⟨values, t₂, h₂, hrest⟩ := ih (fun a ha => hproper a (List.mem_cons_of_mem _ ha))
      (fun a ha => hsound a (List.mem_cons_of_mem _ ha)) hmore t₁
    refine ⟨w :: values, t₂, ?_, agrees_array_cons hagrees hrest⟩
    rw [decodeAll, List.mapM_cons]
    refine Outcome.run_bind.2 ⟨w, (t₁, more ++ rest), h₁, ?_⟩
    exact Outcome.run_bind.2 ⟨values, (t₂, rest), h₂, rfl⟩

/-- Arguments of whatever types that were encoded in order are decoded in order, whatever items
follow theirs: every value is equal to the one it was encoded from, and exactly the items that
follow are left. -/
theorem decodeAll_encodeAll (hcodec : codec.Inverse) {args : List Argument}
    (hconforms : ∀ a ∈ args, conforms a.type a.value = .ok ())
    (hdeclared : ∀ a ∈ args, Declared a.type a.value) (hsound : ∀ a ∈ args, Sound a.value)
    {s s' : σ} {items : List Item} (henc : (encodeAll codec args).run s = .ok items s') (t : σ)
    (rest : List Item) :
    ∃ values t', (decodeAll codec args).run (t, items ++ rest) = .ok values (t', rest) ∧
      equalItems values (args.map Argument.value) = true ∧
      equalItems (args.map Argument.value) values = true := by
  have hproper : ∀ a ∈ args, Proper a.type a.value := fun a ha =>
    proper_of_conforms (hconforms a ha) (hdeclared a ha) (hsound a ha).regular
  obtain ⟨values, t', hrun, hagrees⟩ := run_decodeAll hcodec hproper hsound henc t rest
  unfold Agrees at hagrees
  simp only [equal] at hagrees
  exact ⟨values, t', hrun, hagrees.2, hagrees.1⟩

/-- A service that knows one array of strings: the cell of each string refers to the next one. -/
def strings : Codec Unit where
  encode _ json _ :=
    match json with
    | .array [.string "a", .string "b"] => (.ok (.node [0x61] 8 [.node [0x62] 8 []]), ())
    | _ => (.error ⟨"encode", "unknown value"⟩, ())
  decode _ c _ :=
    if c = .node [0x61] 8 [.node [0x62] 8 []] ∨ c = .counted 2 (.node [0x61] 8 [.node [0x62] 8 []])
      then (.ok (.array [.string "a", .string "b"]), ())
    else (.error ⟨"decode", "unknown cell"⟩, ())
  decodeState _ _ _ := (.error ⟨"decode", "unknown contract"⟩, ())

theorem inverse_strings : strings.Inverse where
  decode_encode {p json c s t} hp h := by
    simp only [strings] at h
    split at h
    · cases h
      rfl
    · cases h
  decode_counted {p items c s t} hp hcount h := by
    simp only [strings] at h
    split at h
    · next heq =>
      cases h
      cases heq
      exact congrArg Prod.fst (if_pos (.inr rfl))
    · cases h

/-- An absent map, an array and a tuple. -/
def mixed : List Argument := [
  ⟨"limits", .optional (.map (.uint 8) .bool), .null⟩,
  ⟨"tags", .array .string, .array [.string "a", .string "b"]⟩,
  ⟨"state", .tuple [("ok", .bool), ("count", .uint 16)],
    .tuple [("count", .int 77), ("ok", .bool true)]⟩]

theorem decodeAll_encodeAll_mixed :
    ∃ values t', (decodeAll strings mixed).run ((), [.null,
        .tuple [.int 2, .cell (.node [0x61] 8 [.node [0x62] 8 []])],
        .tuple [.int (-1), .int 77]] ++ [.int 5]) = .ok values (t', [.int 5]) ∧
      equalItems values (mixed.map Argument.value) = true ∧
      equalItems (mixed.map Argument.value) values = true := by
  have hconforms : ∀ a ∈ mixed, conforms a.type a.value = .ok () := by
    intro a ha
    simp only [mixed, List.mem_cons, List.not_mem_nil, or_false] at ha
    rcases ha with rfl | rfl | rfl <;> rfl
  have hdeclared : ∀ a ∈ mixed, Declared a.type a.value := by
    simp [mixed, Declared, DeclaredAll, AbiType.uint, or_comm]
  have hsound : ∀ a ∈ mixed, Sound a.value := by
    have hnames : compare "count" "ok" = .lt := by decide
    simp [mixed, Sound, SoundItems, SoundFields, Sorted.Ascending, hnames]
  have henc : (encodeAll strings mixed).run () = .ok [.null,
      .tuple [.int 2, .cell (.node [0x61] 8 [.node [0x62] 8 []])],
      .tuple [.int (-1), .int 77]] () := rfl
  exact decodeAll_encodeAll inverse_strings hconforms hdeclared hsound henc () [.int 5]

end CellAbi.Wire
