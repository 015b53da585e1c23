import CellAbi.Proofs.AbiType.Legal
import CellAbi.Proofs.Address.Raw
import CellAbi.Proofs.Native.Key
import CellAbi.Proofs.Native.Order
import CellAbi.Proofs.Value.Reading

/-!
# Spellings of map keys

The names of an object differ, but two of them may spell one key: integers may be hexadecimal or
have leading zeros, hexadecimal digits have two cases, and addresses several texts.  A map that is
read has one entry for each member, so it has a key twice exactly where the object spells it twice.
What a name spells is told by the numerals, digits and address texts alone, and is what it is read
as; only integers are read from more texts than denote one, and nothing is said of those.

    ofJson key (.string text) = .ok k → Ordinary key text → Spelled key text k
                                                                              (`spelled_of_ofJson`)
    SameKey key a b ↔ k = l   where `a` spells `k` and `b` spells `l`               (`sameKey_iff`)
    ofJson type json = .ok v → Part (map entries) v → ∃ key value members, …     (`keys_of_ofJson`)
-/

namespace CellAbi

open Text

/-! ## Parts of JSON values -/

namespace Json

/-- The first value is the second one or stands in it. -/
inductive Part : Json → Json → Prop
  | self (json : Json) : Part json json
  | item {j item : Json} {items : List Json} (h : item ∈ items) (hj : Part j item) :
    Part j (array items)
  | member {j : Json} {m : String × Json} {members : List (String × Json)} (h : m ∈ members)
    (hj : Part j m.2) : Part j (object members)

/-- In every object, at any depth, the members are sorted and no name occurs twice. -/
def Sound (json : Json) : Prop :=
  ∀ members, Part (object members) json → Sorted.Ascending members

end Json

namespace Value

variable {type key value : AbiType} {v k : Value} {json : Json} {text : String}

/-! ## Keys and their texts -/

theorem integer_of_text {signed : Bool} {width : IntWidth}
    (h : ofJson (.integer signed width) (.string text) = .ok v) :
    ∃ i, integerOfText (trim text.toList) = .ok i ∧ v = int i := by
  rw [ofJson] at h
  obtain ⟨i, hi, h⟩ := Outcome.bind_eq_ok.1 h
  obtain ⟨_, -, rfl⟩ := Outcome.bind_pure_eq_ok.1 h
  exact ⟨i, Outcome.mapError_eq_ok.1 hi, rfl⟩

theorem bool_of_text (h : ofJson .bool (.string text) = .ok v) :
    ∃ b : Bool, text = (if b then "true" else "false") ∧ v = bool b := by
  obtain ⟨b, hb, rfl⟩ := Outcome.map_eq_ok.1 h
  refine ⟨b, ?_, rfl⟩
  unfold boolOfJson at hb
  split at hb
  · next heq => cases heq
  · next heq =>
    obtain rfl := Except.ok.inj hb
    exact Json.string.inj heq
  · next heq =>
    obtain rfl := Except.ok.inj hb
    exact Json.string.inj heq
  · cases hb

theorem bytes_of_text {length : Option Nat} (h : ofJson (.bytes length) (.string text) = .ok v) :
    ∃ b, Hex.decode text = .ok b ∧ v = bytes b := by
  obtain ⟨b, hb, rfl⟩ := Outcome.map_eq_ok.1 h
  refine ⟨b, ?_, rfl⟩
  obtain ⟨_, ht, hb⟩ := Outcome.bind_eq_ok.1 hb
  obtain rfl := Except.ok.inj ht
  obtain ⟨read, hread, hb⟩ := Outcome.bind_eq_ok.1 hb
  have heq : read = b := by
    cases length with
    | none => exact Except.ok.inj hb
    | some n =>
      dsimp only at hb
      split at hb
      · cases hb
      · exact Except.ok.inj hb
  rw [← heq]
  exact Outcome.mapError_eq_ok.1 hread

theorem address_of_text {strict : Bool} (h : ofJson (.address strict) (.string text) = .ok v) :
    ∃ a, Address.ofText text = .ok a ∧ v = address a := by
  rw [ofJson, addressOfJson] at h
  obtain ⟨_, ht, h⟩ := Outcome.bind_eq_ok.1 h
  obtain rfl := Except.ok.inj ht
  obtain ⟨a, ha, rfl⟩ := Outcome.bind_pure_eq_ok.1 h
  have ha := Outcome.mapError_eq_ok.1 ha
  refine ⟨a, ?_, rfl⟩
  cases strict with
  | false => exact ha
  | true =>
    obtain ⟨s, hs, rfl⟩ := Outcome.map_eq_ok.1 ha
    exact Address.ofText_eq_ok_iff.2 (StandardAddress.ofRaw_eq_ok_iff.1 hs)

/-- A text that spells a key, and the key. -/
inductive Spelled : AbiType → String → Value → Prop
  /-- Decimal or hexadecimal digits, between blanks and with a minus or without. -/
  | integer {signed : Bool} {width : IntWidth} {text : String} {i : Int} :
    Denotes (trim text.toList) i → Spelled (.integer signed width) text (int i)
  | bool (b : Bool) : Spelled .bool (if b then "true" else "false") (bool b)
  | string (text : String) : Spelled .string text (string text)
  /-- Two hexadecimal digits for each byte, in either case. -/
  | bytes {length : Option Nat} {text : String} {b : List UInt8} :
    text.toList.map Char.toLower = Hex.encodeChars b → Spelled (.bytes length) text (bytes b)
  /-- A raw or a compact text. -/
  | address {strict : Bool} {text : String} {a : Address} :
    a.IsForm text.toList → Spelled (.address strict) text (address a)

/-- The text denotes an integer, with no sign or separator to spare, if the key is to be one. -/
def Ordinary : AbiType → String → Prop
  | .integer .., text => ∃ i, Denotes (trim text.toList) i
  | _, _ => True

/-- Two texts spell one key of a scalar type. -/
def SameKey (key : AbiType) (a b : String) : Prop := ∃ k, Spelled key a k ∧ Spelled key b k

theorem Spelled.unique {l : Value} (hk : Spelled key text k) (hl : Spelled key text l) : k = l := by
  cases hk with
  | integer hi =>
    cases hl with | integer hj =>
    have hread := integerOfText_eq_ok_iff.2 hi.spells
    rw [integerOfText_eq_ok_iff.2 hj.spells] at hread
    rw [Except.ok.inj hread]
  | bool b =>
    generalize htext : (if b then "true" else "false") = text at hl
    cases hl with | bool c =>
    have hinj : ∀ b c : Bool, (if b then "true" else "false") = (if c then "true" else "false") →
      b = c := by decide
    rw [hinj b c htext]
  | string =>
    cases hl
    rfl
  | bytes hb =>
    cases hl with | bytes hc =>
    have hread := Hex.decodeChars_iff.2 hb
    rw [Hex.decodeChars_iff.2 hc] at hread
    rw [Except.ok.inj hread]
  | address ha =>
    cases hl with | address hb =>
    have hread := Address.ofText_eq_ok_iff.2 ha
    rw [Address.ofText_eq_ok_iff.2 hb] at hread
    rw [Except.ok.inj hread]

/-- A key is read from texts that spell it. -/
theorem spelled_of_ofJson (hscalar : key.isScalarKey = true)
    (h : ofJson key (.string text) = .ok k) (hordinary : Ordinary key text) :
    Spelled key text k := by
  cases key with
  | integer =>
    obtain ⟨i, hi, rfl⟩ := integer_of_text h
    obtain ⟨j, hj⟩ := hordinary
    rw [integerOfText_eq_ok_iff.2 hj.spells] at hi
    rw [← Except.ok.inj hi]
    exact .integer hj
  | bool =>
    obtain ⟨b, rfl, rfl⟩ := bool_of_text h
    exact .bool b
  | string =>
    obtain rfl := Except.ok.inj h
    exact .string text
  | bytes =>
    obtain ⟨b, hb, rfl⟩ := bytes_of_text h
    exact .bytes (Hex.decodeChars_iff.1 hb)
  | address =>
    obtain ⟨a, ha, rfl⟩ := address_of_text h
    exact .address (Address.ofText_eq_ok_iff.1 ha)
  | cell | array | optional | map | tuple => cases hscalar

/-- Texts spell one key iff the keys that they spell are one. -/
theorem sameKey_iff {a b : String} {l : Value} (hk : Spelled key a k) (hl : Spelled key b l) :
    SameKey key a b ↔ k = l := by
  constructor
  · rintro ⟨_, ha, hb⟩
    exact (hk.unique ha).trans (hb.unique hl)
  · rintro rfl
    exact ⟨k, hk, hl⟩

theorem isPlain_of_text (hscalar : key.isScalarKey = true)
    (h : ofJson key (.string text) = .ok k) : k.isPlain = true := by
  cases key with
  | integer =>
    obtain ⟨i, -, rfl⟩ := integer_of_text h
    rfl
  | bool =>
    obtain ⟨b, -, rfl⟩ := bool_of_text h
    rfl
  | string =>
    obtain rfl := Except.ok.inj h
    rfl
  | bytes =>
    obtain ⟨b, -, rfl⟩ := bytes_of_text h
    rfl
  | address =>
    obtain ⟨a, -, rfl⟩ := address_of_text h
    rfl
  | cell | array | optional | map | tuple => cases hscalar

/-- Plain values are equal only if they are the same. -/
theorem equal_eq_false_iff (hk : k.isPlain = true) : equal k v = false ↔ k ≠ v := by
  rw [Bool.eq_false_iff]
  refine not_congr ⟨eq_of_equal hk, ?_⟩
  rintro rfl
  exact equal_self k

/-! ## Maps and their objects -/

theorem entryOfMember_eq_ok {m : String × Json} {e : Value × Value} :
    entryOfMember key value m = .ok e ↔
      ofJson key (.string m.1) = .ok e.1 ∧ ofJson value m.2 = .ok e.2 := by
  rw [entryOfMember, Outcome.bind_eq_ok]
  simp only [Outcome.bind_pure_eq_ok]
  constructor
  · rintro ⟨k, hk, w, hw, rfl⟩
    exact ⟨hk, hw⟩
  · rintro ⟨hk, hw⟩
    exact ⟨e.1, hk, e.2, hw, rfl⟩

theorem ofJson_map_eq_ok :
    ofJson (.map key value) json = .ok v ↔
      ∃ members entries, json = .object members ∧
        members.mapM (entryOfMember key value) = .ok entries ∧ v = map entries := by
  constructor
  · intro h
    cases json with
    | object members =>
      rw [ofJson_map] at h
      obtain ⟨entries, hentries, rfl⟩ := Outcome.map_eq_ok.1 h
      exact ⟨members, entries, rfl, hentries, rfl⟩
    | _ => cases h
  · rintro ⟨members, entries, rfl, hentries, rfl⟩
    rw [ofJson_map, hentries]
    rfl

/-- The map is read from an object that stands in the JSON value. -/
structure ReadFrom (json : Json) (entries : List (Value × Value)) (key value : AbiType)
    (members : List (String × Json)) : Prop where
  scalar : key.isScalarKey = true
  part : Json.Part (.object members) json
  read : ofJson (.map key value) (.object members) = .ok (map entries)

theorem Part.eq_of_isPlain {w : Value} (h : Part w v) (hv : v.isPlain = true) : w = v := by
  cases h with
  | self => rfl
  | item | key | value | field => cases hv

/-- Every map in a value that is read, at any depth, is read from an object as the type declares
it.  By the type. -/
theorem exists_readFrom (hlegal : type.Legal) : ∀ {json v}, ofJson type json = .ok v →
    ∀ {entries}, Part (map entries) v → ∃ key value members,
      Typed (.map key value) (map entries) type v ∧ ReadFrom json entries key value members := by
  induction hlegal with
  | integer =>
    intro json v h entries hpart
    rw [ofJson] at h
    obtain ⟨i, -, h⟩ := Outcome.bind_eq_ok.1 h
    obtain ⟨_, -, rfl⟩ := Outcome.bind_pure_eq_ok.1 h
    cases hpart
  | bool =>
    intro json v h entries hpart
    obtain ⟨b, -, rfl⟩ := Outcome.map_eq_ok.1 h
    cases hpart
  | string =>
    intro json v h entries hpart
    obtain ⟨s, -, rfl⟩ := Outcome.map_eq_ok.1 h
    cases hpart
  | bytes =>
    intro json v h entries hpart
    obtain ⟨b, -, rfl⟩ := Outcome.map_eq_ok.1 h
    cases hpart
  | cell =>
    intro json v h entries hpart
    obtain ⟨_, -, h⟩ := Outcome.bind_eq_ok.1 h
    obtain ⟨c, -, rfl⟩ := Outcome.bind_pure_eq_ok.1 h
    cases hpart
  | address =>
    intro json v h entries hpart
    obtain ⟨-, rfl⟩ | ⟨a, rfl, -⟩ := addressOfJson_eq_ok h
    · cases hpart
    · cases hpart
  | array _ ih =>
    intro json v h entries hpart
    cases json with
    | array items =>
      obtain ⟨vs, hvs, rfl⟩ := Outcome.map_eq_ok.1 h
      cases hpart with
      | item hmem hpart =>
        obtain ⟨j, hj, hread⟩ := (Outcome.mapM_spec hvs).2.2 _ hmem
        obtain ⟨key, value, members, htyped, hfrom⟩ := ih hread hpart
        exact ⟨key, value, members, .item hmem htyped, hfrom.scalar, .item hj hfrom.part,
          hfrom.read⟩
    | _ => cases h
  | optional _ ih =>
    intro json v h entries hpart
    by_cases hne : json = .null
    · rw [hne, ofJson] at h
      obtain rfl := Except.ok.inj h
      cases hpart
    · rw [ofJson_optional _ hne] at h
      obtain ⟨key, value, members, htyped, hfrom⟩ := ih h hpart
      have hnull : v ≠ null := by
        rintro rfl
        cases hpart
      exact ⟨key, value, members, .inner hnull htyped, hfrom⟩
  | @map key value hscalar _ _ _ ih =>
    intro json v h entries hpart
    obtain ⟨members, all, rfl, hall, rfl⟩ := ofJson_map_eq_ok.1 h
    cases hpart with
    | self => exact ⟨key, value, members, .self, hscalar, .self _, h⟩
    | key hmem hpart =>
      obtain ⟨m, -, hm⟩ := (Outcome.mapM_spec hall).2.2 _ hmem
      have hplain := isPlain_of_text hscalar (entryOfMember_eq_ok.1 hm).1
      rw [← hpart.eq_of_isPlain hplain] at hplain
      cases hplain
    | value hmem hpart =>
      obtain ⟨m, hmember, hm⟩ := (Outcome.mapM_spec hall).2.2 _ hmem
      obtain ⟨key, value, members, htyped, hfrom⟩ := ih (entryOfMember_eq_ok.1 hm).2 hpart
      exact ⟨key, value, members, .value hmem htyped, hfrom.scalar, .member hmember hfrom.part,
        hfrom.read⟩
  | tuple _ _ ih =>
    intro json v h entries hpart
    cases json with
    | object members =>
      rw [ofJson, fieldsOfJson_eq] at h
      obtain ⟨fields, hfields, rfl⟩ := Outcome.bind_pure_eq_ok.1 h
      cases hpart with
      | field hmem hpart =>
        obtain ⟨c, hc, hread⟩ := (Outcome.mapM_spec hfields).2.2 _ (Sorted.mem_ofList hmem)
        obtain ⟨hname, j, hj, hread⟩ := fieldOfComponent_eq_ok hread
        obtain ⟨key, value, members, htyped, hfrom⟩ := ih c hc hread hpart
        have hlookup := (Sorted.lookup_eq_some (Sorted.ascending_ofList fields)).2 hmem
        rw [hname] at hlookup
        exact ⟨key, value, members, .field hc hlookup htyped, hfrom.scalar,
          .member hj hfrom.part, hfrom.read⟩
    | _ => cases h

section
variable {entries : List (Value × Value)} {members : List (String × Json)}

/-- Keys differ where what the names tell makes them differ. -/
theorem ReadFrom.pairwise_keys {R : String × Json → String × Json → Prop}
    (h : ReadFrom json entries key value members)
    (hR : ∀ m ∈ members, ∀ n ∈ members, ∀ k l, ofJson key (.string m.1) = .ok k →
      ofJson key (.string n.1) = .ok l → (R m n ↔ k ≠ l)) :
    entries.Pairwise (fun e f => equal e.1 f.1 = false) ↔ members.Pairwise R := by
  obtain ⟨_, _, hmembers, hentries, hmap⟩ := ofJson_map_eq_ok.1 h.read
  cases hmembers
  cases hmap
  refine (Outcome.pairwise_mapM hentries fun m hm n hn e f he hf => ?_).symm
  have hk := (entryOfMember_eq_ok.1 he).1
  rw [hR m hm n hn e.1 f.1 hk (entryOfMember_eq_ok.1 hf).1,
    equal_eq_false_iff (isPlain_of_text h.scalar hk)]

/-- A key occurs twice iff the object spells it twice. -/
theorem ReadFrom.pairwise_iff (h : ReadFrom json entries key value members)
    (hordinary : ∀ m ∈ members, Ordinary key m.1) :
    entries.Pairwise (fun e f => equal e.1 f.1 = false) ↔
      members.Pairwise fun m n => ¬ SameKey key m.1 n.1 :=
  h.pairwise_keys fun m hm n hn _ _ hk hl =>
    not_congr (sameKey_iff (spelled_of_ofJson h.scalar hk (hordinary m hm))
      (spelled_of_ofJson h.scalar hl (hordinary n hn)))

theorem ReadFrom.length_eq (h : ReadFrom json entries key value members) :
    entries.length = members.length := by
  obtain ⟨_, _, hmembers, hentries, hmap⟩ := ofJson_map_eq_ok.1 h.read
  cases hmembers
  cases hmap
  exact (Outcome.mapM_spec hentries).1

/-- The text is the one that the key it spells is written as. -/
def Written (key : AbiType) (text : String) : Prop :=
  ∃ k, ofJson key (.string text) = .ok k ∧ keyText k = .ok text

/-- Truth values and texts are read only from what they are written as. -/
theorem written_of_ofJson (hkey : key = .bool ∨ key = .string)
    (h : ofJson key (.string text) = .ok k) : Written key text := by
  refine ⟨k, h, ?_⟩
  obtain rfl | rfl := hkey
  · obtain ⟨b, rfl, rfl⟩ := bool_of_text h
    rfl
  · obtain rfl := Except.ok.inj h
    rfl

/-- Names that are written differ as the keys do. -/
theorem ReadFrom.pairwise_of_written (h : ReadFrom json entries key value members)
    (hwritten : ∀ m ∈ members, Written key m.1) (hnames : members.Pairwise fun m n => m.1 ≠ n.1) :
    entries.Pairwise fun e f => equal e.1 f.1 = false := by
  refine (h.pairwise_keys fun m hm n hn k l hk hl => not_congr ⟨fun heq => ?_, ?_⟩).2 hnames
  · rw [heq, hl] at hk
    exact (Except.ok.inj hk).symm
  · rintro rfl
    obtain ⟨k', hk', hmk⟩ := hwritten m hm
    obtain ⟨l', hl', hnl⟩ := hwritten n hn
    rw [← Except.ok.inj (hk.symm.trans hk')] at hmk
    rw [← Except.ok.inj (hl.symm.trans hl')] at hnl
    exact Except.ok.inj (hmk.symm.trans hnl)

theorem ReadFrom.exists_key (h : ReadFrom json entries key value members) {m : String × Json}
    (hm : m ∈ members) : ∃ k, ofJson key (.string m.1) = .ok k := by
  obtain ⟨_, _, hmembers, hentries, -⟩ := ofJson_map_eq_ok.1 h.read
  cases hmembers
  obtain ⟨e, -, he⟩ := (Outcome.mapM_spec hentries).2.1 m hm
  exact ⟨e.1, (entryOfMember_eq_ok.1 he).1⟩

/-- Converted to a native map, whatever its key and value types, the map keeps all entries iff no
two of its keys are equal. -/
theorem ReadFrom.length_ofValue_iff (h : ReadFrom json entries key value members) (k : KeyType)
    {α : Type} [OfValue α] {m : SortedMap k.Carrier α}
    (hm : OfValue.ofValue (map entries) (.map key value) = .ok m) :
    m.entries.length = entries.length ↔
      entries.Pairwise fun e f => equal e.1 f.1 = false := by
  obtain ⟨es, hes, rfl⟩ := ofValue_map_eq_ok.1 hm
  obtain ⟨_, _, hmembers, hentries, hmap⟩ := ofJson_map_eq_ok.1 h.read
  cases hmembers
  cases hmap
  show (Sorted.ofList es).length = _ ↔ _
  rw [← (Outcome.mapM_spec hes).1, Sorted.length_ofList_iff]
  refine (Outcome.pairwise_mapM hes fun e he f _ p q hp hq => ?_).symm
  obtain ⟨n, -, hn⟩ := (Outcome.mapM_spec hentries).2.2 e he
  have hplain := isPlain_of_text h.scalar (entryOfMember_eq_ok.1 hn).1
  have hpk := (ofEntry_eq_ok.1 hp).1
  have hqk := (ofEntry_eq_ok.1 hq).1
  rw [equal_eq_false_iff hplain]
  refine not_congr ⟨fun heq => ?_, fun heq => ?_⟩
  · rw [heq, hqk] at hpk
    exact (Except.ok.inj hpk).symm
  · rw [heq] at hpk
    exact AbiType.eq_of_ofValue_key k h.scalar hpk hqk

end

/-- What is read from JSON has, in every map at any depth, one entry for each member of the object
that the map is read from.  Two of its keys are equal iff two names of the object spell one key,
where the names of integer keys denote integers, with no sign or separator to spare.  Texts and
truth values have one spelling, and every key has one that is written, so that keys differ where
they are of these types or their names are all written.  A native map keeps all entries exactly
where keys differ. -/
theorem keys_of_ofJson {d : String} {cs : Option (List Param)}
    (hparse : AbiType.parse d cs = .ok type) (hsound : json.Sound)
    (hread : ofJson type json = .ok v) :
    ∀ entries, Part (map entries) v → ∃ key value members,
      Typed (.map key value) (map entries) type v ∧ ReadFrom json entries key value members ∧
      entries.length = members.length ∧
      ((∀ m ∈ members, Ordinary key m.1) →
        (entries.Pairwise (fun e f => equal e.1 f.1 = false) ↔
          members.Pairwise fun m n => ¬ SameKey key m.1 n.1)) ∧
      (key = .bool ∨ key = .string ∨ (∀ m ∈ members, Written key m.1) →
        entries.Pairwise fun e f => equal e.1 f.1 = false) ∧
      ∀ (k : KeyType) (t : NativeType) (m : SortedMap k.Carrier t.Carrier),
        OfValue.ofValue (map entries) (.map key value) = .ok m →
          (m.entries.length = entries.length ↔
            entries.Pairwise fun e f => equal e.1 f.1 = false) := by
  intro entries hpart
  obtain ⟨key, value, members, htyped, hfrom⟩ :=
    exists_readFrom (AbiType.legal_of_parse hparse) hread hpart
  have hnames : members.Pairwise fun m n => m.1 ≠ n.1 :=
    List.pairwise_map.1 (Sorted.nodup_keys (hsound members hfrom.part))
  have hwritten : key = .bool ∨ key = .string ∨ (∀ m ∈ members, Written key m.1) →
      ∀ m ∈ members, Written key m.1 := by
    rintro (hkey | hkey | hwritten) m hm
    · exact written_of_ofJson (.inl hkey) (hfrom.exists_key hm).choose_spec
    · exact written_of_ofJson (.inr hkey) (hfrom.exists_key hm).choose_spec
    · exact hwritten m hm
  exact ⟨key, value, members, htyped, hfrom, hfrom.length_eq, hfrom.pairwise_iff,
    fun h => hfrom.pairwise_of_written (hwritten h) hnames,
    fun k t m hm => hfrom.length_ofValue_iff k hm⟩

/-- An object with two names. -/
def named (first second : String) : Json := .object [(first, .bool false), (second, .bool true)]

theorem part_named {first second : String} {members : List (String × Json)}
    (h : Json.Part (.object members) (named first second)) :
    members = [(first, .bool false), (second, .bool true)] := by
  cases h with
  | self => rfl
  | member hmem h =>
    obtain rfl | hmem := List.mem_cons.1 hmem
    · cases h
    · rw [List.mem_singleton.1 hmem] at h
      cases h

theorem sound_named {first second : String} (hlt : compare first second = .lt) :
    (named first second).Sound := by
  intro members hpart
  rw [part_named hpart]
  refine .cons (fun e he => ?_) (List.pairwise_singleton _ _)
  rwa [List.mem_singleton.1 he]

theorem keys_of_ofJson_named :
    ∃ type v, AbiType.parse "map(uint8,bool)" none = .ok type ∧ (named "007" "0X8").Sound ∧
      ofJson type (named "007" "0X8") = .ok v ∧
      ∀ entries, Part (map entries) v → entries.Pairwise fun e f => equal e.1 f.1 = false := by
  have hparse : AbiType.parse "map(uint8,bool)" none = .ok (.map (.uint 8) .bool) :=
    AbiType.ofDescriptor_map rfl (AbiType.ofDescriptor_plain rfl) rfl
      (AbiType.ofDescriptor_plain rfl)
  have hsound : (named "007" "0X8").Sound := sound_named (by decide)
  have hread : ofJson (.map (.uint 8) .bool) (named "007" "0X8") =
      .ok (map [(int 7, bool false), (int 8, bool true)]) := rfl
  refine ⟨_, _, hparse, hsound, hread, fun entries hpart => ?_⟩
  obtain ⟨key, value, members, htyped, hfrom, -, hiff, -⟩ :=
    keys_of_ofJson hparse hsound hread entries hpart
  have hkey : key = .uint 8 := by
    cases htyped with
    | self => rfl
    | key _ h | value _ h => cases h
  have hseven : Denotes (trim "007".toList) 7 :=
    ⟨([], 1), by decide, ([], 10), by decide, ['0', '0', '7'], by decide, by decide, rfl, rfl⟩
  have height : Denotes (trim "0X8".toList) 8 :=
    ⟨([], 1), by decide, (['0', 'X'], 16), by decide, ['8'], by decide, by decide, rfl, rfl⟩
  obtain rfl := part_named hfrom.part
  subst hkey
  have hordinary : ∀ m ∈ [("007", Json.bool false), ("0X8", Json.bool true)],
      Ordinary (.uint 8) m.1 :=
    List.forall_mem_cons.2 ⟨⟨7, hseven⟩, List.forall_mem_singleton.2 ⟨8, height⟩⟩
  rw [hiff hordinary]
  refine .cons (fun m hm => ?_) (List.pairwise_singleton _ _)
  rw [List.mem_singleton.1 hm]
  show ¬ SameKey (.integer false (.fixed 8)) "007" "0X8"
  rw [sameKey_iff (.integer hseven) (.integer height), int.injEq]
  decide

/-- The same number twice. -/
theorem keys_of_doubled_spelling :
    ∃ type entries, AbiType.parse "map(uint8,bool)" none = .ok type ∧ (named "07" "7").Sound ∧
      ofJson type (named "07" "7") = .ok (map entries) ∧
      (¬ entries.Pairwise fun e f => equal e.1 f.1 = false) ∧
      ∃ m : SortedMap Int Bool,
        OfValue.ofValue (map entries) type = .ok m ∧ m.entries.length < entries.length := by
  have hparse : AbiType.parse "map(uint8,bool)" none = .ok (.map (.uint 8) .bool) :=
    AbiType.ofDescriptor_map rfl (AbiType.ofDescriptor_plain rfl) rfl
      (AbiType.ofDescriptor_plain rfl)
  have hread : ofJson (.map (.uint 8) .bool) (named "07" "7") =
      .ok (map [(int 7, bool false), (int 7, bool true)]) := rfl
  refine ⟨_, _, hparse, sound_named (by decide), hread, ?_, _, rfl, by decide⟩
  simp [equal]

end Value

end CellAbi
