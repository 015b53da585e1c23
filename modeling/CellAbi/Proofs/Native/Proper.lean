import CellAbi.Proofs.Native.RoundTrip
import CellAbi.Proofs.Value.Json

/-!
# Native values of sound cells

A native value at the native type of a type is converted to a proper value of the type, if its cells
are in normal form and written in 32 bits and if nothing of it stays dynamic.  So it can be written
as JSON, and what is read back from there is converted to it again.

    SoundCells type.native x → toValue x type = .ok v → Proper type v              (`yields_native`)
    … → toJson v = .ok json → ∃ w, ofJson type json = .ok w ∧ ofValue w type = .ok x
                                                                            (`ofValue_ofJson_toJson`)
-/

namespace CellAbi

open ToValue OfValue Value

namespace NativeType

mutual

/-- All cells of a native value are in normal form and have few enough cells to be written. -/
def SoundCells : (t : NativeType) → t.Carrier → Prop
  | cell, c => c.Normal ∧ c.size < 2 ^ 32
  | value, v => ∀ c, Part (.cell c) v → c.Normal ∧ c.size < 2 ^ 32
  | option type, x => ∀ a, x = some a → SoundCells type a
  | list element, xs => ∀ a ∈ xs, SoundCells element a
  | map _ type, m => ∀ e ∈ m.entries, SoundCells type e.2
  | tuple types, xs => SoundCellsAll types xs
  | integer, _ | byte, _ | bool, _ | text, _ | address, _ | standardAddress, _ => True

def SoundCellsAll : (ts : List NativeType) → Carriers ts → Prop
  | [], _ => True
  | type :: rest, (x, xs) => SoundCells type x ∧ SoundCellsAll rest xs

end

end NativeType

/-- Native values with the property are converted to proper values of the type. -/
def Yields (α : Type) [ToValue α] (S : α → Prop) (type : AbiType) : Prop :=
  ∀ (x : α) (v : Value), S x → toValue x type = .ok v → Proper type v

variable {α κ : Type} {type inner key : AbiType}

/-! ## Plain types -/

theorem Yields.int {S : Int → Prop} (signed : Bool) (width : IntWidth) :
    Yields Int S (.integer signed width) := by
  intro x v _ hx
  obtain ⟨hcheck, rfl⟩ := toValue_int_eq_ok.1 hx
  exact .int hcheck

theorem Yields.bool {S : Bool → Prop} : Yields Bool S .bool := by
  intro x v _ hx
  obtain rfl := Except.ok.inj hx
  exact .bool x

theorem Yields.string {S : String → Prop} : Yields String S .string := by
  intro x v _ hx
  obtain rfl := Except.ok.inj hx
  exact .string x

theorem Yields.bytes {S : List UInt8 → Prop} (length : Option Nat) :
    Yields (List UInt8) S (.bytes length) := by
  intro x v _ hx
  obtain ⟨hconforms, rfl⟩ := toValue_bytes_eq_ok.1 hx
  exact .bytes (conforms_bytes.1 hconforms)

theorem Yields.cell : Yields Cell (fun c => c.Normal ∧ c.size < 2 ^ 32) .cell := by
  intro x v hsound hx
  obtain rfl := Except.ok.inj hx
  exact .cell hsound.1 hsound.2

theorem Yields.address {S : Address → Prop} (strict : Bool) :
    Yields Address S (.address strict) := by
  intro x v _ hx
  obtain ⟨hconforms, rfl⟩ := toValue_value_eq_ok.1 hx
  exact .address (conforms_address.1 hconforms)

theorem Yields.standardAddress {S : StandardAddress → Prop} (strict : Bool) :
    Yields StandardAddress S (.address strict) := fun x v _ hx =>
  Yields.address (S := fun _ => True) strict (.standard x) v trivial hx

/-! ## Composite types -/

theorem Yields.optional [ToValue α] {S : α → Prop} (h : Yields α S inner) :
    Yields (Option α) (fun x => ∀ a, x = some a → S a) (.optional inner) := by
  intro x v hsound hx
  cases x with
  | none =>
    obtain ⟨-, rfl⟩ := toValue_none_eq_ok.1 hx
    exact .absent
  | some a =>
    by_cases hne : v = .null
    · rw [hne]
      exact .absent
    · exact .present hne (h a v (hsound a rfl) hx)

theorem Yields.nullable [ToValue α] {S : α → Prop} {strict : Bool}
    (h : Yields α S (.address strict)) :
    Yields (Option α) (fun x => ∀ a, x = some a → S a) (.address strict) := by
  intro x v hsound hx
  cases x with
  | none =>
    obtain ⟨-, rfl⟩ := toValue_none_eq_ok.1 hx
    exact .noAddress strict
  | some a => exact h a v (hsound a rfl) hx

theorem Yields.list [ToValue α] {S : α → Prop} (h : Yields α S inner) :
    Yields (List α) (fun xs => ∀ a ∈ xs, S a) (.array inner) := by
  intro x v hsound hx
  obtain ⟨items, hitems, rfl⟩ := Outcome.bind_pure_eq_ok.1 hx
  refine .array fun item hi => ?_
  obtain ⟨a, ha, hitem⟩ := (Outcome.mapM_spec hitems).2.2 item hi
  exact h a item (hsound a ha) hitem

theorem Yields.map [Ord κ] [Std.TransOrd κ] [Std.LawfulEqOrd κ] [ToValue κ] [OfValue κ] [ToValue α]
    {S : α → Prop} (hround : RoundTrips κ key)
    (hplain : ∀ (k : κ) (v : Value), toValue k key = .ok v → v.isPlain = true ∧ v ≠ .null)
    (hkey : Yields κ (fun _ => True) key) (hvalue : Yields α S type) :
    Yields (SortedMap κ α) (fun m => ∀ e ∈ m.entries, S e.2) (.map key type) := by
  intro x v hsound hx
  obtain ⟨entries, hentries, rfl⟩ := toValue_map_eq_ok.1 hx
  have hentry : ∀ e ∈ entries, ∃ p ∈ x.entries, toValue p.1 key = .ok e.1 ∧
      toValue p.2 type = .ok e.2 := by
    intro e he
    obtain ⟨p, hp, hpe⟩ := (Outcome.mapM_spec hentries).2.2 e he
    exact ⟨p, hp, toEntry_eq_ok.1 hpe⟩
  have hdistinct : entries.Pairwise fun d e => equal d.1 e.1 = false := by
    have hnodup := List.pairwise_map.1 (nodup_keys_of_toEntry hround hentries)
    refine hnodup.imp_of_mem fun {d e} hd _ hne => ?_
    obtain ⟨p, -, hp, -⟩ := hentry d hd
    exact Bool.eq_false_iff.2 fun heq => hne (eq_of_equal (hplain p.1 d.1 hp).1 heq)
  refine .map hdistinct (fun e he => ?_) (fun e he => ?_) fun e he => ?_
  · obtain ⟨p, -, hk, -⟩ := hentry e he
    exact (hplain p.1 e.1 hk).2
  · obtain ⟨p, -, hk, -⟩ := hentry e he
    exact hkey p.1 e.1 trivial hk
  · obtain ⟨p, hp, -, ha⟩ := hentry e he
    exact hvalue p.2 e.2 (hsound p hp) ha

namespace NativeType

abbrev Yields (t : NativeType) (type : AbiType) : Prop :=
  CellAbi.Yields t.Carrier t.SoundCells type

/-- Each field is a proper value of the type of its component. -/
theorem proper_of_toFields {ts : List NativeType} {cs : List (String × AbiType)}
    (h : List.Forall₂ (fun t c => t.Yields c.2) ts cs) :
    ∀ {xs : Carriers ts} {fields}, SoundCellsAll ts xs → toFields ts xs cs = .ok fields →
      ∀ f ∈ fields, ∃ c ∈ cs, c.1 = f.1 ∧ Proper c.2 f.2 := by
  induction h with
  | nil =>
    intro xs fields _ hfields
    obtain rfl := Except.ok.inj hfields
    exact nofun
  | @cons t c ts cs hc _ ih =>
    rintro ⟨x, xs⟩ fields ⟨hsound, hrest⟩ hfields
    obtain ⟨v, rest, hv, hmore, rfl⟩ := toFields_cons_eq_ok.1 hfields
    refine List.forall_mem_cons.2 ⟨⟨c, List.mem_cons_self, rfl, hc x v hsound hv⟩, fun f hf => ?_⟩
    obtain ⟨d, hd, hname, hproper⟩ := ih hrest hmore f hf
    exact ⟨d, List.mem_cons_of_mem _ hd, hname, hproper⟩

end NativeType

theorem Yields.tuple {types : List NativeType} {components : List (String × AbiType)}
    (h : List.Forall₂ (fun t c => t.Yields c.2) types components)
    (hnames : components.Pairwise fun a b => a.1 ≠ b.1) :
    (NativeType.tuple types).Yields (.tuple components) := by
  intro x v hsound hx
  obtain ⟨cs, fields, hcs, hlen, hfields, rfl⟩ := NativeType.toValue_tuple_eq_ok.1 hx
  cases hcs
  have hproper := NativeType.proper_of_toFields h hsound hfields
  refine .tuple (Sorted.ascending_ofList fields) (fun name => ?_) fun name type v hc hv => ?_
  · rw [Sorted.mem_keys_ofList, NativeType.names_of_toFields hlen hfields]
  · obtain ⟨d, hd, hname, hproper⟩ := hproper _ (Sorted.mem_ofList hv)
    have hnodup : (components.map Prod.fst).Nodup := List.pairwise_map.2 hnames
    obtain rfl := List.inj_on_of_nodup_map hnodup hd hc hname
    exact hproper

/-! ## The native type of an ABI type -/

namespace AbiType

theorem yields_key {k : KeyType} (hk : key.nativeKey? = some k) :
    Yields k.Carrier (fun _ => True) key := by
  cases key with
  | integer =>
    obtain rfl := Option.some.inj hk
    exact .int _ _
  | bool =>
    obtain rfl := Option.some.inj hk
    exact .bool
  | string =>
    obtain rfl := Option.some.inj hk
    exact .string
  | bytes =>
    obtain rfl := Option.some.inj hk
    exact .bytes _
  | address =>
    obtain rfl := Option.some.inj hk
    exact .standardAddress _
  | cell | array | optional | map | tuple => cases hk

theorem yields_address : ∀ strict, (held (.address strict)).Yields (.address strict)
  | false => .address _
  | true => .standardAddress _

theorem yields_native (hlegal : type.Legal) (hnames : type.DistinctNames) (hnarrow : type.Narrow) :
    type.native.Yields type := by
  induction hlegal with
  | integer => exact .int _ _
  | bool => exact .bool
  | string => exact .string
  | bytes => exact .bytes _
  | cell => exact .cell
  | address strict =>
    rw [native_address_eq]
    exact .nullable (yields_address strict)
  | array _ ih =>
    cases hnames with | array hnames =>
    cases hnarrow with | array hnarrow =>
    exact .list (ih hnames hnarrow)
  | @optional inner _ ih =>
    cases hnames with | optional hnames =>
    cases hnarrow with | optional hnarrow =>
    rw [native_optional_eq]
    exact .optional (held_cases (P := NativeType.Yields) yields_address (ih hnames hnarrow))
  | map hscalar _ _ _ ih =>
    cases hnames with | map _ hnames =>
    cases hnarrow with | map _ hnarrow =>
    obtain ⟨k, hk⟩ := exists_nativeKey hscalar
    rw [native_map hk]
    exact .map (.of_restores (restores_key partwise_eq hk)) (fun _ _ => plain_of_key hk)
      (yields_key hk) (ih hnames hnarrow)
  | tuple _ _ ih =>
    cases hnames with | tuple hpairwise hnames =>
    cases hnarrow with | tuple hlen hnarrow =>
    rw [native_tuple hlen]
    exact .tuple (forall₂_natives fun c hc => ih c hc (hnames c hc) (hnarrow c hc)) hpairwise

/-- A native value is written as JSON and read back from there. -/
theorem ofValue_ofJson_toJson (hlegal : type.Legal) (hsingle : type.SingleOptional)
    (hnames : type.DistinctNames) (hnarrow : type.Narrow) {x : type.native.Carrier}
    (hsound : type.native.SoundCells x) {v : Value} (hx : toValue x type = .ok v) {json : Json}
    (hjson : toJson v = .ok json) : ∃ w, ofJson type json = .ok w ∧ ofValue w type = .ok x := by
  have hproper := yields_native hlegal hnames hnarrow x v hsound hx
  obtain ⟨w, hw, hagrees⟩ := hproper.readsBack json hjson
  have hrestores := restores_native partwise_agrees hlegal hsingle hnames (.inl hnarrow)
  exact ⟨w, hw, hrestores x v w hx hagrees⟩

end AbiType

end CellAbi
