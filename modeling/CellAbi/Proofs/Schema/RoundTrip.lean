import Mathlib
import CellAbi.Proofs.Schema.Records

/-!
# Schemas survive being written and read

Every record of a schema is read back from whatever stands for what is written of it, with any
members left out and parameters nested in any way.  In the other direction, what is read is written
without more nesting than there was, so that a schema that was read can be read again.

    reader.Inverts toJson r    for parameters, functions, getters and events            (`inverts`)
    reader.StaysWithin toJson levels    unless only a few levels are left           (`staysWithin`)
    c.IsWrittenAs text → ofText text = .ok c    for versions of 32 bits
    ofText text = .ok c → ofText c.toJson.compact = .ok c                        (`ofText_toJson`)
-/

namespace CellAbi

open Document Members

/-! ## Parameters -/

namespace Param

/-- What holds of a parameter if it holds of its components holds of all. -/
@[elab_as_elim]
theorem components_induction {motive : Param → Prop}
    (step : ∀ p, (∀ ps ∈ p.components, ∀ q ∈ ps, motive q) → motive p) (p : Param) : motive p := by
  refine step p fun ps hps q hq => components_induction step q
termination_by sizeOf p
decreasing_by
  obtain ⟨name, type, components, init⟩ := p
  obtain rfl := hps
  have hlt := List.sizeOf_lt_of_mem hq
  simp only [Param.mk.sizeOf_spec, Option.some.sizeOf_spec]
  omega

/-- The members of a parameter. -/
def members (p : Param) : List (String × Option Json) :=
  [("name", some (.string p.name)), ("type", some (.string p.type)),
    ("components", p.components.map paramsJson), ("init", p.init.map .bool)]

theorem toJson_eq (p : Param) : p.toJson = .ofMembers (present p.members) := by
  obtain ⟨name, type, _ | components, _ | init⟩ := p <;> rfl

theorem nodup_names (p : Param) : (p.members.map Prod.fst).Nodup := by
  show ["name", "type", "components", "init"].Nodup
  decide

theorem paramsJson_eq : paramsJson = fun ps => .array (ps.map toJson) := by
  funext ps
  have htoJsons : toJsons ps = ps.map toJson := by
    induction ps with
    | nil => rfl
    | cons p ps ih => rw [toJsons, ih, List.map_cons]
  rw [paramsJson, htoJsons]

/-! ### Reading -/

theorem read_eq_some {fuel levels : Nat} {d : Document} {p : Param} :
    read (fuel + 1) levels d = some p ↔ ∃ inner m,
      ofDocument? (p.members.map Prod.fst) levels d = some (inner, m) ∧
      required Reader.string "name" inner m = some p.name ∧
      required Reader.string "type" inner m = some p.type ∧
      withDefault (Reader.optional (Reader.list (read fuel))) none "components" inner m =
        some p.components ∧
      withDefault (Reader.optional Reader.bool) none "init" inner m = some p.init := by
  obtain ⟨name, type, components, init⟩ := p
  simp only [read, Option.bind_eq_bind, Option.bind_eq_some_iff, Option.pure_def,
    Option.some.injEq]
  constructor
  · rintro ⟨⟨inner, m⟩, hm, _, hname, _, htype, _, hcomponents, _, hinit, ⟨⟩⟩
    exact ⟨inner, m, hm, hname, htype, hcomponents, hinit⟩
  · rintro ⟨inner, m, hm, hname, htype, hcomponents, hinit⟩
    exact ⟨⟨inner, m⟩, hm, _, hname, _, htype, _, hcomponents, _, hinit, rfl⟩

theorem read_zero_levels (fuel : Nat) (d : Document) : read fuel 0 d = none := by
  cases fuel <;> rfl

theorem components_congr {fuel levels : Nat} {read' : Reader Param}
    (h : ∀ inner < levels, ∀ d, read fuel inner d = read' inner d) (m : Members) :
    withDefault (Reader.optional (Reader.list (read fuel))) none "components" levels m =
      withDefault (Reader.optional (Reader.list read')) none "components" levels m :=
  withDefault_congr (Reader.optional_congr (Reader.list_congr h))

/-- Fuel for all levels that are left is as good as any more. -/
theorem read_eq_reader {fuel levels : Nat} (h : levels ≤ fuel) (d : Document) :
    read fuel levels d = reader levels d := by
  induction levels using Nat.strongRecOn generalizing fuel d with
  | ind levels ih =>
    cases levels with
    | zero => exact (read_zero_levels fuel d).trans (read_zero_levels 0 d).symm
    | succ levels =>
      obtain ⟨fuel, rfl⟩ : ∃ k, fuel = k + 1 := ⟨fuel - 1, by omega⟩
      -- Only what is nested inside is read with the remaining fuel, and it has fewer levels left.
      have hinner (inner) (hlt : inner < levels) (d) : read fuel inner d = read levels inner d :=
        (ih inner (by omega) (by omega) d).trans (ih inner (by omega) (by omega) d).symm
      refine Option.ext fun p => ?_
      rw [reader, read_eq_some, read_eq_some]
      refine exists_congr fun k => exists_congr fun m => and_congr_right fun hm => ?_
      obtain rfl := Nat.succ.inj (levels_of_ofDocument? hm)
      rw [components_congr hinner m]

theorem reader_eq_some {levels : Nat} {d : Document} {p : Param} :
    reader levels d = some p ↔ ∃ inner m,
      ofDocument? (p.members.map Prod.fst) levels d = some (inner, m) ∧
      required Reader.string "name" inner m = some p.name ∧
      required Reader.string "type" inner m = some p.type ∧
      withDefault (Reader.optional (Reader.list reader)) none "components" inner m =
        some p.components ∧
      withDefault (Reader.optional Reader.bool) none "init" inner m = some p.init := by
  rw [← read_eq_reader (Nat.le_succ levels), read_eq_some]
  refine exists_congr fun inner => exists_congr fun m => and_congr_right fun hm => ?_
  have hlevels := levels_of_ofDocument? hm
  rw [components_congr fun k hk d => read_eq_reader (by omega) d]

/-! ### Written and read -/

theorem list_inverts {ps : List Param} (h : ∀ p ∈ ps, reader.Inverts toJson p) :
    (Reader.list reader).Inverts paramsJson ps := by
  rw [paramsJson_eq]
  exact Reader.list_inverts h

theorem inverts (p : Param) : reader.Inverts toJson p := by
  induction p using components_induction with
  | step p ih =>
    intro levels d h
    rw [toJson_eq] at h
    obtain ⟨inner, m, hm, hfound⟩ := h.exists_members p.nodup_names
    simp only [members, List.forall_mem_cons] at hfound
    obtain ⟨hname, htype, hcomponents, hinit, -⟩ := hfound
    exact reader_eq_some.2 ⟨inner, m, hm, required_of_found (Reader.string_inverts _) hname,
      required_of_found (Reader.string_inverts _) htype,
      optional_of_found (fun ps hps => list_inverts (ih ps hps)) hcomponents fun _ => nofun,
      optional_of_found (fun _ _ => Reader.bool_inverts _) hinit fun _ => nofun⟩

theorem isExact_paramsJson {ps : List Param} (h : ∀ p ∈ ps, p.toJson.IsExact) :
    (paramsJson ps).IsExact := by
  rw [paramsJson_eq]
  exact .array (List.forall_mem_map.2 h)

theorem isExact_toJson (p : Param) : p.toJson.IsExact := by
  induction p using components_induction with
  | step p ih =>
    rw [toJson_eq]
    refine isExact_present ?_
    simp only [members, List.forall_mem_cons, Option.forall_mem_map, Option.mem_some_iff,
      forall_eq']
    exact ⟨.string _, .string _, fun ps hps => isExact_paramsJson (ih ps hps),
      fun _ _ => .bool _, nofun⟩

theorem list_staysWithin {levels : Nat}
    (h : ∀ inner, levels = inner + 1 → reader.StaysWithin toJson inner) :
    (Reader.list reader).StaysWithin paramsJson levels := by
  rw [paramsJson_eq]
  exact Reader.list_staysWithin h

theorem staysWithin (levels : Nat) : reader.StaysWithin toJson levels := by
  induction levels using Nat.strongRecOn with
  | ind levels ih =>
    intro d p hread
    obtain ⟨inner, m, hm, hname, htype, hcomponents, hinit⟩ := reader_eq_some.1 hread
    obtain rfl := levels_of_ofDocument? hm
    rw [toJson_eq]
    refine nesting_present_le ?_
    simp only [members, List.forall_mem_cons, Option.forall_mem_map, Option.mem_some_iff,
      forall_eq']
    refine ⟨Nat.zero_le _, Nat.zero_le _, fun ps hps => ?_, fun _ _ => Nat.zero_le _, nofun⟩
    obtain ⟨d, hd⟩ := exists_of_optional hcomponents ps hps
    exact list_staysWithin (fun k hk => ih k (by omega)) d ps hd

end Param

/-! ## Lists of parameters and texts -/

section
variable {name : String} {levels : Nat} {m : Members}

/-- A list that is missing is written as an empty one, which takes a level. -/
theorem nesting_of_list {α : Type} {read : Reader α} {write : α → Json} {as : List α}
    (hlevels : 0 < levels) (h : ∀ inner, levels = inner + 1 → read.StaysWithin write inner)
    (hread : withDefault (Reader.list read) [] name levels m = some as) :
    (Json.array (as.map write)).nesting ≤ levels := by
  obtain rfl | ⟨d, hd⟩ := exists_of_withDefault hread
  · exact hlevels
  · exact Reader.list_staysWithin h d as hd

theorem paramsMember_of_found {ps : List Param}
    (h : Option.Rel (StandsFor levels) (m.lookup name) (some (paramsJson ps))) :
    paramsMember name levels m = some ps :=
  withDefault_of_found (Param.list_inverts fun p _ => p.inverts) h

theorem textMember_of_found {text : Option String}
    (h : Option.Rel (StandsFor levels) (m.lookup name) (text.map .string)) :
    textMember name levels m = some text :=
  optional_of_found (fun _ _ => Reader.string_inverts _) h fun _ => nofun

theorem nesting_of_paramsMember {ps : List Param} (hlevels : 0 < levels)
    (h : paramsMember name levels m = some ps) : (paramsJson ps).nesting ≤ levels := by
  rw [Param.paramsJson_eq]
  exact nesting_of_list hlevels (fun inner _ => Param.staysWithin inner) h

end

/-! ## Functions -/

namespace Function

def members (f : Function) : List (String × Option Json) :=
  [("name", some (.string f.name)), ("inputs", some (paramsJson f.inputs)),
    ("outputs", some (paramsJson f.outputs)), ("id", f.id.map .string)]

theorem toJson_eq (f : Function) : f.toJson = .ofMembers (present f.members) := by
  obtain ⟨name, inputs, outputs, _ | id⟩ := f <;> rfl

theorem nodup_names (f : Function) : (f.members.map Prod.fst).Nodup := by
  show ["name", "inputs", "outputs", "id"].Nodup
  decide

theorem reader_eq_some {levels : Nat} {d : Document} {f : Function} :
    reader levels d = some f ↔ ∃ inner m,
      ofDocument? (f.members.map Prod.fst) levels d = some (inner, m) ∧
      required Reader.string "name" inner m = some f.name ∧
      paramsMember "inputs" inner m = some f.inputs ∧
      paramsMember "outputs" inner m = some f.outputs ∧
      textMember "id" inner m = some f.id := by
  obtain ⟨name, inputs, outputs, id⟩ := f
  simp only [reader, Option.bind_eq_bind, Option.bind_eq_some_iff, Option.pure_def,
    Option.some.injEq]
  constructor
  · rintro ⟨⟨inner, m⟩, hm, _, hname, _, hinputs, _, houtputs, _, hid, ⟨⟩⟩
    exact ⟨inner, m, hm, hname, hinputs, houtputs, hid⟩
  · rintro ⟨inner, m, hm, hname, hinputs, houtputs, hid⟩
    exact ⟨⟨inner, m⟩, hm, _, hname, _, hinputs, _, houtputs, _, hid, rfl⟩

theorem inverts (f : Function) : reader.Inverts toJson f := by
  intro levels d h
  rw [toJson_eq] at h
  obtain ⟨inner, m, hm, hfound⟩ := h.exists_members f.nodup_names
  simp only [members, List.forall_mem_cons] at hfound
  obtain ⟨hname, hinputs, houtputs, hid, -⟩ := hfound
  exact reader_eq_some.2 ⟨inner, m, hm, required_of_found (Reader.string_inverts _) hname,
    paramsMember_of_found hinputs, paramsMember_of_found houtputs, textMember_of_found hid⟩

theorem isExact_toJson (f : Function) : f.toJson.IsExact := by
  rw [toJson_eq]
  refine isExact_present ?_
  simp only [members, List.forall_mem_cons, Option.forall_mem_map, Option.mem_some_iff, forall_eq']
  exact ⟨.string _, Param.isExact_paramsJson fun p _ => p.isExact_toJson,
    Param.isExact_paramsJson fun p _ => p.isExact_toJson, fun _ _ => .string _, nofun⟩

theorem staysWithin {levels : Nat} (hlevels : 1 < levels) :
    reader.StaysWithin toJson levels := by
  intro d f hread
  obtain ⟨inner, m, hm, -, hinputs, houtputs, -⟩ := reader_eq_some.1 hread
  obtain rfl := levels_of_ofDocument? hm
  have hinner : 0 < inner := Nat.lt_of_succ_lt_succ hlevels
  rw [toJson_eq]
  refine nesting_present_le ?_
  simp only [members, List.forall_mem_cons, Option.forall_mem_map, Option.mem_some_iff, forall_eq']
  exact ⟨Nat.zero_le _, nesting_of_paramsMember hinner hinputs,
    nesting_of_paramsMember hinner houtputs, fun _ _ => Nat.zero_le _, nofun⟩

end Function

/-! ## Getters -/

namespace Getter

def members (g : Getter) : List (String × Option Json) :=
  [("name", some (.string g.name)), ("inputs", some (paramsJson g.inputs)),
    ("outputs", some (paramsJson g.outputs))]

theorem toJson_eq (g : Getter) : g.toJson = .ofMembers (present g.members) := rfl

theorem nodup_names (g : Getter) : (g.members.map Prod.fst).Nodup := by
  show ["name", "inputs", "outputs"].Nodup
  decide

theorem reader_eq_some {levels : Nat} {d : Document} {g : Getter} :
    reader levels d = some g ↔ ∃ inner m,
      ofDocument? (g.members.map Prod.fst) levels d = some (inner, m) ∧
      required Reader.string "name" inner m = some g.name ∧
      paramsMember "inputs" inner m = some g.inputs ∧
      paramsMember "outputs" inner m = some g.outputs := by
  obtain ⟨name, inputs, outputs⟩ := g
  simp only [reader, Option.bind_eq_bind, Option.bind_eq_some_iff, Option.pure_def,
    Option.some.injEq]
  constructor
  · rintro ⟨⟨inner, m⟩, hm, _, hname, _, hinputs, _, houtputs, ⟨⟩⟩
    exact ⟨inner, m, hm, hname, hinputs, houtputs⟩
  · rintro ⟨inner, m, hm, hname, hinputs, houtputs⟩
    exact ⟨⟨inner, m⟩, hm, _, hname, _, hinputs, _, houtputs, rfl⟩

theorem inverts (g : Getter) : reader.Inverts toJson g := by
  intro levels d h
  rw [toJson_eq] at h
  obtain ⟨inner, m, hm, hfound⟩ := h.exists_members g.nodup_names
  simp only [members, List.forall_mem_cons] at hfound
  obtain ⟨hname, hinputs, houtputs, -⟩ := hfound
  exact reader_eq_some.2 ⟨inner, m, hm, required_of_found (Reader.string_inverts _) hname,
    paramsMember_of_found hinputs, paramsMember_of_found houtputs⟩

theorem isExact_toJson (g : Getter) : g.toJson.IsExact := by
  rw [toJson_eq]
  refine isExact_present ?_
  simp only [members, List.forall_mem_cons, Option.mem_some_iff, forall_eq']
  exact ⟨.string _, Param.isExact_paramsJson fun p _ => p.isExact_toJson,
    Param.isExact_paramsJson fun p _ => p.isExact_toJson, nofun⟩

theorem staysWithin {levels : Nat} (hlevels : 1 < levels) :
    reader.StaysWithin toJson levels := by
  intro d g hread
  obtain ⟨inner, m, hm, -, hinputs, houtputs⟩ := reader_eq_some.1 hread
  obtain rfl := levels_of_ofDocument? hm
  have hinner : 0 < inner := Nat.lt_of_succ_lt_succ hlevels
  rw [toJson_eq]
  refine nesting_present_le ?_
  simp only [members, List.forall_mem_cons, Option.mem_some_iff, forall_eq']
  exact ⟨Nat.zero_le _, nesting_of_paramsMember hinner hinputs,
    nesting_of_paramsMember hinner houtputs, nofun⟩

end Getter

/-! ## Events -/

namespace Event

def members (e : Event) : List (String × Option Json) :=
  [("name", some (.string e.name)), ("inputs", some (paramsJson e.inputs)),
    ("id", e.id.map .string)]

theorem toJson_eq (e : Event) : e.toJson = .ofMembers (present e.members) := by
  obtain ⟨name, inputs, _ | id⟩ := e <;> rfl

theorem nodup_names (e : Event) : (e.members.map Prod.fst).Nodup := by
  show ["name", "inputs", "id"].Nodup
  decide

theorem reader_eq_some {levels : Nat} {d : Document} {e : Event} :
    reader levels d = some e ↔ ∃ inner m,
      ofDocument? (e.members.map Prod.fst) levels d = some (inner, m) ∧
      required Reader.string "name" inner m = some e.name ∧
      paramsMember "inputs" inner m = some e.inputs ∧
      textMember "id" inner m = some e.id := by
  obtain ⟨name, inputs, id⟩ := e
  simp only [reader, Option.bind_eq_bind, Option.bind_eq_some_iff, Option.pure_def,
    Option.some.injEq]
  constructor
  · rintro ⟨⟨inner, m⟩, hm, _, hname, _, hinputs, _, hid, ⟨⟩⟩
    exact ⟨inner, m, hm, hname, hinputs, hid⟩
  · rintro ⟨inner, m, hm, hname, hinputs, hid⟩
    exact ⟨⟨inner, m⟩, hm, _, hname, _, hinputs, _, hid, rfl⟩

theorem inverts (e : Event) : reader.Inverts toJson e := by
  intro levels d h
  rw [toJson_eq] at h
  obtain ⟨inner, m, hm, hfound⟩ := h.exists_members e.nodup_names
  simp only [members, List.forall_mem_cons] at hfound
  obtain ⟨hname, hinputs, hid, -⟩ := hfound
  exact reader_eq_some.2 ⟨inner, m, hm, required_of_found (Reader.string_inverts _) hname,
    paramsMember_of_found hinputs, textMember_of_found hid⟩

theorem isExact_toJson (e : Event) : e.toJson.IsExact := by
  rw [toJson_eq]
  refine isExact_present ?_
  simp only [members, List.forall_mem_cons, Option.forall_mem_map, Option.mem_some_iff, forall_eq']
  exact ⟨.string _, Param.isExact_paramsJson fun p _ => p.isExact_toJson, fun _ _ => .string _,
    nofun⟩

theorem staysWithin {levels : Nat} (hlevels : 1 < levels) :
    reader.StaysWithin toJson levels := by
  intro d e hread
  obtain ⟨inner, m, hm, -, hinputs, -⟩ := reader_eq_some.1 hread
  obtain rfl := levels_of_ofDocument? hm
  rw [toJson_eq]
  refine nesting_present_le ?_
  simp only [members, List.forall_mem_cons, Option.forall_mem_map, Option.mem_some_iff, forall_eq']
  exact ⟨Nat.zero_le _, nesting_of_paramsMember (Nat.lt_of_succ_lt_succ hlevels) hinputs,
    fun _ _ => Nat.zero_le _, nofun⟩

end Event

/-! ## Contracts -/

namespace Contract

/-- The versions are numbers of 32 bits. -/
structure HasShortVersions (c : Contract) : Prop where
  legacyVersion : ∀ n ∈ c.legacyVersion, n < 2 ^ 32
  abiVersion : ∀ n ∈ c.abiVersion, n < 2 ^ 32

def members (c : Contract) : List (String × Option Json) :=
  [("ABI version", c.legacyVersion.map fun n : Nat => .integer n),
    ("abi_version", c.abiVersion.map fun n : Nat => .integer n),
    ("version", c.version.map .string), ("header", some (.array (c.header.map .string))),
    ("functions", some (.array (c.functions.map Function.toJson))),
    ("getters", some (.array (c.getters.map Getter.toJson))),
    ("events", some (.array (c.events.map Event.toJson))), ("fields", some (paramsJson c.fields))]

theorem toJson_eq (c : Contract) : c.toJson = .ofMembers (present c.members) := by
  obtain ⟨_ | legacyVersion, _ | abiVersion, _ | version, header, functions, getters, events,
    fields⟩ := c <;> rfl

theorem nodup_names (c : Contract) : (c.members.map Prod.fst).Nodup := by
  show ["ABI version", "abi_version", "version", "header", "functions", "getters", "events",
    "fields"].Nodup
  decide

theorem reader_eq_some {levels : Nat} {d : Document} {c : Contract} :
    reader levels d = some c ↔ ∃ inner m,
      ofDocument? (c.members.map Prod.fst) levels d = some (inner, m) ∧
      withDefault (Reader.optional Reader.nat32) none "ABI version" inner m =
        some c.legacyVersion ∧
      withDefault (Reader.optional Reader.nat32) none "abi_version" inner m = some c.abiVersion ∧
      textMember "version" inner m = some c.version ∧
      withDefault (Reader.list Reader.string) [] "header" inner m = some c.header ∧
      withDefault (Reader.list Function.reader) [] "functions" inner m = some c.functions ∧
      withDefault (Reader.list Getter.reader) [] "getters" inner m = some c.getters ∧
      withDefault (Reader.list Event.reader) [] "events" inner m = some c.events ∧
      paramsMember "fields" inner m = some c.fields := by
  obtain ⟨legacyVersion, abiVersion, version, header, functions, getters, events, fields⟩ := c
  simp only [reader, Option.bind_eq_bind, Option.bind_eq_some_iff, Option.pure_def,
    Option.some.injEq]
  constructor
  · rintro ⟨⟨inner, m⟩, hm, _, hlegacy, _, habi, _, hversion, _, hheader, _, hfunctions, _,
      hgetters, _, hevents, _, hfields, ⟨⟩⟩
    exact ⟨inner, m, hm, hlegacy, habi, hversion, hheader, hfunctions, hgetters, hevents, hfields⟩
  · rintro ⟨inner, m, hm, hlegacy, habi, hversion, hheader, hfunctions, hgetters, hevents, hfields⟩
    exact ⟨⟨inner, m⟩, hm, _, hlegacy, _, habi, _, hversion, _, hheader, _, hfunctions, _,
      hgetters, _, hevents, _, hfields, rfl⟩

theorem inverts {c : Contract} (hc : c.HasShortVersions) : reader.Inverts toJson c := by
  intro levels d h
  rw [toJson_eq] at h
  obtain ⟨inner, m, hm, hfound⟩ := h.exists_members c.nodup_names
  simp only [members, List.forall_mem_cons] at hfound
  obtain ⟨hlegacy, habi, hversion, hheader, hfunctions, hgetters, hevents, hfields, -⟩ := hfound
  exact reader_eq_some.2 ⟨inner, m, hm,
    optional_of_found (fun n hn => Reader.nat32_inverts (hc.legacyVersion n hn)) hlegacy
      fun _ => nofun,
    optional_of_found (fun n hn => Reader.nat32_inverts (hc.abiVersion n hn)) habi fun _ => nofun,
    textMember_of_found hversion,
    withDefault_of_found (Reader.list_inverts fun s _ => Reader.string_inverts s) hheader,
    withDefault_of_found (Reader.list_inverts fun f _ => f.inverts) hfunctions,
    withDefault_of_found (Reader.list_inverts fun g _ => g.inverts) hgetters,
    withDefault_of_found (Reader.list_inverts fun e _ => e.inverts) hevents,
    paramsMember_of_found hfields⟩

theorem isExact_integer {n : Nat} (hn : n < 2 ^ 32) : (Json.integer n).IsExact := by
  refine .integer ⟨?_, ?_⟩ <;> omega

theorem isExact_toJson {c : Contract} (hc : c.HasShortVersions) : c.toJson.IsExact := by
  rw [toJson_eq]
  refine isExact_present ?_
  simp only [members, List.forall_mem_cons, Option.forall_mem_map, Option.mem_some_iff, forall_eq']
  exact ⟨fun n hn => isExact_integer (hc.legacyVersion n hn),
    fun n hn => isExact_integer (hc.abiVersion n hn), fun _ _ => .string _,
    .array (List.forall_mem_map.2 fun s _ => .string s),
    .array (List.forall_mem_map.2 fun f _ => f.isExact_toJson),
    .array (List.forall_mem_map.2 fun g _ => g.isExact_toJson),
    .array (List.forall_mem_map.2 fun e _ => e.isExact_toJson),
    Param.isExact_paramsJson fun p _ => p.isExact_toJson, nofun⟩

theorem staysWithin {levels : Nat} (hlevels : 3 < levels) :
    reader.StaysWithin toJson levels := by
  intro d c hread
  obtain ⟨inner, m, hm, -, -, -, hheader, hfunctions, hgetters, hevents, hfields⟩ :=
    reader_eq_some.1 hread
  obtain rfl := levels_of_ofDocument? hm
  have hinner : 2 < inner := Nat.lt_of_succ_lt_succ hlevels
  rw [toJson_eq]
  refine nesting_present_le ?_
  simp only [members, List.forall_mem_cons, Option.forall_mem_map, Option.mem_some_iff, forall_eq']
  exact ⟨fun _ _ => Nat.zero_le _, fun _ _ => Nat.zero_le _, fun _ _ => Nat.zero_le _,
    nesting_of_list (by omega) (fun _ _ => Reader.string_staysWithin _) hheader,
    nesting_of_list (by omega) (fun _ _ => Function.staysWithin (by omega)) hfunctions,
    nesting_of_list (by omega) (fun _ _ => Getter.staysWithin (by omega)) hgetters,
    nesting_of_list (by omega) (fun _ _ => Event.staysWithin (by omega)) hevents,
    nesting_of_paramsMember (by omega) hfields, nofun⟩

theorem hasShortVersions_of_reader {levels : Nat} {d : Document} {c : Contract}
    (h : reader levels d = some c) : c.HasShortVersions := by
  obtain ⟨inner, m, -, hlegacy, habi, -⟩ := reader_eq_some.1 h
  constructor
  · intro n hn
    obtain ⟨_, hd⟩ := exists_of_optional hlegacy n hn
    exact Reader.lt_of_nat32 hd
  · intro n hn
    obtain ⟨_, hd⟩ := exists_of_optional habi n hn
    exact Reader.lt_of_nat32 hd

/-! ### Texts of a schema -/

/-- The text has the value that is written of the schema, in whatever order and spacing, and
nothing in it is said twice. -/
def IsWrittenAs (c : Contract) (text : String) : Prop :=
  ∃ d, Document.parse? text = some d ∧ d.StandsFor maxNesting c.toJson

theorem ofText_eq_ok {text : String} {c : Contract} :
    ofText text = .ok c ↔ ∃ d, Document.parse? text = some d ∧ reader maxNesting d = some c := by
  rw [ofText, ← Option.bind_eq_some_iff]
  split
  · next h => rw [h, Except.ok.injEq, Option.some.injEq]
  · next h =>
    rw [h]
    exact iff_of_false nofun nofun

theorem ofText_of_isWrittenAs {c : Contract} (hc : c.HasShortVersions) {text : String}
    (h : c.IsWrittenAs text) : ofText text = .ok c := by
  obtain ⟨d, hd, hstands⟩ := h
  exact ofText_eq_ok.2 ⟨d, hd, inverts hc maxNesting d hstands⟩

theorem isWrittenAs_compact {c : Contract} (hc : c.HasShortVersions)
    (hnesting : c.toJson.nesting ≤ maxNesting) : c.IsWrittenAs c.toJson.compact :=
  have hexact := isExact_toJson hc
  ⟨c.toJson.toDocument, parse?_compact hexact, standsFor_toDocument hexact hnesting⟩

/-- A schema survives being written and read: it is read from every text that it is written as,
which its printed text is if it nests no deeper than texts may.  A schema that was read from some
text always does. -/
theorem ofText_toJson (c : Contract) :
    (c.HasShortVersions →
      (∀ text, c.IsWrittenAs text → ofText text = .ok c) ∧
      (c.toJson.nesting ≤ maxNesting → ofText c.toJson.compact = .ok c)) ∧
    ∀ text, ofText text = .ok c →
      ofText c.toJson.compact = .ok c ∧ ∀ copy, c.IsWrittenAs copy → ofText copy = .ok c := by
  refine ⟨fun hc => ⟨fun text => ofText_of_isWrittenAs hc,
    fun hnesting => ofText_of_isWrittenAs hc (isWrittenAs_compact hc hnesting)⟩, fun text h => ?_⟩
  obtain ⟨d, -, hread⟩ := ofText_eq_ok.1 h
  have hc := hasShortVersions_of_reader hread
  have hnesting := staysWithin (by decide) d c hread
  exact ⟨ofText_of_isWrittenAs hc (isWrittenAs_compact hc hnesting),
    fun copy => ofText_of_isWrittenAs hc⟩

/-- A schema whose only field has a component. -/
def pointSchema : Contract where
  abiVersion := some 2
  fields := [{ name := "p", type := "tuple", components := some [{ name := "x", type := "int8" }] }]

/-- Its text with the members in the order of their declarations. -/
def pointText : String :=
  "\x7b\"abi_version\":2,\"header\":[],\"functions\":[],\"getters\":[],\"events\":[]," ++
    "\"fields\":[\x7b\"name\":\"p\",\"type\":\"tuple\",\"components\":" ++
    "[\x7b\"name\":\"x\",\"type\":\"int8\"\x7d]\x7d]\x7d"

/-- Another text that is read as it: lists are missing, a member is null and the component is an
array of its members. -/
def looseText : String :=
  "\x7b\"fields\": [\x7b\"type\": \"tuple\", \"components\": [[\"x\", \"int8\"]], " ++
    "\"init\": null, \"name\": \"p\"\x7d], \"abi_version\": 2\x7d"

def pointDocument : Document :=
  .object [(some "abi_version", .number (some (.integer 2))), (some "header", .array []),
    (some "functions", .array []), (some "getters", .array []), (some "events", .array []),
    (some "fields", .array [.object [(some "name", .string (some "p")),
      (some "type", .string (some "tuple")),
      (some "components", .array [.object [(some "name", .string (some "x")),
        (some "type", .string (some "int8"))]])]])]

theorem isWrittenAs_pointText : pointSchema.IsWrittenAs pointText := by
  refine ⟨pointDocument, by cbv, ?_, by cbv⟩
  simp [pointDocument, unrepeated_object, unrepeated_array, Unrepeated.string, Unrepeated.number]

theorem ofText_toJson_pointSchema :
    pointSchema.HasShortVersions ∧ pointSchema.IsWrittenAs pointText ∧
      ofText pointText = .ok pointSchema ∧ pointSchema.toJson.nesting ≤ maxNesting ∧
      ofText pointSchema.toJson.compact = .ok pointSchema ∧
      ofText looseText = .ok pointSchema ∧
      ∀ copy, pointSchema.IsWrittenAs copy → ofText copy = .ok pointSchema := by
  have hshort : pointSchema.HasShortVersions := ⟨nofun, by rintro n ⟨⟩; decide⟩
  have hnesting : pointSchema.toJson.nesting ≤ maxNesting := by cbv
  have hloose : ofText looseText = .ok pointSchema := by cbv
  obtain ⟨hwritten, hcompact⟩ := (ofText_toJson pointSchema).1 hshort
  exact ⟨hshort, isWrittenAs_pointText, hwritten _ isWrittenAs_pointText, hnesting,
    hcompact hnesting, hloose, ((ofText_toJson pointSchema).2 looseText hloose).2⟩

end Contract

end CellAbi
