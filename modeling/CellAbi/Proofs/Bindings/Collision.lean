import CellAbi.Proofs.Bindings.Identifier
import CellAbi.Proofs.Bindings.Names

/-!
# Names generated twice

A schema whose types can be read, of a contract whose name makes a type, has bindings exactly when
all methods, all types and, within each struct, all fields have different names.

    firstRepeated? [] names = none ↔ names.Nodup                         (`firstRepeated?_eq_none`)
    m.collision? = none ↔ c.Distinct contract        for the module of `c`  (`collision?_eq_none`)
    (∃ m, ofContract crate contract c = .ok m) ↔
      c.validate = .ok () ∧ IsTypeName (Name.type contract) ∧ c.Distinct contract
                                                                      (`ofContract_iff_distinct`)
-/

namespace CellAbi

/-! ## Repetitions -/

theorem firstRepeated?_eq_none {seen names : List String} :
    firstRepeated? seen names = none ↔ names.Nodup ∧ ∀ name ∈ names, name ∉ seen := by
  induction names generalizing seen with
  | nil => exact iff_of_true rfl ⟨.nil, fun _ h => absurd h List.not_mem_nil⟩
  | cons name rest ih =>
    rw [firstRepeated?]
    split
    · next hseen =>
      have hseen : name ∈ seen := List.contains_iff_mem.1 hseen
      exact iff_of_false nofun fun h => h.2 name List.mem_cons_self hseen
    · next hseen =>
      have hseen : name ∉ seen := fun h => hseen (List.contains_iff_mem.2 h)
      rw [ih, List.nodup_cons, List.forall_mem_cons]
      simp only [List.mem_cons, not_or]
      constructor
      · rintro ⟨hrest, hnew⟩
        exact ⟨⟨fun h => (hnew name h).1 rfl, hrest⟩, hseen, fun a ha => (hnew a ha).2⟩
      · rintro ⟨⟨hname, hrest⟩, -, hnew⟩
        exact ⟨hrest, fun a ha => ⟨fun h => hname (h ▸ ha), hnew a ha⟩⟩

namespace BindingModule

theorem structCollision?_eq_none {seen : List String} {structs : List Struct} :
    structCollision? seen structs = none ↔
      ((structs.map (·.name)).Nodup ∧ ∀ s ∈ structs, s.name ∉ seen) ∧
        ∀ s ∈ structs, (s.fields.map (·.ident)).Nodup := by
  induction structs generalizing seen with
  | nil =>
    exact iff_of_true rfl
      ⟨⟨.nil, fun _ h => absurd h List.not_mem_nil⟩, fun _ h => absurd h List.not_mem_nil⟩
  | cons s rest ih =>
    rw [structCollision?]
    split
    · next hseen =>
      have hseen : s.name ∈ seen := List.contains_iff_mem.1 hseen
      exact iff_of_false nofun fun h => h.1.2 s List.mem_cons_self hseen
    · next hseen =>
      have hseen : s.name ∉ seen := fun h => hseen (List.contains_iff_mem.2 h)
      have hfields : firstRepeated? [] (s.fields.map (·.ident)) = none ↔
          (s.fields.map (·.ident)).Nodup :=
        firstRepeated?_eq_none.trans (and_iff_left fun _ _ => List.not_mem_nil)
      split
      · next ident hident =>
        refine iff_of_false nofun fun h => ?_
        have hnone := hfields.2 (h.2 s List.mem_cons_self)
        rw [hident] at hnone
        cases hnone
      · next hnone =>
        rw [ih, List.map_cons, List.nodup_cons, List.forall_mem_cons, List.forall_mem_cons]
        simp only [List.mem_cons, not_or, List.mem_map, not_exists, not_and]
        constructor
        · rintro ⟨⟨hrest, hnew⟩, hall⟩
          exact ⟨⟨⟨fun t ht => (hnew t ht).1, hrest⟩, hseen, fun t ht => (hnew t ht).2⟩,
            hfields.1 hnone, hall⟩
        · rintro ⟨⟨⟨hs, hrest⟩, -, hnew⟩, -, hall⟩
          exact ⟨⟨hrest, fun t ht => ⟨hs t ht, hnew t ht⟩⟩, hall⟩

end BindingModule

/-! ## Distinct names -/

/-- All methods, all types and, within each struct, all fields that are generated for the schema of
a contract have different names. -/
structure Contract.Distinct (contract : String) (c : Contract) : Prop where
  methods : c.methodNames.Nodup
  types : (Name.type contract :: (c.structNames contract).map (·.name)).Nodup
  fields : ∀ s ∈ c.structNames contract, s.idents.Nodup

/-- A type can have the name: there is one, and it does not begin with a digit. -/
def IsTypeName (name : String) : Prop := name ≠ "" ∧ NoLeadingDigit name.toList

namespace BindingModule

theorem isContractType_iff {name : String} : isContractType name = true ↔ IsTypeName name := by
  rw [isContractType, IsTypeName, Ne, ← String.toList_inj]
  cases name.toList with
  | nil => exact iff_of_false nofun fun h => h.1 rfl
  | cons c rest =>
    show (!c.isDigit) = true ↔ _
    rw [Bool.not_eq_true']
    exact ⟨fun h => ⟨nofun, fun _ hd => Option.some.inj hd ▸ h⟩, fun h => h.2 c rfl⟩

variable {runtimeCrate contract : String} {c : Contract} {m : BindingModule}

theorem collision?_eq_none (h : ofValid runtimeCrate contract c = .ok m) :
    m.collision? = none ↔ c.Distinct contract := by
  obtain ⟨hcontract, hmethods, hstructs, -⟩ := names_ofValid h
  have hnames : m.structs.map (·.name) = (c.structNames contract).map (·.name) := by
    rw [← hstructs, List.map_map]
    rfl
  have hfields : (∀ s ∈ m.structs, (s.fields.map (·.ident)).Nodup) ↔
      ∀ s ∈ c.structNames contract, s.idents.Nodup := by
    rw [← hstructs, List.forall_mem_map]
    rfl
  have hrepeated : firstRepeated? [] m.methodNames = none ↔ c.methodNames.Nodup := by
    rw [hmethods]
    exact firstRepeated?_eq_none.trans (and_iff_left fun _ _ => List.not_mem_nil)
  have hstruct : structCollision? [m.contract] m.structs = none ↔
      (Name.type contract :: (c.structNames contract).map (·.name)).Nodup ∧
        ∀ s ∈ c.structNames contract, s.idents.Nodup := by
    rw [structCollision?_eq_none, hfields, hcontract, List.nodup_cons, ← hnames]
    refine and_congr_left' (and_comm.trans (and_congr_left' ?_))
    simp
  rw [collision?]
  split
  · next name hname =>
    refine iff_of_false nofun fun hdistinct => ?_
    rw [hrepeated.2 hdistinct.methods] at hname
    cases hname
  · next hnone =>
    rw [hstruct]
    exact ⟨fun h => ⟨hrepeated.1 hnone, h.1, h.2⟩, fun h => ⟨h.types, h.fields⟩⟩

/-- What becomes of a contract: the first of its checks that fails decides, and no type fails
behind the check of the schema. -/
theorem ofContract_cases (runtimeCrate contract : String) (c : Contract) :
    (∃ e, c.validate = .error e ∧ ofContract runtimeCrate contract c = .error (.abi e)) ∨
    c.validate = .ok () ∧
      (¬ IsTypeName (Name.type contract) ∧
          ofContract runtimeCrate contract c = .error (.invalidContractName contract) ∨
        IsTypeName (Name.type contract) ∧ ∃ m, ofValid runtimeCrate contract c = .ok m ∧
          (¬ c.Distinct contract ∧
              (∃ name, ofContract runtimeCrate contract c =
                .error (.nameCollision contract name)) ∨
            c.Distinct contract ∧ ofContract runtimeCrate contract c = .ok m)) := by
  cases hvalid : c.validate with
  | error e =>
    refine .inl ⟨e, rfl, ?_⟩
    rw [ofContract, hvalid]
    rfl
  | ok u =>
    refine .inr ⟨rfl, ?_⟩
    cases htype : isContractType (Name.type contract) with
    | false =>
      have hname : ¬ IsTypeName (Name.type contract) := fun h => by
        rw [isContractType_iff.2 h] at htype
        cases htype
      refine .inl ⟨hname, ?_⟩
      rw [ofContract, hvalid]
      simp only [htype]
      rfl
    | true =>
      obtain ⟨m, hm⟩ : ∃ m, ofValid runtimeCrate contract c = .ok m := exists_ofValid hvalid
      refine .inr ⟨isContractType_iff.1 htype, m, hm, ?_⟩
      rw [ofContract, hvalid, hm]
      simp only [htype, Except.mapError, bind, Except.bind]
      cases hcollision : m.collision? with
      | some name =>
        refine .inl ⟨fun hdistinct => ?_, name, ?_⟩
        · rw [(collision?_eq_none hm).2 hdistinct] at hcollision
          cases hcollision
        · rfl
      | none =>
        exact .inr ⟨(collision?_eq_none hm).1 hcollision, rfl⟩

theorem ofContract_eq_ok (h : ofContract runtimeCrate contract c = .ok m) :
    IsTypeName (Name.type contract) ∧ ofValid runtimeCrate contract c = .ok m := by
  obtain ⟨e, -, hrun⟩ | ⟨-, ⟨-, hrun⟩ | ⟨htype, m', hm', ⟨-, name, hrun⟩ | ⟨-, hrun⟩⟩⟩ :=
    ofContract_cases runtimeCrate contract c
  all_goals rw [hrun] at h
  · cases h
  · cases h
  · cases h
  · obtain rfl := Except.ok.inj h
    exact ⟨htype, hm'⟩

theorem distinct_of_ofContract (h : ofContract runtimeCrate contract c = .ok m) :
    c.Distinct contract := by
  obtain ⟨e, -, hrun⟩ | ⟨-, ⟨-, hrun⟩ | ⟨-, m', -, ⟨-, name, hrun⟩ | ⟨hdistinct, -⟩⟩⟩ :=
    ofContract_cases runtimeCrate contract c
  · rw [hrun] at h
    cases h
  · rw [hrun] at h
    cases h
  · rw [hrun] at h
    cases h
  · exact hdistinct

theorem exists_ofContract (hvalid : c.validate = .ok ()) (htype : IsTypeName (Name.type contract))
    (hdistinct : c.Distinct contract) : ∃ m, ofContract runtimeCrate contract c = .ok m := by
  obtain ⟨e, hrefused, -⟩ | ⟨-, ⟨hname, -⟩ | ⟨-, m, -, ⟨hrepeated, -⟩ | ⟨-, hrun⟩⟩⟩ :=
    ofContract_cases runtimeCrate contract c
  · rw [hvalid] at hrefused
    cases hrefused
  · exact absurd htype hname
  · exact absurd hdistinct hrepeated
  · exact ⟨m, hrun⟩

/-- The bindings of a contract exist exactly when its schema is valid, its name makes a type and no
name is generated twice; and a name is reported as generated twice exactly when only the last of
these fails. -/
theorem ofContract_iff_distinct (runtimeCrate contract : String) (c : Contract) :
    ((∃ m, ofContract runtimeCrate contract c = .ok m) ↔
      c.validate = .ok () ∧ IsTypeName (Name.type contract) ∧ c.Distinct contract) ∧
    ((∃ named name, ofContract runtimeCrate contract c = .error (.nameCollision named name)) ↔
      c.validate = .ok () ∧ IsTypeName (Name.type contract) ∧ ¬ c.Distinct contract) := by
  obtain ⟨e, hvalid, hrun⟩ | ⟨hvalid, hcases⟩ := ofContract_cases runtimeCrate contract c
  · rw [hvalid, hrun]
    constructor <;> exact iff_of_false nofun fun h => nomatch h.1
  obtain ⟨htype, hrun⟩ | ⟨htype, m, -, ⟨hdistinct, name, hrun⟩ | ⟨hdistinct, hrun⟩⟩ := hcases
  · rw [hrun]
    constructor <;> exact iff_of_false nofun fun h => htype h.2.1
  · rw [hrun]
    constructor
    · exact iff_of_false nofun fun h => hdistinct h.2.2
    · exact iff_of_true ⟨contract, name, rfl⟩ ⟨hvalid, htype, hdistinct⟩
  · rw [hrun]
    constructor
    · exact iff_of_true ⟨m, rfl⟩ ⟨hvalid, htype, hdistinct⟩
    · exact iff_of_false nofun fun h => h.2.2 hdistinct

end BindingModule

end CellAbi
