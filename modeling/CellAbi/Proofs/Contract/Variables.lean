import CellAbi.Contract.State
import CellAbi.Proofs.Native.Proper
import CellAbi.Proofs.Value.RoundTrip
import CellAbi.Proofs.Wire.Service

/-!
# Arguments read back as variables

One argument that is added sets the member of its name and no other; one that fails sets none.  So
arguments of different names are collected as the sorted list of their members, in whatever order
they are added, and each of them is read back from its member as the value that it was.

    (put p x).run s = .ok () s' ↔ ∃ m, member p x = .ok m ∧ s' = …                        (`run_put`)
    (put p x).run s = .error e s' ↔ member p x = .error e ∧ s' = s                  (`run_put_error`)
    (putAll args).run {} = .ok () s ↔ ∃ ms, args.mapM (·.member) = .ok ms ∧ s = ⟨.ofList ms⟩
                                                                                    (`run_putAll`)
    (putAll args).run {} = .ok () s → ∀ a ∈ args, field ⟨s.members⟩ a.param = .ok a.value
                                                                          (`field_eq_of_putAll`)
-/

namespace CellAbi

open ToValue OfValue

namespace Arguments

variable {α : Type} [ToValue α] {p : Param} {x : α} {s s' : Arguments} {e : AbiError}

/-! ## One argument -/

theorem member_eq_ok {m : String × Json} :
    member p x = .ok m ↔
      ∃ type v, p.abiType = .ok type ∧ toValue x type = .ok v ∧ v.toJson = .ok m.2 ∧
        m.1 = p.name := by
  rw [member, Outcome.bind_eq_ok]
  simp only [Outcome.bind_eq_ok]
  constructor
  · rintro ⟨type, htype, v, hv, json, hjson, h⟩
    obtain rfl := Except.ok.inj h
    exact ⟨type, v, htype, hv, hjson, rfl⟩
  · rintro ⟨type, v, htype, hv, hjson, hname⟩
    exact ⟨type, htype, v, hv, m.2, hjson, by rw [← hname]; rfl⟩

theorem run_put :
    (put p x).run s = .ok () s' ↔
      ∃ m, member p x = .ok m ∧ s' = ⟨Sorted.insert m.1 m.2 s.members⟩ := by
  rw [put, Outcome.run_bind]
  simp only [Wire.run_ofExcept]
  constructor
  · rintro ⟨m, _, ⟨hm, rfl⟩, h⟩
    cases h
    exact ⟨m, hm, rfl⟩
  · rintro ⟨m, hm, rfl⟩
    exact ⟨m, s, ⟨hm, rfl⟩, rfl⟩

/-- An argument that fails leaves what is collected as it was. -/
theorem run_put_error :
    (put p x).run s = .error e s' ↔ member p x = .error e ∧ s' = s := by
  cases hm : member p x with
  | ok m =>
    rw [run_put.2 ⟨m, hm, rfl⟩]
    exact iff_of_false nofun fun h => nomatch h.1
  | error e' =>
    rw [put, hm]
    constructor
    · intro h
      cases h
      exact ⟨rfl, rfl⟩
    · rintro ⟨h, rfl⟩
      cases h
      rfl

end Arguments

/-- A value of the native type of its parameter. -/
structure TypedArgument where
  param : Param
  type : AbiType
  parses : param.abiType = .ok type
  value : type.native.Carrier

namespace TypedArgument

def member (a : TypedArgument) : Except AbiError (String × Json) := Arguments.member a.param a.value

/-- The type tells all values apart in their JSON form, and the cells can be written. -/
structure Restorable (a : TypedArgument) : Prop where
  single : a.type.SingleOptional
  names : a.type.DistinctNames
  narrow : a.type.Narrow
  cells : a.type.native.SoundCells a.value

end TypedArgument

namespace Arguments

variable {args order : List TypedArgument} {s : Arguments}

/-! ## Many arguments -/

/-- Adds arguments one by one. -/
def putAll (args : List TypedArgument) : EStateM AbiError Arguments Unit :=
  args.forM fun a => put a.param a.value

theorem run_putAll_from {s' : Arguments} :
    (putAll args).run s = .ok () s' ↔ ∃ ms, args.mapM TypedArgument.member = .ok ms ∧
      s' = ⟨ms.foldl (fun sorted m => Sorted.insert m.1 m.2 sorted) s.members⟩ := by
  induction args generalizing s with
  | nil =>
    constructor
    · intro h
      cases h
      exact ⟨[], rfl, rfl⟩
    · rintro ⟨ms, hms, rfl⟩
      obtain rfl := Except.ok.inj hms
      rfl
  | cons a rest ih =>
    have hcons : putAll (a :: rest) = put a.param a.value >>= fun _ => putAll rest := rfl
    rw [hcons, Outcome.run_bind]
    constructor
    · rintro ⟨_, mid, hput, hrest⟩
      obtain ⟨m, hm, rfl⟩ := run_put.1 hput
      obtain ⟨ms, hms, rfl⟩ := ih.1 hrest
      exact ⟨m :: ms, Outcome.mapM_cons_eq_ok.2 ⟨m, ms, hm, hms, rfl⟩, rfl⟩
    · rintro ⟨ms, hms, rfl⟩
      obtain ⟨m, more, hm, hmore, rfl⟩ := Outcome.mapM_cons_eq_ok.1 hms
      exact ⟨(), _, run_put.2 ⟨m, hm, rfl⟩, ih.2 ⟨more, hmore, rfl⟩⟩

/-- What is collected are the members of the arguments, sorted by name. -/
theorem run_putAll :
    (putAll args).run {} = .ok () s ↔
      ∃ ms, args.mapM TypedArgument.member = .ok ms ∧ s = ⟨Sorted.ofList ms⟩ :=
  run_putAll_from

theorem pairwise_of_mapM_member (hnames : args.Pairwise fun a b => a.param.name ≠ b.param.name)
    {ms : List (String × Json)} (hms : args.mapM TypedArgument.member = .ok ms) :
    ms.Pairwise fun m n => m.1 ≠ n.1 := by
  refine (Outcome.pairwise_mapM hms fun a _ b _ m n hm hn => ?_).1 hnames
  obtain ⟨_, _, -, -, -, hname⟩ := member_eq_ok.1 hm
  obtain ⟨_, _, -, -, -, hname'⟩ := member_eq_ok.1 hn
  rw [hname, hname']

/-- Arguments of different names may be added in any order. -/
theorem run_putAll_of_perm (hnames : args.Pairwise fun a b => a.param.name ≠ b.param.name)
    (horder : order.Perm args) (h : (putAll args).run {} = .ok () s) :
    (putAll order).run {} = .ok () s := by
  obtain ⟨ms, hms, rfl⟩ := run_putAll.1 h
  obtain ⟨ns, hns, hperm⟩ := Outcome.exists_mapM_of_perm horder.symm hms
  refine run_putAll.2 ⟨ns, hns, ?_⟩
  have hsorted := Sorted.perm_ofList (pairwise_of_mapM_member hnames hms)
  rw [Sorted.ofList_eq_of_perm (hperm.trans hsorted.symm) (Sorted.ascending_ofList ms)]

/-- Arguments whose values are converted can be added. -/
theorem exists_run_putAll (hargs : ∀ a ∈ args, a.Restorable)
    (hvalues : ∀ a ∈ args, ∃ v, toValue a.value a.type = .ok v) :
    ∃ s, (putAll args).run {} = .ok () s := by
  have hmembers : ∀ a ∈ args, ∃ m, a.member = .ok m := by
    intro a ha
    obtain ⟨v, hv⟩ := hvalues a ha
    have hlegal := AbiType.legal_of_parse a.parses
    have hsound := hargs a ha
    have hproper := AbiType.yields_native hlegal hsound.names hsound.narrow _ v hsound.cells hv
    obtain ⟨json, hjson⟩ := hproper.exists_toJson hlegal
    exact ⟨(a.param.name, json), member_eq_ok.2 ⟨a.type, v, a.parses, hv, hjson, rfl⟩⟩
  obtain ⟨ms, hms⟩ := Outcome.exists_mapM hmembers
  exact ⟨_, run_putAll.2 ⟨ms, hms, rfl⟩⟩

end Arguments

namespace StateVariables

variable {args : List TypedArgument} {s : Arguments}

/-! ## Reading back -/

/-- The member of an argument is read as the value that it was. -/
theorem field_eq_of_member {a : TypedArgument} (ha : a.Restorable) {m : String × Json}
    (hm : a.member = .ok m) {members : List (String × Json)}
    (hlookup : Sorted.lookup m.1 members = some m.2) :
    field ⟨members⟩ a.param = .ok a.value := by
  obtain ⟨type, v, htype, hv, hjson, hname⟩ := Arguments.member_eq_ok.1 hm
  obtain rfl := Except.ok.inj (a.parses.symm.trans htype)
  obtain ⟨w, hw, hback⟩ := AbiType.ofValue_ofJson_toJson (AbiType.legal_of_parse a.parses)
    ha.single ha.names ha.narrow ha.cells hv hjson
  rw [hname] at hlookup
  refine Outcome.bind_eq_ok.2 ⟨a.type, a.parses, ?_⟩
  simp only [hlookup]
  exact Outcome.bind_eq_ok.2 ⟨w, hw, hback⟩

/-- Arguments of different names that were all added are read back as the variables of their
parameters, whatever the order in which they were added; and wherever an argument fails, what is
collected by then is left as it was. -/
theorem field_eq_of_putAll (hnames : args.Pairwise fun a b => a.param.name ≠ b.param.name)
    (hargs : ∀ a ∈ args, a.Restorable) :
    (∀ s, (Arguments.putAll args).run {} = .ok () s →
      (∀ a ∈ args, field ⟨s.members⟩ a.param = .ok a.value) ∧
        ∀ order, order.Perm args → (Arguments.putAll order).run {} = .ok () s) ∧
    ∀ (α : Type) [ToValue α] (p : Param) (x : α) (s s' : Arguments) (e : AbiError),
      (Arguments.put p x).run s = .error e s' → s' = s := by
  constructor
  · intro s hrun
    refine ⟨fun a ha => ?_, fun order horder => Arguments.run_putAll_of_perm hnames horder hrun⟩
    obtain ⟨ms, hms, rfl⟩ := Arguments.run_putAll.1 hrun
    obtain ⟨m, hm, hmember⟩ := (Outcome.mapM_spec hms).2.1 a ha
    have hdistinct := Arguments.pairwise_of_mapM_member hnames hms
    exact field_eq_of_member (hargs a ha) hmember ((Sorted.lookup_ofList hdistinct).2 hm)
  · intro α _ p x s s' e h
    exact (Arguments.run_put_error.1 h).2

/-- A map whose keys are in another order as numbers than as texts. -/
def limits : TypedArgument where
  param := { name := "limits", type := "map(uint8,optional(cell))" }
  type := .map (.uint 8) (.optional .cell)
  parses := AbiType.ofDescriptor_map (d := "map(uint8,optional(cell))".toList) rfl
    (AbiType.ofDescriptor_plain rfl) rfl
    (AbiType.ofDescriptor_optional rfl (AbiType.ofDescriptor_plain rfl))
  value := ⟨[(2, some .empty), (10, none)], List.pairwise_pair.2 rfl⟩

/-- A null address. -/
def owner : TypedArgument where
  param := { name := "owner", type := "address" }
  type := .address false
  parses := AbiType.ofDescriptor_plain (d := "address".toList) rfl
  value := none

theorem field_eq_of_putAll_limits_owner :
    limits.param.name ≠ owner.param.name ∧ limits.Restorable ∧ owner.Restorable ∧
      (∃ s, (Arguments.putAll [limits, owner]).run {} = .ok () s ∧
        field ⟨s.members⟩ limits.param = .ok limits.value ∧
        field ⟨s.members⟩ owner.param = .ok owner.value ∧
        (Arguments.putAll [owner, limits]).run {} = .ok () s) ∧
      ∃ e s', (Arguments.put { name := "small", type := "uint8" } (1000 : Int)).run {} =
          .error e s' ∧ s' = {} := by
  have hne : limits.param.name ≠ owner.param.name := by decide
  have hlimits : limits.Restorable := by
    refine ⟨.map (.integer _ _) (.optional nofun .cell), .map (.integer _ _) (.optional .cell),
      .map (.integer _ _) (.optional .cell), ?_⟩
    have hempty : Cell.empty.Normal ∧ Cell.empty.size < 2 ^ 32 :=
      ⟨⟨⟨rfl, fun i _ => rfl, by decide, by decide⟩, trivial⟩, by decide⟩
    refine List.forall_mem_cons.2 ⟨fun c hc => ?_, List.forall_mem_singleton.2 nofun⟩
    obtain rfl := Option.some.inj hc
    exact hempty
  have howner : owner.Restorable := ⟨.address _, .address _, .address _, nofun⟩
  have hnames : [limits, owner].Pairwise fun a b => a.param.name ≠ b.param.name :=
    List.pairwise_pair.2 hne
  have hargs : ∀ a ∈ [limits, owner], a.Restorable :=
    List.forall_mem_cons.2 ⟨hlimits, List.forall_mem_singleton.2 howner⟩
  have hvalues : ∀ a ∈ [limits, owner], ∃ v, toValue a.value a.type = .ok v :=
    List.forall_mem_cons.2 ⟨⟨_, rfl⟩, List.forall_mem_singleton.2 ⟨_, rfl⟩⟩
  obtain ⟨s, hrun⟩ := Arguments.exists_run_putAll hargs hvalues
  obtain ⟨hread, hfail⟩ := field_eq_of_putAll hnames hargs
  obtain ⟨hfields, horder⟩ := hread s hrun
  have hmember : Arguments.member { name := "small", type := "uint8" } (1000 : Int) =
      .error (.outOfRange 1000 (.uint 8)) := by
    have huint : Param.abiType { name := "small", type := "uint8" } = .ok (.uint 8) :=
      AbiType.ofDescriptor_plain rfl
    rw [Arguments.member, huint]
    rfl
  have hsmall := Arguments.run_put_error.2 ⟨hmember, Eq.refl ({} : Arguments)⟩
  refine ⟨hne, hlimits, howner, ⟨s, hrun, ?_, ?_, horder _ (.swap ..)⟩, _, _, hsmall, ?_⟩
  · exact hfields limits List.mem_cons_self
  · exact hfields owner (List.mem_cons_of_mem _ List.mem_cons_self)
  · exact hfail _ _ _ _ _ _ hsmall

end StateVariables

end CellAbi
