/-!
# Steps that may fail

What a sequence of steps, a loop and a mapping say about their single steps when they succeed.
-/

namespace CellAbi.Outcome

variable {ε α β : Type}

theorem bind_eq_ok {step : Except ε α} {next : α → Except ε β} {b : β} :
    step >>= next = .ok b ↔ ∃ a, step = .ok a ∧ next a = .ok b := by
  cases step with
  | error e =>
    refine iff_of_false nofun ?_
    rintro ⟨a, ha, -⟩
    cases ha
  | ok a =>
    constructor
    · exact fun h => ⟨a, rfl, h⟩
    · rintro ⟨a', ha, h⟩
      cases ha
      exact h

theorem bind_of_ok {step : Except ε α} {a : α} (h : step = .ok a) (next : α → Except ε β) :
    step >>= next = next a := by
  rw [h]
  rfl

theorem bind_pure_eq_ok {step : Except ε α} {g : α → β} {b : β} :
    (step >>= fun a => pure (g a)) = .ok b ↔ ∃ a, step = .ok a ∧ b = g a := by
  rw [bind_eq_ok]
  constructor
  · rintro ⟨a, ha, h⟩
    exact ⟨a, ha, (Except.ok.inj h).symm⟩
  · rintro ⟨a, ha, rfl⟩
    exact ⟨a, ha, rfl⟩

theorem map_eq_ok {step : Except ε α} {g : α → β} {b : β} :
    step.map g = .ok b ↔ ∃ a, step = .ok a ∧ b = g a := by
  cases step with
  | error e =>
    refine iff_of_false nofun ?_
    rintro ⟨a, ha, -⟩
    cases ha
  | ok a =>
    constructor
    · exact fun h => ⟨a, rfl, (Except.ok.inj h).symm⟩
    · rintro ⟨a', ha, rfl⟩
      cases ha
      rfl

theorem mapError_eq_ok {ε' : Type} {step : Except ε α} {f : ε → ε'} {a : α} :
    step.mapError f = .ok a ↔ step = .ok a := by
  cases step with
  | error e => exact iff_of_false nofun nofun
  | ok b => exact ⟨fun h => congrArg _ (Except.ok.inj h), fun h => congrArg _ (Except.ok.inj h)⟩

theorem toOption_eq_some {step : Except ε α} {a : α} : step.toOption = some a ↔ step = .ok a := by
  cases step with
  | error e => exact iff_of_false nofun nofun
  | ok b => exact ⟨fun h => congrArg _ (Option.some.inj h), fun h => congrArg _ (Except.ok.inj h)⟩

theorem forM_eq_ok {f : α → Except ε Unit} {l : List α} :
    l.forM f = .ok () ↔ ∀ a ∈ l, f a = .ok () := by
  induction l with
  | nil => exact iff_of_true rfl fun _ ha => absurd ha List.not_mem_nil
  | cons a rest ih =>
    have hcons : (a :: rest).forM f = f a >>= fun _ => rest.forM f := rfl
    rw [hcons, bind_eq_ok, List.forall_mem_cons, ← ih]
    constructor
    · rintro ⟨_, ha, hrest⟩
      exact ⟨ha, hrest⟩
    · rintro ⟨ha, hrest⟩
      exact ⟨(), ha, hrest⟩

/-! ## Steps with a state -/

theorem run_bind {σ : Type} {step : EStateM ε σ α} {next : α → EStateM ε σ β} {s s' : σ} {b : β} :
    (step >>= next).run s = .ok b s' ↔
      ∃ a mid, step.run s = .ok a mid ∧ (next a).run mid = .ok b s' := by
  rw [EStateM.run_bind]
  cases h : step.run s with
  | error e mid =>
    refine iff_of_false nofun ?_
    rintro ⟨a, mid, hstep, -⟩
    cases hstep
  | ok a mid =>
    constructor
    · exact fun hnext => ⟨a, mid, rfl, hnext⟩
    · rintro ⟨a', mid', hstep, hnext⟩
      cases hstep
      exact hnext

/-- The same of steps whose answer alone says that they failed. -/
theorem run_run_bind {σ : Type} {step : ExceptT ε (StateM σ) α} {next : α → ExceptT ε (StateM σ) β}
    {s s' : σ} {b : β} :
    (step >>= next).run.run s = (.ok b, s') ↔
      ∃ a mid, step.run.run s = (.ok a, mid) ∧ (next a).run.run mid = (.ok b, s') := by
  rw [ExceptT.run_bind, StateT.run_bind]
  rcases hstep : step.run.run s with ⟨r, mid⟩
  cases r with
  | error e =>
    refine iff_of_false (fun h => ?_) ?_
    · cases congrArg Prod.fst h
    · rintro ⟨a, mid, h, -⟩
      cases congrArg Prod.fst h
  | ok a =>
    constructor
    · exact fun hnext => ⟨a, mid, rfl, hnext⟩
    · rintro ⟨a', mid', h, hnext⟩
      cases h
      exact hnext

section
variable {σ : Type} {s : σ}

/-- The step has a result. -/
def Succeeds (step : EStateM ε σ α) (s : σ) : Prop := ∃ a s', step.run s = .ok a s'

theorem succeeds_pure (a : α) : Succeeds (pure a : EStateM ε σ α) s := ⟨a, s, rfl⟩

theorem not_succeeds_throw {e : ε} : ¬ Succeeds (throw e : EStateM ε σ α) s := nofun

/-- Two steps succeed iff both do, where the second one does so at any rate or not at all. -/
theorem succeeds_bind {step : EStateM ε σ α} {next : α → EStateM ε σ β} {P : Prop}
    (h : ∀ a s, Succeeds (next a) s ↔ P) : Succeeds (step >>= next) s ↔ Succeeds step s ∧ P := by
  constructor
  · rintro ⟨b, s'', hrun⟩
    obtain ⟨a, s', hstep, hnext⟩ := run_bind.1 hrun
    exact ⟨⟨a, s', hstep⟩, (h a s').1 ⟨b, s'', hnext⟩⟩
  · rintro ⟨⟨a, s', hstep⟩, hP⟩
    obtain ⟨b, s'', hnext⟩ := (h a s').2 hP
    exact ⟨b, s'', run_bind.2 ⟨a, s', hstep, hnext⟩⟩

theorem succeeds_map {step : EStateM ε σ α} {g : α → β} :
    Succeeds (do return g (← step)) s ↔ Succeeds step s := by
  rw [succeeds_bind fun a _ => iff_true_intro (succeeds_pure (g a)), and_true]

end

/-! ## Results and errors -/

/-- A result has the one property, or an error has the other. -/
def Ends (P : α → Prop) (E : ε → Prop) : Except ε α → Prop
  | .ok a => P a
  | .error e => E e

theorem Ends.bind {P : α → Prop} {Q : β → Prop} {E : ε → Prop} {step : Except ε α}
    {next : α → Except ε β} (hstep : Ends P E step) (hnext : ∀ a, P a → Ends Q E (next a)) :
    Ends Q E (step >>= next) := by
  cases step with
  | ok a => exact hnext a hstep
  | error e => exact hstep

/-! ## Mappings -/

theorem mapM_cons_eq_ok {f : α → Except ε β} {a : α} {l : List α} {bs : List β} :
    (a :: l).mapM f = .ok bs ↔ ∃ b rest, f a = .ok b ∧ l.mapM f = .ok rest ∧ bs = b :: rest := by
  rw [List.mapM_cons, bind_eq_ok]
  simp only [bind_eq_ok]
  constructor
  · rintro ⟨b, hb, rest, hrest, h⟩
    exact ⟨b, rest, hb, hrest, (Except.ok.inj h).symm⟩
  · rintro ⟨b, rest, hb, hrest, rfl⟩
    exact ⟨b, hb, rest, hrest, rfl⟩

theorem mapM_eq_ok {f : α → Except ε β} {g : α → β} {l : List α}
    (h : ∀ a ∈ l, f a = .ok (g a)) : l.mapM f = .ok (l.map g) := by
  induction l with
  | nil => rfl
  | cons a l ih =>
    obtain ⟨ha, hl⟩ := List.forall_mem_cons.1 h
    exact mapM_cons_eq_ok.2 ⟨g a, l.map g, ha, ih hl, rfl⟩

/-- Results and inputs correspond to each other. -/
theorem mapM_spec {f : α → Except ε β} {l : List α} {bs : List β} (h : l.mapM f = .ok bs) :
    bs.length = l.length ∧ (∀ a ∈ l, ∃ b ∈ bs, f a = .ok b) ∧ ∀ b ∈ bs, ∃ a ∈ l, f a = .ok b := by
  induction l generalizing bs with
  | nil =>
    obtain rfl := Except.ok.inj h
    exact ⟨rfl, fun _ ha => absurd ha List.not_mem_nil, fun _ hb => absurd hb List.not_mem_nil⟩
  | cons a l ih =>
    obtain ⟨b, rest, hb, hrest, rfl⟩ := mapM_cons_eq_ok.1 h
    obtain ⟨hlen, hto, hfrom⟩ := ih hrest
    refine ⟨congrArg (· + 1) hlen, ?_, ?_⟩
    · refine List.forall_mem_cons.2 ⟨⟨b, List.mem_cons_self, hb⟩, fun a ha => ?_⟩
      obtain ⟨b, hmem, hb⟩ := hto a ha
      exact ⟨b, List.mem_cons_of_mem _ hmem, hb⟩
    · refine List.forall_mem_cons.2 ⟨⟨a, List.mem_cons_self, hb⟩, fun b hb => ?_⟩
      obtain ⟨a, hmem, ha⟩ := hfrom b hb
      exact ⟨a, List.mem_cons_of_mem _ hmem, ha⟩

/-- What every step fixes of its result, the mapping fixes of its results. -/
theorem map_eq_of_mapM {γ : Type} {f : α → Except ε β} {g : β → γ} {k : α → γ} {l : List α}
    {bs : List β} (h : l.mapM f = .ok bs) (hstep : ∀ a b, f a = .ok b → g b = k a) :
    bs.map g = l.map k := by
  induction l generalizing bs with
  | nil =>
    obtain rfl := Except.ok.inj h
    rfl
  | cons a l ih =>
    obtain ⟨b, rest, hb, hrest, rfl⟩ := mapM_cons_eq_ok.1 h
    rw [List.map_cons, List.map_cons, hstep a b hb, ih hrest]

theorem flatMap_eq_of_mapM {γ : Type} {f : α → Except ε β} {g : β → List γ} {k : α → List γ}
    {l : List α} {bs : List β} (h : l.mapM f = .ok bs)
    (hstep : ∀ a b, f a = .ok b → g b = k a) : bs.flatMap g = l.flatMap k := by
  rw [List.flatMap_def, map_eq_of_mapM h hstep, ← List.flatMap_def]

/-- Where every step succeeds, so does the mapping. -/
theorem exists_mapM {f : α → Except ε β} {l : List α} (h : ∀ a ∈ l, ∃ b, f a = .ok b) :
    ∃ bs, l.mapM f = .ok bs := by
  induction l with
  | nil => exact ⟨[], rfl⟩
  | cons a l ih =>
    obtain ⟨b, hb⟩ := h a List.mem_cons_self
    obtain ⟨bs, hbs⟩ := ih fun a ha => h a (List.mem_cons_of_mem _ ha)
    exact ⟨b :: bs, mapM_cons_eq_ok.2 ⟨b, bs, hb, hbs, rfl⟩⟩

/-- Where every step succeeds, what it says of its result carries over to the results. -/
theorem exists_mapM_eq_ok {f : α → Except ε β} {P : α → β → Prop} {l : List α}
    (h : ∀ a ∈ l, ∃ b, f a = .ok b ∧ P a b) :
    ∃ bs, l.mapM f = .ok bs ∧ bs.length = l.length ∧ (∀ a ∈ l, ∃ b ∈ bs, P a b) ∧
      ∀ b ∈ bs, ∃ a ∈ l, P a b := by
  obtain ⟨bs, hbs⟩ := exists_mapM fun a ha => (h a ha).imp fun _ hb => hb.1
  have hstep : ∀ a ∈ l, ∀ b, f a = .ok b → P a b := by
    intro a ha b hb
    obtain ⟨b', hb', hP⟩ := h a ha
    obtain rfl := Except.ok.inj (hb.symm.trans hb')
    exact hP
  obtain ⟨hlen, hto, hfrom⟩ := mapM_spec hbs
  refine ⟨bs, hbs, hlen, fun a ha => ?_, fun b hb => ?_⟩
  · obtain ⟨b, hb, hab⟩ := hto a ha
    exact ⟨b, hb, hstep a ha b hab⟩
  · obtain ⟨a, ha, hab⟩ := hfrom b hb
    exact ⟨a, ha, hstep a ha b hab⟩

/-- A mapping that gives every input back gives all of them back. -/
theorem mapM_eq_self {f : α → Except ε α} {l : List α} (h : ∀ a ∈ l, f a = .ok a) :
    l.mapM f = .ok l := by
  induction l with
  | nil => rfl
  | cons a l ih =>
    obtain ⟨ha, hl⟩ := List.forall_mem_cons.1 h
    exact mapM_cons_eq_ok.2 ⟨a, l, ha, ih hl, rfl⟩

/-- A step that tells its inputs apart tells lists of them apart. -/
theorem mapM_inj {f : α → Except ε β} (hf : ∀ a a' b, f a = .ok b → f a' = .ok b → a = a')
    {l m : List α} {bs : List β} (hl : l.mapM f = .ok bs) (hm : m.mapM f = .ok bs) : l = m := by
  induction bs generalizing l m with
  | nil =>
    have hlen := (mapM_spec hl).1
    have hlen' := (mapM_spec hm).1
    rw [List.length_eq_zero_iff.1 hlen.symm, List.length_eq_zero_iff.1 hlen'.symm]
  | cons b bs ih =>
    cases l with
    | nil => cases hl
    | cons a l =>
      cases m with
      | nil => cases hm
      | cons a' m =>
        obtain ⟨_, _, ha, hl, h⟩ := mapM_cons_eq_ok.1 hl
        cases h
        obtain ⟨_, _, ha', hm, h⟩ := mapM_cons_eq_ok.1 hm
        cases h
        rw [hf a a' b ha ha', ih hl hm]

/-- Inputs in another order have their results in another order. -/
theorem exists_mapM_of_perm {f : α → Except ε β} {l m : List α} (h : l.Perm m) :
    ∀ {bs}, l.mapM f = .ok bs → ∃ cs, m.mapM f = .ok cs ∧ cs.Perm bs := by
  induction h with
  | nil => exact fun hbs => ⟨_, hbs, .refl _⟩
  | cons a _ ih =>
    intro bs hbs
    obtain ⟨b, rest, hb, hrest, rfl⟩ := mapM_cons_eq_ok.1 hbs
    obtain ⟨cs, hcs, hperm⟩ := ih hrest
    exact ⟨b :: cs, mapM_cons_eq_ok.2 ⟨b, cs, hb, hcs, rfl⟩, hperm.cons b⟩
  | swap a b l =>
    intro bs hbs
    obtain ⟨c, rest, hc, hrest, rfl⟩ := mapM_cons_eq_ok.1 hbs
    obtain ⟨d, cs, hd, hcs, rfl⟩ := mapM_cons_eq_ok.1 hrest
    have hfirst : (b :: l).mapM f = .ok (c :: cs) := mapM_cons_eq_ok.2 ⟨c, cs, hc, hcs, rfl⟩
    exact ⟨d :: c :: cs, mapM_cons_eq_ok.2 ⟨d, c :: cs, hd, hfirst, rfl⟩, .swap ..⟩
  | trans _ _ ih ih' =>
    intro bs hbs
    obtain ⟨cs, hcs, hperm⟩ := ih hbs
    obtain ⟨ds, hds, hperm'⟩ := ih' hcs
    exact ⟨ds, hds, hperm'.trans hperm⟩

/-- What holds of every two inputs, in order, holds of their results where the steps carry it over
in both directions. -/
theorem pairwise_mapM {f : α → Except ε β} {R : α → α → Prop} {S : β → β → Prop} {l : List α}
    {bs : List β} (h : l.mapM f = .ok bs)
    (hstep : ∀ a ∈ l, ∀ a' ∈ l, ∀ b b', f a = .ok b → f a' = .ok b' → (R a a' ↔ S b b')) :
    l.Pairwise R ↔ bs.Pairwise S := by
  induction l generalizing bs with
  | nil =>
    obtain rfl := Except.ok.inj h
    exact iff_of_true .nil .nil
  | cons a l ih =>
    obtain ⟨b, rest, hb, hrest, rfl⟩ := mapM_cons_eq_ok.1 h
    obtain ⟨-, hto, hfrom⟩ := mapM_spec hrest
    have htail := ih hrest fun a ha a' ha' =>
      hstep a (List.mem_cons_of_mem _ ha) a' (List.mem_cons_of_mem _ ha')
    have hhead : (∀ a' ∈ l, R a a') ↔ ∀ b' ∈ rest, S b b' := by
      have hpair : ∀ a' ∈ l, ∀ b', f a' = .ok b' → (R a a' ↔ S b b') := fun a' ha' b' =>
        hstep a List.mem_cons_self a' (List.mem_cons_of_mem _ ha') b b' hb
      constructor
      · intro hR b' hb'
        obtain ⟨a', ha', heq⟩ := hfrom b' hb'
        exact (hpair a' ha' b' heq).1 (hR a' ha')
      · intro hS a' ha'
        obtain ⟨b', hb', heq⟩ := hto a' ha'
        exact (hpair a' ha' b' heq).2 (hS b' hb')
    rw [List.pairwise_cons, List.pairwise_cons, hhead, htail]

end CellAbi.Outcome
