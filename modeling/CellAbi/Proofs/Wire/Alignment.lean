import CellAbi.Proofs.Wire.RoundTrip

/-!
# One item for every value

Decoding takes the first item, be it that it succeeds or that it fails, and the items behind that
one make no difference to what comes of it.  So the place of a value is the number of values before
it, whatever their types are and whatever is read for them.

    Decode.TakesFirst (decode codec name type)                                (`takesFirst_decode`)
    (afterEach codec params (s, items)).2 = items.drop params.length               (`snd_afterEach`)
-/

namespace CellAbi.Wire

variable {σ α β : Type}

/-! ## Steps and the items that they take -/

namespace Decode

/-- A result or an error, and the state in which the step ends. -/
def ended (result : Except AbiError α) (st : σ × List Item) :
    EStateM.Result AbiError (σ × List Item) α :=
  match result with
  | .ok a => .ok a st
  | .error e => .error e st

/-- The step leaves the items, and they make no difference to it. -/
def KeepsItems (step : Decode σ α) : Prop :=
  ∀ s, ∃ result s', ∀ items, step.run (s, items) = ended result (s', items)

/-- The step takes the first item, whatever comes of it, and the others make no difference to it. -/
structure TakesFirst (step : Decode σ α) : Prop where
  empty : ∀ s, step.run (s, []) = .error (.shape "an item" "end of tuple") (s, [])
  first : ∀ s item, ∃ result s', ∀ rest, step.run (s, item :: rest) = ended result (s', rest)

theorem keepsItems_pure (a : α) : KeepsItems (pure a : Decode σ α) :=
  fun s => ⟨.ok a, s, fun _ => rfl⟩

theorem keepsItems_throw (e : AbiError) : KeepsItems (throw e : Decode σ α) :=
  fun s => ⟨.error e, s, fun _ => rfl⟩

theorem keepsItems_ofExcept (x : Except AbiError α) : KeepsItems (ofExcept x : Decode σ α) := by
  cases x with
  | ok a => exact keepsItems_pure a
  | error e => exact keepsItems_throw e

theorem keepsItems_call (step : EStateM AbiError σ α) : KeepsItems (Decode.call step) := by
  intro s
  cases hstep : step s with
  | ok a s' => exact ⟨.ok a, s', fun items => by simp only [EStateM.run, Decode.call, hstep, ended]⟩
  | error e s' =>
    exact ⟨.error e, s', fun items => by simp only [EStateM.run, Decode.call, hstep, ended]⟩

/-- What a step does to items of its own is not seen from outside. -/
theorem keepsItems_within (inner : List Item) (step : Decode σ α) :
    KeepsItems (Decode.within inner step) := by
  intro s
  cases hstep : step (s, inner) with
  | ok a st =>
    exact ⟨.ok a, st.1, fun items => by simp only [EStateM.run, Decode.within, hstep, ended]⟩
  | error e st =>
    exact ⟨.error e, st.1, fun items => by simp only [EStateM.run, Decode.within, hstep, ended]⟩

theorem KeepsItems.bind {step : Decode σ α} {next : α → Decode σ β} (h : KeepsItems step)
    (hnext : ∀ a, KeepsItems (next a)) : KeepsItems (step >>= next) := by
  intro s
  obtain ⟨result, s', hrun⟩ := h s
  cases result with
  | error e => exact ⟨.error e, s', fun items => by rw [EStateM.run_bind, hrun]; rfl⟩
  | ok a =>
    obtain ⟨result, s'', hrun'⟩ := hnext a s'
    exact ⟨result, s'', fun items => by rw [EStateM.run_bind, hrun]; exact hrun' items⟩

theorem TakesFirst.bind {step : Decode σ α} {next : α → Decode σ β} (h : TakesFirst step)
    (hnext : ∀ a, KeepsItems (next a)) : TakesFirst (step >>= next) where
  empty s := by rw [EStateM.run_bind, h.empty]
  first s item := by
    obtain ⟨result, s', hrun⟩ := h.first s item
    cases result with
    | error e => exact ⟨.error e, s', fun rest => by rw [EStateM.run_bind, hrun]; rfl⟩
    | ok a =>
      obtain ⟨result, s'', hrun'⟩ := hnext a s'
      exact ⟨result, s'', fun rest => by rw [EStateM.run_bind, hrun]; exact hrun' rest⟩

/-- A step that succeeds had an item to take. -/
theorem TakesFirst.exists_cons {step : Decode σ α} (h : TakesFirst step) {s s' : σ}
    {items rest : List Item} {a : α} (hrun : step.run (s, items) = .ok a (s', rest)) :
    ∃ item, items = item :: rest := by
  cases items with
  | nil =>
    rw [h.empty] at hrun
    cases hrun
  | cons item items =>
    obtain ⟨result, s'', hfirst⟩ := h.first s item
    rw [hfirst] at hrun
    cases result with
    | error e => cases hrun
    | ok a' =>
      cases hrun
      exact ⟨item, rfl⟩

/-! ## Reading an item -/

theorem takesFirst_pop : TakesFirst (Decode.read ReadItems.pop : Decode σ Item) where
  empty _ := rfl
  first s item := ⟨.ok item, s, fun _ => rfl⟩

theorem read_bind (step : ReadItems α) (next : α → ReadItems β) :
    (Decode.read (step >>= next) : Decode σ β) =
      Decode.read step >>= fun a => Decode.read (next a) := by
  funext ⟨s, items⟩
  simp only [Decode.read, bind, EStateM.bind]
  cases step items <;> rfl

/-- An item is taken before its kind is looked at. -/
theorem takesFirst_read {read : Item → ReadItems α}
    (h : ∀ item, KeepsItems (Decode.read (read item) : Decode σ α)) :
    TakesFirst (Decode.read (ReadItems.pop >>= read) : Decode σ α) := by
  rw [read_bind]
  exact takesFirst_pop.bind h

theorem takesFirst_int : TakesFirst (Decode.read ReadItems.int : Decode σ Int) := by
  refine takesFirst_read fun item => ?_
  cases item with
  | int i => exact keepsItems_pure i
  | _ => exact keepsItems_throw _

theorem takesFirst_cell : TakesFirst (Decode.read ReadItems.cell : Decode σ Cell) := by
  refine takesFirst_read fun item => ?_
  cases item with
  | cell c | slice c => exact keepsItems_pure c
  | _ => exact keepsItems_throw _

theorem takesFirst_tuple : TakesFirst (Decode.read ReadItems.tuple : Decode σ (List Item)) := by
  refine takesFirst_read fun item => ?_
  cases item with
  | tuple items => exact keepsItems_pure items
  | _ => exact keepsItems_throw _

theorem takesFirst_address :
    TakesFirst (Decode.read ReadItems.address : Decode σ (Option Address)) := by
  refine takesFirst_read fun item => ?_
  cases item with
  | null => exact keepsItems_pure none
  | cell c | slice c =>
    dsimp only
    cases ReadItems.addressOfCell c with
    | ok a => exact keepsItems_pure a
    | error e => exact keepsItems_throw e
  | _ => exact keepsItems_throw _

theorem takesFirst_bool : TakesFirst (Decode.read ReadItems.bool : Decode σ Bool) := by
  rw [ReadItems.bool, read_bind]
  exact takesFirst_int.bind fun i => keepsItems_pure (i != 0)

end Decode

open Decode

/-! ## Decoding -/

variable {codec : Codec σ}

theorem keepsItems_decodeCell (codec : Codec σ) (name : String) (type : AbiType) (c : Cell) :
    KeepsItems (decodeCell codec name type c) :=
  (keepsItems_call _).bind fun _ => keepsItems_ofExcept _

/-- By the optionals around a type; the items of tuples and arrays are items of their own. -/
theorem takesFirst_decode (codec : Codec σ) (name : String) :
    ∀ type, TakesFirst (decode codec name type)
  | .integer .. => by
    rw [decode]
    exact takesFirst_int.bind fun i => keepsItems_pure _
  | .bool => by
    rw [decode]
    exact takesFirst_bool.bind fun b => keepsItems_pure _
  | .cell => by
    rw [decode]
    exact takesFirst_cell.bind fun c => keepsItems_pure _
  | .string | .bytes _ | .map .. => by
    rw [decode]
    exact takesFirst_cell.bind fun c => keepsItems_decodeCell codec name _ c
  | .address strict => by
    rw [decode]
    refine takesFirst_address.bind fun a => ?_
    cases a with
    | none => exact keepsItems_pure _
    | some a =>
      dsimp only
      split
      · exact keepsItems_throw _
      · exact keepsItems_pure _
  | .array element => by
    rw [decode]
    refine takesFirst_tuple.bind fun items => (keepsItems_within items _).bind fun parts => ?_
    exact (keepsItems_ofExcept _).bind fun c => keepsItems_decodeCell codec name _ c
  | .tuple components => by
    rw [decode]
    refine takesFirst_tuple.bind fun items => ?_
    exact (keepsItems_within items _).bind fun fields => keepsItems_pure _
  | .optional inner => by
    have hinner := takesFirst_decode codec name inner
    refine ⟨fun s => by rw [decode]; rfl, fun s item => ?_⟩
    by_cases hnull : item = .null
    · exact ⟨.ok .null, s, fun rest => by rw [hnull, decode]; rfl⟩
    · obtain ⟨result, s', hfirst⟩ := hinner.first s item
      exact ⟨result, s', fun rest => by rw [decode_optional hnull]; exact hfirst rest⟩

/-- The state in which a step ends, whether it succeeds or fails. -/
def after {ε : Type} : EStateM.Result ε σ α → σ
  | .ok _ s | .error _ s => s

/-- The service and the items after values have been decoded one by one, as parameters of these
names and types; a value that fails does not keep the next ones from being tried. -/
def afterEach (codec : Codec σ) (params : List (String × AbiType)) (st : σ × List Item) :
    σ × List Item :=
  params.foldl (fun st p => after ((decode codec p.1 p.2).run st)) st

theorem after_ended (result : Except AbiError α) (st : σ × List Item) :
    after (ended result st) = st := by
  cases result <;> rfl

theorem after_decode (codec : Codec σ) (name : String) (type : AbiType) (s : σ)
    (items : List Item) :
    ∃ s', after ((decode codec name type).run (s, items)) = (s', items.drop 1) := by
  have htakes := takesFirst_decode codec name type
  cases items with
  | nil => exact ⟨s, by rw [htakes.empty]; rfl⟩
  | cons item rest =>
    obtain ⟨result, s', hfirst⟩ := htakes.first s item
    exact ⟨s', by rw [hfirst, after_ended]; rfl⟩

theorem snd_afterEach (codec : Codec σ) (params : List (String × AbiType)) (s : σ)
    (items : List Item) :
    (afterEach codec params (s, items)).2 = items.drop params.length := by
  induction params generalizing s items with
  | nil => rfl
  | cons p params ih =>
    obtain ⟨s', hstep⟩ := after_decode codec p.1 p.2 s items
    show (afterEach codec params (after ((decode codec p.1 p.2).run (s, items)))).2 = _
    rw [hstep, ih, List.drop_drop, List.length_cons, Nat.add_comm]

/-- Without items decoding fails and changes nothing.  Else it takes exactly the first item, whether
it succeeds or fails, and neither what comes of it nor the state of the service depends on the
others.  The items that are left for a value are those behind as many as there are values before
it. -/
theorem decode_aligned (codec : Codec σ) (name : String) (type : AbiType) (s : σ) :
    (decode codec name type).run (s, []) = .error (.shape "an item" "end of tuple") (s, []) ∧
    (∀ item, ∃ result s', ∀ rest,
      (decode codec name type).run (s, item :: rest) = ended result (s', rest)) ∧
    ∀ params items, (afterEach codec params (s, items)).2 = items.drop params.length :=
  ⟨(takesFirst_decode codec name type).empty s, (takesFirst_decode codec name type).first s,
    fun params items => snd_afterEach codec params s items⟩

end CellAbi.Wire
