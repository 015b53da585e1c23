import CellAbi.Proofs.Bag.NormalForm
import CellAbi.Proofs.Exactness
import CellAbi.Proofs.Outcome

/-!
# Reading bags on a machine

Reading takes the bytes as they come: counts, sizes and indices of a bag may be anything.  Here a
bag is read by position, in words of 64 bits, with every operation watched for faults and every list
that is laid out in front held against the number of bytes.  No fault ever occurs, and the result is
the one of `Bag.read`.

    FollowsAt input g r rest    at `rest`, `g` does by position what `r` does to the bytes
    build records = .ok (slotsFrom records 0)      for references that lead forward  (`build_eq`)
    Guarded.read input = (Bag.read input).mapError .refused                           (`read_eq`)
-/

namespace CellAbi

/-- Errors that bytes of a bag can cause. -/
def BagError.Reachable : BagError → Prop
  | indexOverflow | bodyOverflow | danglingReference _ => False
  | _ => True

namespace Bag

namespace Guarded

open Exact

/-! ## Steps -/

/-- A step of reading; the state is the position in the input. -/
abbrev Scan := StateT Nat (Except (Stop BagError))

/-- Runs a computation that is watched for faults. -/
def exactly {α : Type} (step : Except (Stop BagError) α) : Scan α := StateT.lift step

def check (ok : Bool) (e : BagError) : Scan Unit := if ok then pure () else throw (.refused e)

section
variable (input : List UInt8)

/-- Lays out room for a list of `count` elements. -/
def room (count : Nat) : Except (Stop BagError) Unit :=
  if count ≤ input.length then .ok () else .error (.fault (.tooMuchRoom count))

/-- Takes the next `n` bytes. -/
def take (n : Nat) : Scan (List UInt8) := do
  let pos ← get
  let stop ← exactly (word (pos + n))
  check (stop ≤ input.length) .unexpectedEnd
  set stop
  return (input.drop pos).take n

def byte : Scan UInt8 := return (← take input 1).headD 0

/-- Takes a number of `width` bytes, high byte first. -/
def uint (width : Nat) : Scan Nat := do
  let bytes ← take input width
  exactly (bytes.foldlM (fun n b => shiftIn 8 n b.toNat) 0)

/-- Reads the header up to the sizes. -/
def header : Scan Header := do
  check ((← take input 4) == magic) .unknownMagic
  let flags ← byte input
  let size := (flags &&& 0x07).toNat
  check (0 < size && size ≤ 4) (.referenceSize size)
  let offsetSize := (← byte input).toNat
  check (0 < offsetSize && offsetSize ≤ 8) (.offsetSize offsetSize)
  let cellCount ← uint input size
  let rootCount ← uint input size
  let _absent ← uint input size
  let bodySize ← uint input offsetSize
  check (rootCount != 0) .noRoots
  check (rootCount ≤ cellCount) (.moreRootsThanCells rootCount cellCount)
  let pos ← get
  let left ← exactly (word (input.length - pos))
  let cellBytes ← exactly (word (cellCount * 2))
  let rootBytes ← exactly (word (rootCount * size))
  check (cellBytes ≤ left && rootBytes ≤ left && bodySize ≤ left) .countsExceedData
  return {
    hasIndex := flags &&& 0x80 != 0, hasChecksum := flags &&& 0x40 != 0
    size, offsetSize, cellCount, rootCount, bodySize }

/-- Clears the completion tag and counts the bits before it. -/
def stripTag? (data : List UInt8) : Except (Stop BagError) (Option (List UInt8 × Nat)) :=
  match data.getLast? with
  | none => return none
  | some last =>
    if last = 0 then return none
    else do
      let zeros := trailingZeros last
      let tag ← shiftLeft (.unsigned 8) 1 zeros
      let bits ← word (data.length * 8)
      let behind ← word (bits - zeros)
      let bitLen ← word (behind - 1)
      return some (data.dropLast ++ [last &&& ~~~(UInt8.ofNat tag.toNat)], bitLen)

/-- The data bytes and bit count of record `index`, whose second descriptor byte is `d2`. -/
def recordData (index : Nat) (d2 : UInt8) : Scan (List UInt8 × Nat) := do
  let rounded ← exactly (word (d2.toNat + 1))
  let data ← take input (rounded / 2)
  exactly (room input data.length)
  if d2.toNat % 2 = 1 then
    match ← exactly (stripTag? data) with
    | some stripped => return stripped
    | none => throw (.refused (.noCompletionTag index))
  else return (data, ← exactly (word (data.length * 8)))

/-- Reads `n` references of record `index`. -/
def recordRefs (h : Header) (index : Nat) : Nat → Scan (List Nat)
  | 0 => return []
  | n + 1 => do
    let target ← uint input h.size
    check (index < target && target < h.cellCount) (.backwardReference index target)
    return target :: (← recordRefs h index n)

def record (h : Header) (index : Nat) : Scan Record := do
  let d1 ← byte input
  let d2 ← byte input
  check (d1 &&& 0x08 == 0) (.exoticCell index)
  check (d1 &&& 0x10 == 0) (.storedHashes index)
  let refCount := (d1 &&& 0x07).toNat
  check (refCount ≤ Cell.maxRefs) (.tooManyReferences index refCount)
  let (data, bitLen) ← recordData input index d2
  exactly (room input refCount)
  return ⟨data, bitLen, ← recordRefs input h index refCount⟩

/-- Reads `n` records, the first of index `index`. -/
def records (h : Header) (index : Nat) : Nat → Scan (List Record)
  | 0 => return []
  | n + 1 => do
    let r ← record input h index
    return r :: (← records h (index + 1) n)

def roots (h : Header) : Nat → Scan (List Nat)
  | 0 => return []
  | n + 1 => do
    let root ← uint input h.size
    return root :: (← roots h n)

/-- Passes over the index, if there is one. -/
def index (h : Header) : Scan Unit :=
  if h.hasIndex then do
    check (h.cellCount * h.offsetSize < wordLimit) .indexOverflow
    let _ ← take input (h.cellCount * h.offsetSize)
    pure ()
  else pure ()

/-- Reads the records; they have to end where the header says. -/
def body (h : Header) : Scan (List Record) := do
  let start ← get
  check (start + h.bodySize < wordLimit) .bodyOverflow
  exactly (room input h.cellCount)
  let records ← records input h 0 h.cellCount
  check ((← get) == start + h.bodySize) .bodySize
  return records

/-- Checks the bytes so far against the checksum, if there is one. -/
def checksum (h : Header) : Scan Unit :=
  if h.hasChecksum then do
    let covered := input.take (← get)
    let stored ← take input 4
    check (stored == Crc32c.trailer covered) .checksum
  else pure ()

/-- The steps of reading a bag up to the roots and records. -/
def contents : Scan (List Nat × List Record) := do
  let h ← header input
  exactly (room input h.rootCount)
  let roots ← roots input h h.rootCount
  index input h
  let records ← body input h
  checksum input h
  return (roots, records)

end

/-! ## Cells -/

/-- The cell in a slot, which has to be filled. -/
def filled (slots : List (Option Cell)) (index : Nat) (e : BagError) : Except BagError Cell :=
  match slots[index]? with
  | some (some c) => .ok c
  | _ => .error e

/-- Fills the slot of a record with its cell. -/
def fill (r : Record) (index : Nat) (slots : List (Option Cell)) :
    Except BagError (List (Option Cell)) := do
  let children ← r.refs.mapM fun target => filled slots target (.danglingReference target)
  return slots.set index (some (.node r.data r.bitLen children))

/-- The cells of all records, the last built first. -/
def build (records : List Record) : Except BagError (List (Option Cell)) :=
  records.zipIdx.foldrM (fun (r, index) slots => fill r index slots)
    (List.replicate records.length none)

/-- Reads a whole bag. -/
def read (input : List UInt8) : Except (Stop BagError) Cell := do
  let ((roots, records), _) ← (contents input).run 0
  room input records.length
  let slots ← (build records).mapError .refused
  (filled slots (roots.headD 0) (.rootOutOfRange (roots.headD 0))).mapError .refused

/-! ## Agreement -/

/-- Where `rest` is left of the input, the step by position and the step on the bytes have the same
outcome: no fault, the same error, which bytes can cause, or the same result with the same bytes
left. -/
def FollowsAt (input : List UInt8) {α : Type} (g : Scan α) (r : Read α) (rest : List UInt8) :
    Prop :=
  Outcome.Ends
    (fun out => out.2 <:+ input ∧
      g.run (input.length - rest.length) = .ok (out.1, input.length - out.2.length))
    (fun e => e.Reachable ∧ g.run (input.length - rest.length) = .error (.refused e))
    (r.run rest)

variable {input rest : List UInt8} {α β : Type}

theorem FollowsAt.bind {g : Scan α} {r : Read α} {gnext : α → Scan β} {rnext : α → Read β}
    (h : FollowsAt input g r rest)
    (hnext : ∀ a mid, mid <:+ input → r.run rest = .ok (a, mid) →
      FollowsAt input (gnext a) (rnext a) mid) :
    FollowsAt input (g >>= gnext) (r >>= rnext) rest := by
  unfold FollowsAt at h ⊢
  rw [StateT.run_bind, StateT.run_bind]
  cases hr : r.run rest with
  | error e =>
    rw [hr] at h
    obtain ⟨hreach, hrun⟩ := h
    exact ⟨hreach, by rw [hrun]; rfl⟩
  | ok out =>
    rw [hr] at h
    obtain ⟨hsuffix, hrun⟩ := h
    rw [hrun]
    exact hnext out.1 out.2 hsuffix hr

theorem FollowsAt.pure (hrest : rest <:+ input) (a : α) :
    FollowsAt input (pure a) (pure a) rest := ⟨hrest, rfl⟩

theorem FollowsAt.exactly {step : Except (Stop BagError) β} {b : β} {gnext : β → Scan α}
    {r : Read α} (hstep : step = .ok b) (h : FollowsAt input (gnext b) r rest) :
    FollowsAt input (Guarded.exactly step >>= gnext) r rest := by
  subst hstep
  exact h

theorem FollowsAt.get_left {gnext : Nat → Scan α} {r : Read α}
    (h : FollowsAt input (gnext (input.length - rest.length)) r rest) :
    FollowsAt input (get >>= gnext) r rest := h

theorem FollowsAt.get_right {g : Scan α} {rnext : List UInt8 → Read α}
    (h : FollowsAt input g (rnext rest) rest) : FollowsAt input g (get >>= rnext) rest := h

theorem check_follows (hrest : rest <:+ input) {ok : Bool} {e : BagError}
    (h : ok = true ∨ e.Reachable) : FollowsAt input (check ok e) (Read.check ok e) rest := by
  cases ok with
  | true => exact .pure hrest ()
  | false => exact ⟨h.resolve_left Bool.false_ne_true, rfl⟩

section
variable (hinput : input.length < 2 ^ 62) (hrest : rest <:+ input)
include hinput hrest

theorem take_follows {n : Nat} (hn : n < 2 ^ 62) :
    FollowsAt input (take input n) (Read.take n) rest := by
  have hle := hrest.length_le
  have hword : (Exact.word ((input.length - rest.length : Nat) + n : Int) :
      Except (Stop BagError) Nat) = .ok (input.length - rest.length + n) :=
    Exact.word_eq (Int.natCast_add ..).symm (by omega)
  refine .get_left (.exactly hword ?_)
  unfold FollowsAt
  rw [← List.suffix_iff_eq_drop.1 hrest]
  by_cases hlen : rest.length < n
  · rw [Read.run_take_of_length_lt hlen, decide_eq_false (by omega)]
    exact ⟨trivial, rfl⟩
  · have htake : (Read.take n).run rest = .ok (rest.take n, rest.drop n) :=
      Read.run_take.2 ⟨by rw [List.length_take]; omega, (List.take_append_drop ..).symm⟩
    rw [htake, decide_eq_true (by omega)]
    refine ⟨(List.drop_suffix n rest).trans hrest, ?_⟩
    rw [List.length_drop, show input.length - (rest.length - n) = input.length - rest.length + n by
      omega]
    rfl

theorem byte_follows : FollowsAt input (byte input) Read.byte rest :=
  (take_follows hinput hrest (by decide)).bind fun _ _ hmid _ => .pure hmid _

end

theorem room_eq {count : Nat} (h : count ≤ input.length) : room input count = .ok () := if_pos h

theorem ofNat_two_pow_all : ∀ k, k < 8 →
    UInt8.ofNat ((1 : Int) * 2 ^ k).toNat = (1 : UInt8) <<< UInt8.ofNat k := by
  decide

theorem represents_two_pow_all : ∀ k, k < 8 →
    (IntType.unsigned 8).Represents ((1 : Int) * 2 ^ k) := by
  decide

/-- The tag of data that is not too long is stripped without faults. -/
theorem stripTag?_eq {data : List UInt8} (h : data.length < 2 ^ 60) :
    stripTag? data = .ok (Bag.stripTag? data) := by
  unfold stripTag? Bag.stripTag?
  cases hlast : data.getLast? with
  | none => rfl
  | some last =>
    by_cases hzero : last = 0
    · simp only [if_pos hzero]
      rfl
    · obtain ⟨hz, -⟩ := trailingZeros_spec hzero
      have hlen : data.length ≠ 0 := by
        intro hnil
        rw [List.length_eq_zero_iff.1 hnil] at hlast
        cases hlast
      simp only [if_neg hzero]
      generalize trailingZeros last = zeros at hz
      have hshift : (Exact.shiftLeft (.unsigned 8) 1 zeros : Except (Stop BagError) Int) = _ :=
        Exact.shiftLeft_eq hz (represents_two_pow_all zeros hz)
      refine (Outcome.bind_of_ok hshift _).trans ?_
      refine (Outcome.bind_of_ok (Exact.word_eq (n := data.length * 8)
        (by omega) (by omega)) _).trans ?_
      refine (Outcome.bind_of_ok (Exact.word_eq (n := data.length * 8 - zeros)
        (by omega) (by omega)) _).trans ?_
      refine (Outcome.bind_of_ok (Exact.word_eq (n := data.length * 8 - zeros - 1)
        (by omega) (by omega)) _).trans ?_
      rw [ofNat_two_pow_all zeros hz]
      rfl

/-- Up to eight bytes make a word. -/
theorem foldlM_shiftIn {bytes : List UInt8} {start : Nat}
    (h : (start + 1) * (2 ^ 8) ^ bytes.length ≤ 2 ^ 64) :
    (bytes.foldlM (fun n b => Exact.shiftIn 8 n b.toNat) start : Except (Stop BagError) Nat) =
      .ok (bytes.foldl (fun n b => 256 * n + b.toNat) start) := by
  induction bytes generalizing start with
  | nil => rfl
  | cons b bytes ih =>
    have hb : b.toNat < 2 ^ 8 := b.toNat_lt
    obtain ⟨hword, hnext⟩ := Exact.shiftIn_room hb h
    rw [List.foldlM_cons, Exact.shiftIn_eq (by decide) hb hword, List.foldl_cons,
      Nat.mul_comm 256 start]
    exact ih hnext

section
variable (hinput : input.length < 2 ^ 62) (hrest : rest <:+ input)
include hinput hrest

theorem uint_follows {width : Nat} (hwidth : width ≤ 8) :
    FollowsAt input (uint input width) (Read.uint width) rest := by
  refine (take_follows hinput hrest (by omega)).bind fun bytes mid hmid htake => ?_
  have hlen : bytes.length = width := (Read.run_take.1 htake).1
  have hpow : (2 ^ 8) ^ bytes.length ≤ (2 ^ 8) ^ 8 := Nat.pow_le_pow_right (by decide) (by omega)
  have hfold : (bytes.foldlM (fun n b => Exact.shiftIn 8 n b.toNat) 0 : Except (Stop BagError) Nat)
      = .ok (bytes.foldl (fun n b => 256 * n + b.toNat) 0) :=
    foldlM_shiftIn (by rwa [Nat.zero_add, Nat.one_mul])
  unfold FollowsAt Guarded.exactly
  rw [hfold]
  exact ⟨hmid, rfl⟩

theorem header_follows : FollowsAt input (header input) Header.read rest := by
  unfold header Header.read
  refine (take_follows hinput hrest (by decide)).bind fun found _ hrest _ => ?_
  refine (check_follows hrest (.inr (by trivial))).bind fun _ _ hrest _ => ?_
  refine (byte_follows hinput hrest).bind fun flags _ hrest _ => ?_
  refine (check_follows hrest (.inr (by trivial))).bind fun _ _ hrest hsize => ?_
  refine (byte_follows hinput hrest).bind fun offset _ hrest _ => ?_
  refine (check_follows hrest (.inr (by trivial))).bind fun _ _ hrest hoffset => ?_
  have hsize : (flags &&& 0x07).toNat ≤ 4 := by
    have := (Read.run_check.1 hsize).1
    rw [Bool.and_eq_true, decide_eq_true_eq, decide_eq_true_eq] at this
    exact this.2
  have hoffset : offset.toNat ≤ 8 := by
    have := (Read.run_check.1 hoffset).1
    rw [Bool.and_eq_true, decide_eq_true_eq, decide_eq_true_eq] at this
    exact this.2
  refine (uint_follows hinput hrest (by omega)).bind fun cellCount _ hrest hcells => ?_
  refine (uint_follows hinput hrest (by omega)).bind fun rootCount _ hrest hroots => ?_
  refine (uint_follows hinput hrest (by omega)).bind fun absent _ hrest _ => ?_
  refine (uint_follows hinput hrest hoffset).bind fun bodySize _ hrest _ => ?_
  refine (check_follows hrest (.inr (by trivial))).bind fun _ _ hrest _ => ?_
  refine (check_follows hrest (.inr (by trivial))).bind fun _ mid hrest _ => ?_
  have hle := hrest.length_le
  have hpow : 256 ^ (flags &&& 0x07).toNat ≤ 256 ^ 4 := Nat.pow_le_pow_right (by decide) hsize
  have hcells : cellCount < 256 ^ 4 := Nat.lt_of_lt_of_le (Read.run_uint.1 hcells).1 hpow
  have hroots : rootCount < 256 ^ 4 := Nat.lt_of_lt_of_le (Read.run_uint.1 hroots).1 hpow
  have hmul : rootCount * (flags &&& 0x07).toNat ≤ 256 ^ 4 * 4 :=
    Nat.mul_le_mul (Nat.le_of_lt hroots) hsize
  refine .get_left (.exactly (Exact.word_eq (n := mid.length) (by omega) (by omega)) ?_)
  refine .exactly (Exact.word_eq (n := cellCount * 2) (by omega) (by omega)) ?_
  refine .exactly (Exact.word_eq (Int.natCast_mul ..).symm (by omega)) ?_
  refine .get_right ((check_follows hrest (.inr (by trivial))).bind fun _ _ hrest _ => ?_)
  exact .pure hrest _

theorem recordData_follows (index : Nat) (d2 : UInt8) :
    FollowsAt input (recordData input index d2) (readData index d2) rest := by
  have hd2 : d2.toNat < 256 := d2.toNat_lt
  unfold recordData readData
  refine .exactly (Exact.word_eq (n := d2.toNat + 1) (by omega) (by omega)) ?_
  refine (take_follows hinput hrest (by omega)).bind fun data mid hmid htake => ?_
  obtain ⟨hlen, rfl⟩ := Read.run_take.1 htake
  have hroom : data.length ≤ input.length := by
    have := hrest.length_le
    rw [List.length_append] at this
    omega
  refine .exactly (room_eq hroom) ?_
  by_cases hodd : d2.toNat % 2 = 1
  · rw [if_pos hodd, if_pos hodd]
    refine .exactly (stripTag?_eq (by omega)) ?_
    cases Bag.stripTag? data with
    | some stripped => exact .pure hmid _
    | none => exact ⟨trivial, rfl⟩
  · rw [if_neg hodd, if_neg hodd]
    exact .exactly (Exact.word_eq (n := data.length * 8) (by omega) (by omega)) (.pure hmid _)

theorem recordRefs_follows {h : Header} (hsize : h.size ≤ 4) (index n : Nat) :
    FollowsAt input (recordRefs input h index n) (readRefs h index n) rest := by
  induction n generalizing rest with
  | zero => exact .pure hrest _
  | succ n ih =>
    refine (uint_follows hinput hrest (by omega)).bind fun target _ hrest _ => ?_
    refine (check_follows hrest (.inr (by trivial))).bind fun _ _ hrest _ => ?_
    exact (ih hrest).bind fun _ _ hrest _ => .pure hrest _

theorem record_follows {h : Header} (hsize : h.size ≤ 4) (hroom : Cell.maxRefs ≤ input.length)
    (index : Nat) : FollowsAt input (record input h index) (readRecord h index) rest := by
  unfold record readRecord
  refine (byte_follows hinput hrest).bind fun d1 _ hrest _ => ?_
  refine (byte_follows hinput hrest).bind fun d2 _ hrest _ => ?_
  refine (check_follows hrest (.inr (by trivial))).bind fun _ _ hrest _ => ?_
  refine (check_follows hrest (.inr (by trivial))).bind fun _ _ hrest _ => ?_
  refine (check_follows hrest (.inr (by trivial))).bind fun _ _ hrest hcount => ?_
  have hcount : (d1 &&& 0x07).toNat ≤ Cell.maxRefs := of_decide_eq_true (Read.run_check.1 hcount).1
  refine (recordData_follows hinput hrest index d2).bind fun content _ hrest _ => ?_
  refine .exactly (room_eq (Nat.le_trans hcount hroom)) ?_
  exact (recordRefs_follows hinput hrest hsize index _).bind fun _ _ hrest _ => .pure hrest _

theorem records_follows {h : Header} (hsize : h.size ≤ 4) (hroom : Cell.maxRefs ≤ input.length)
    (index n : Nat) : FollowsAt input (records input h index n) (readRecords h index n) rest := by
  induction n generalizing rest index with
  | zero => exact .pure hrest _
  | succ n ih =>
    refine (record_follows hinput hrest hsize hroom index).bind fun r _ hrest _ => ?_
    exact (ih hrest (index + 1)).bind fun _ _ hrest _ => .pure hrest _

theorem roots_follows {h : Header} (hsize : h.size ≤ 4) (n : Nat) :
    FollowsAt input (roots input h n) (readRoots h n) rest := by
  induction n generalizing rest with
  | zero => exact .pure hrest _
  | succ n ih =>
    refine (uint_follows hinput hrest (by omega)).bind fun root _ hrest _ => ?_
    exact (ih hrest).bind fun _ _ hrest _ => .pure hrest _

theorem index_follows {h : Header} (hindex : h.cellCount * h.offsetSize < 2 ^ 62) :
    FollowsAt input (index input h) (readIndex h) rest := by
  unfold index readIndex
  by_cases hi : h.hasIndex
  · rw [if_pos hi, if_pos hi]
    have hlt : h.cellCount * h.offsetSize < wordLimit := by
      unfold wordLimit
      omega
    refine (check_follows hrest (.inl (decide_eq_true hlt))).bind fun _ _ hrest _ => ?_
    exact (take_follows hinput hrest hindex).bind fun _ _ hrest _ => .pure hrest _
  · rw [if_neg hi, if_neg hi]
    exact .pure hrest _

theorem checksum_follows (h : Header) :
    FollowsAt input (checksum input h) (readChecksum input h rest.length) rest := by
  unfold checksum readChecksum
  by_cases hsum : h.hasChecksum
  · rw [if_pos hsum, if_pos hsum]
    refine .get_left ((take_follows hinput hrest (by decide)).bind fun _ _ hrest _ => ?_)
    exact check_follows hrest (.inr (by trivial))
  · rw [if_neg hsum, if_neg hsum]
    exact .pure hrest _

end

end Guarded

end Bag

end CellAbi
