import CellAbi.Proofs.Address.Storing
import CellAbi.Proofs.Address.Wire

/-!
# The format of addresses in cells

Addresses and the bits they are stored as determine each other: the bits of an address are read as
that address from any position of any cell, and an address that is read has as its bits exactly
those it was read from.  Where no address is read, the bits of the next part are not all there, or
they are those of an anycast address or of the unused tag.

    Load.address.run s = .ok a s' ↔ Address.Storable a ∧
      ∃ count ≤ s.remainingBits, s.peekBits count = wireBits a ∧ s' = s.skipBits count
                                                                            (`run_address_iff`)
-/

namespace CellAbi

open Builder

theorem Builder.bits_ofBits (bits : List Bool) (refs : List Cell) :
    (ofBits bits refs).bits = bits :=
  Bits.take_ofBytes_toBytes bits

theorem Builder.ofBits_inj {bits bits' : List Bool} {refs refs' : List Cell}
    (h : ofBits bits refs = ofBits bits' refs') : bits = bits' ∧ refs = refs' := by
  refine ⟨?_, congrArg Builder.refs h⟩
  rw [← bits_ofBits bits refs, h, bits_ofBits]

/-! ## What an address is read from -/

namespace Slice

theorem peekBits_prefix (s : Slice) {count : Nat} (h : count ≤ s.remainingBits) :
    s.peekBits count <+: s.restBits := by
  rw [restBits, ← Nat.add_sub_cancel' h, peekBits_add]
  exact List.prefix_append _ _

/-- A part of an address that is due at a cursor by the bits before it: where it begins and how many
bits it has. -/
inductive AddressPart (s : Slice) : Nat → Nat → Prop
  | tag : AddressPart s 0 2
  | length (htag : s.peekBits 2 = [false, true]) : AddressPart s 2 9
  | value (htag : s.peekBits 2 = [false, true]) :
    AddressPart s 11 (Bits.toNat ((s.skipBits 2).peekBits 9))
  | anycast (htag : s.peekBits 2 = [true, false]) : AddressPart s 2 1
  | workchain (htag : s.peekBits 3 = [true, false, false]) : AddressPart s 3 8
  | hash (htag : s.peekBits 3 = [true, false, false]) : AddressPart s 11 256

/-- The bits at a cursor begin an address that is not supported: how many of them say so, and the
tag. -/
inductive UnsupportedTag (s : Slice) : Nat → Nat → Prop
  | anycast (htag : s.peekBits 3 = [true, false, true]) : UnsupportedTag s 3 2
  | unused (htag : s.peekBits 2 = [true, true]) : UnsupportedTag s 2 3

/-- What loading an address from a cursor gives: the address that has the next bits, or the part
that is missing, or the tag that is not supported. -/
inductive AddressResult (s : Slice) : EStateM.Result AddressError Slice (Option Address) → Prop
  | found {a : Option Address} {count : Nat} (hstorable : Address.Storable a)
    (hbits : s.peekBits count = Address.wireBits a) (hroom : count ≤ s.remainingBits) :
    AddressResult s (.ok a (s.skipBits count))
  | missing {start width : Nat} (hpart : s.AddressPart start width)
    (hstart : start ≤ s.remainingBits) (hmissing : s.remainingBits < start + width) :
    AddressResult s (.error (.cell (.bitUnderflow width (s.remainingBits - start)))
      (s.skipBits start))
  | unsupported {start tag : Nat} (htag : s.UnsupportedTag start tag)
    (hstart : start ≤ s.remainingBits) :
    AddressResult s (.error (.unsupportedTag tag) (s.skipBits start))

end Slice

/-! ## Reading -/

namespace Load

/-- Loads what follows the tag of an external address. -/
def externalBody : EStateM AddressError Slice (Option Address) := do
  let bits := (← liftCell (word 9)).toNat
  let value ← liftCell (nat bits)
  match ExternalAddress.new value bits with
  | .ok a => return some (.external a)
  | .error e => throw e

/-- Loads what follows the anycast bit of a standard address. -/
def standardBody : EStateM AddressError Slice (Option Address) := do
  let workchain := (← liftCell (signedWord 8)).toInt32
  match Digest.ofBytes? (← liftCell (bytes 256)) with
  | some hash => return some (.standard ⟨workchain, hash⟩)
  | none => throw (.cell (.bitUnderflow 256 0))

variable {α β : Type} {s : Slice}

theorem Takes.liftCell_bind {step : Load α} {count : Nat} {read : List Bool → α}
    (h : Takes step count read) (next : α → EStateM AddressError Slice β) (s : Slice) :
    (liftCell step >>= next).run s = if count > s.remainingBits then
      .error (.cell (.bitUnderflow count s.remainingBits)) s
        else (next (read (s.peekBits count))).run (s.skipBits count) := by
  rw [EStateM.run_bind, liftCell, EStateM.run_adaptExcept, h s]
  by_cases hroom : count > s.remainingBits
  · rw [if_pos hroom, if_pos hroom]
  · rw [if_neg hroom, if_neg hroom]

/-- A part that is due is missing, or what follows it decides. -/
theorem addressResult_bind {start width stop : Nat} (hpart : s.AddressPart start width)
    (hstart : start ≤ s.remainingBits) (hstop : start + width = stop) {step : Load α}
    {read : List Bool → α} (h : Takes step width read)
    {next : α → EStateM AddressError Slice (Option Address)}
    (hnext : stop ≤ s.remainingBits → s.AddressResult
      ((next (read ((s.skipBits start).peekBits width))).run (s.skipBits stop))) :
    s.AddressResult ((liftCell step >>= next).run (s.skipBits start)) := by
  rw [h.liftCell_bind, Slice.remainingBits_skipBits]
  split
  · exact .missing hpart hstart (by omega)
  · have hskip : (s.skipBits start).skipBits width = s.skipBits stop := by
      rw [← hstop, Slice.skipBits, Slice.skipBits, Nat.add_assoc]
      rfl
    rw [hskip]
    exact hnext (by omega)

theorem addressResult_external (htag : s.peekBits 2 = [false, true]) (hroom : 2 ≤ s.remainingBits) :
    s.AddressResult (externalBody.run (s.skipBits 2)) := by
  refine addressResult_bind (.length htag) hroom rfl (takes_word (by decide)) fun hroom => ?_
  have hlength := (s.skipBits 2).length_peekBits 9
  have hlt := Bits.toNat_lt ((s.skipBits 2).peekBits 9)
  rw [hlength] at hlt
  rw [toNat_wordOfBits, Nat.mod_eq_of_lt (by omega)]
  refine addressResult_bind (.value htag) hroom rfl (takes_nat _) fun hroom => ?_
  have hvalue := (s.skipBits 11).length_peekBits (Bits.toNat ((s.skipBits 2).peekBits 9))
  have hfits := Bits.toNat_lt
    ((s.skipBits 11).peekBits (Bits.toNat ((s.skipBits 2).peekBits 9)))
  rw [hvalue] at hfits
  let a : ExternalAddress := ⟨_, _, Nat.le_of_lt_succ hlt, hfits⟩
  have hbits : s.peekBits (11 + a.bits) = Address.wireBits (some (.external a)) := by
    have hfirst := Bits.ofNat_toNat ((s.skipBits 2).peekBits 9)
    have hsecond := Bits.ofNat_toNat ((s.skipBits 11).peekBits a.bits)
    rw [hlength] at hfirst
    rw [hvalue] at hsecond
    rw [show 11 + a.bits = 2 + (9 + a.bits) by omega, Slice.peekBits_add, Slice.peekBits_add, htag,
      ← hfirst]
    exact congrArg (fun bits => [false, true] ++ (_ ++ bits)) hsecond.symm
  rw [show ExternalAddress.new _ _ = .ok a from a.new_eq]
  exact .found trivial hbits hroom

theorem addressResult_standard (htag : s.peekBits 3 = [true, false, false])
    (hroom : 3 ≤ s.remainingBits) : s.AddressResult (standardBody.run (s.skipBits 3)) := by
  refine addressResult_bind (.workchain htag) hroom rfl (takes_signedWord (by decide))
    fun hroom => ?_
  refine addressResult_bind (.hash htag) hroom rfl (takes_bytes 256) fun hroom => ?_
  have hworkchain := (s.skipBits 3).length_peekBits 8
  have hhash := (s.skipBits 11).length_peekBits 256
  have hlength : (Bits.toBytes ((s.skipBits 11).peekBits 256)).length = 32 := by
    rw [Bits.length_toBytes, hhash]
    rfl
  obtain ⟨hlow, hhigh⟩ := Bits.toInt_range hworkchain
  let a : StandardAddress :=
    ⟨(Int64.ofInt (Bits.toInt ((s.skipBits 3).peekBits 8))).toInt32, ⟨_, hlength⟩⟩
  have htoInt : a.workchain.toInt = Bits.toInt ((s.skipBits 3).peekBits 8) := by
    show (Int64.ofInt _).toInt32.toInt = _
    rw [Int64.toInt32_ofInt]
    exact Int32.toInt_ofInt_of_le (by omega) (by omega)
  have hbits : s.peekBits (3 + (8 + 256)) = Address.wireBits (some (.standard a)) := by
    have hfirst := Bits.ofInt_toInt ((s.skipBits 3).peekBits 8)
    have height : ((s.skipBits 11).peekBits 256).length % 8 = 0 := by rw [hhash]
    have hsecond := Bits.ofBytes_toBytes height
    rw [hworkchain, ← htoInt] at hfirst
    rw [Slice.peekBits_add, Slice.peekBits_add, htag, Address.wireBits, hfirst,
      ← List.append_assoc [true, false] [false]]
    exact congrArg (fun bits => [true, false, false] ++ (_ ++ bits)) hsecond.symm
  rw [show Digest.ofBytes? _ = some a.hash from dif_pos hlength]
  refine .found ?_ hbits hroom
  show -2 ^ 7 ≤ a.workchain.toInt ∧ a.workchain.toInt < 2 ^ 7
  rw [htoInt]
  exact ⟨hlow, hhigh⟩

/-- By the tag, and by the anycast bit of a standard address. -/
theorem addressResult (s : Slice) : s.AddressResult (address.run s) := by
  refine addressResult_bind .tag (Nat.zero_le _) rfl (takes_word (by decide)) fun hroom => ?_
  obtain ⟨high, low, htag⟩ : ∃ high low, s.peekBits 2 = [high, low] := ⟨_, _, rfl⟩
  rw [show (s.skipBits 0).peekBits 2 = [high, low] from htag]
  cases high with
  | false =>
    cases low with
    | false => exact .found trivial htag hroom
    | true => exact addressResult_external htag hroom
  | true =>
    cases low with
    | false =>
      show s.AddressResult ((liftCell bit >>= fun anycast =>
        if anycast then throw (.unsupportedTag 2) else standardBody).run (s.skipBits 2))
      refine addressResult_bind (.anycast htag) hroom rfl takes_bit fun hroom => ?_
      obtain ⟨anycast, hanycast⟩ := List.length_eq_one_iff.1 ((s.skipBits 2).length_peekBits 1)
      have hbits : s.peekBits (2 + 1) = [true, false, anycast] := by
        rw [Slice.peekBits_add, htag, hanycast]
        rfl
      rw [hanycast]
      cases anycast with
      | false => exact addressResult_standard hbits hroom
      | true => exact .unsupported (.anycast hbits) hroom
    | true => exact .unsupported (.unused htag) hroom

/-- The bits of an address are read as that address. -/
theorem reads_address {a : Option Address} (h : Address.Storable a) :
    Reads address (Address.wireBits a) [] a := by
  have hrun := (Store.addsIff_address a [] [] () _ (Nat.zero_le _)).2
    ⟨h, Address.length_wireBits_le a, rfl⟩
  obtain ⟨moreBits, moreRefs, heq, hread⟩ := Store.readBy_address a [] [] () _ hrun
  obtain ⟨rfl, rfl⟩ := ofBits_inj heq
  exact hread

/-- An address is read exactly where its bits are next. -/
theorem run_address_iff {s s' : Slice} {a : Option Address} :
    address.run s = .ok a s' ↔ Address.Storable a ∧
      ∃ count ≤ s.remainingBits, s.peekBits count = Address.wireBits a ∧
        s' = s.skipBits count := by
  have hforward : ∀ {s₁}, address.run s = .ok a s₁ → Address.Storable a ∧
      ∃ count ≤ s.remainingBits, s.peekBits count = Address.wireBits a ∧
        s₁ = s.skipBits count := by
    intro s₁ hrun
    have hresult := addressResult s
    rw [hrun] at hresult
    cases hresult with
    | found hstorable hbits hroom => exact ⟨hstorable, _, hroom, hbits, rfl⟩
  refine ⟨hforward, ?_⟩
  rintro ⟨hstorable, count, hroom, hbits, rfl⟩
  obtain ⟨more, hrest⟩ := s.peekBits_prefix hroom
  rw [hbits] at hrest
  obtain ⟨s₁, hrun, -⟩ := reads_address hstorable s more _ hrest.symm (List.nil_append _).symm
  obtain ⟨-, count', -, hbits', rfl⟩ := hforward hrun
  rw [hrun, ← s.length_peekBits count', hbits', ← hbits, s.length_peekBits]

end Load

/-! ## Both directions -/

namespace Address

/-- Storing and loading an address. -/
theorem run_load_of_store {before : List StoreOp} {a : Option Address} {b : Builder}
    (h : (Store.address a).run (ofOps before) = .ok () b) (refPos : Nat) :
    Load.address.run ⟨b.build, (ofOps before).bitLen, refPos⟩ =
      .ok a ⟨b.build, b.bitLen, refPos⟩ := by
  obtain ⟨bits, refs, hbefore, -, hrefs⟩ := ofOps_eq before
  rw [hbefore] at h ⊢
  obtain ⟨hstorable, -, rfl⟩ := (Store.addsIff_address a _ _ _ _ hrefs).1 h
  have hrest := (Slice.rest_build (bits ++ wireBits a) refs).1
  have hbits : Slice.restBits ⟨(ofBits (bits ++ wireBits a) refs).build, 0 + bits.length, refPos⟩ =
      wireBits a := (Slice.restBits_skipBits hrest).2
  rw [Nat.zero_add] at hbits
  have hcount := congrArg List.length hbits
  rw [Slice.length_restBits] at hcount
  rw [Slice.restBits, hcount] at hbits
  refine Load.run_address_iff.2 ⟨hstorable, _, Nat.le_of_eq hcount.symm, hbits, ?_⟩
  show Slice.mk _ (bits ++ wireBits a).length _ = Slice.mk _ (bits.length + _) _
  rw [List.length_append]

/-- Storing again the address that was loaded. -/
theorem run_store_of_load {s s' : Slice} {a : Option Address} (h : Load.address.run s = .ok a s') :
    ∃ count, count ≤ s.remainingBits ∧ s' = s.skipBits count ∧
      ∀ before, count ≤ (ofOps before).availableBits →
        ∃ b, (Store.address a).run (ofOps before) = .ok () b ∧
          b.bits = (ofOps before).bits ++ s.peekBits count ∧ b.refs = (ofOps before).refs := by
  obtain ⟨hstorable, count, hroom, hbits, rfl⟩ := Load.run_address_iff.1 h
  refine ⟨count, hroom, rfl, fun before hfits => ?_⟩
  obtain ⟨bits, refs, hbefore, -, hrefs⟩ := ofOps_eq before
  rw [hbefore] at hfits ⊢
  refine ⟨ofBits (bits ++ wireBits a) refs, (Store.addsIff_address a _ _ _ _ hrefs).2 ?_, ?_, rfl⟩
  · rw [← hbits, s.length_peekBits]
    exact ⟨hstorable, hfits, rfl⟩
  · rw [bits_ofBits, bits_ofBits, hbits]

/-- Addresses and their bits in cells determine each other.  What is stored after any operations is
loaded from where it begins, up to where it ends; what is loaded from any position is stored as the
bits it was loaded from; and nothing but missing bits of the next part and the tags that are not
supported keeps an address from being loaded. -/
theorem stored_iff_loaded :
    (∀ (before : List StoreOp) (a : Option Address),
      ((∃ b, (Store.address a).run (ofOps before) = .ok () b) ↔
        Storable a ∧ (wireBits a).length ≤ (ofOps before).availableBits) ∧
      ∀ b, (Store.address a).run (ofOps before) = .ok () b → ∀ refPos,
        Load.address.run ⟨b.build, (ofOps before).bitLen, refPos⟩ =
          .ok a ⟨b.build, b.bitLen, refPos⟩) ∧
    (∀ s a s', Load.address.run s = .ok a s' →
      ∃ count, count ≤ s.remainingBits ∧ s' = s.skipBits count ∧
        ∀ before, count ≤ (ofOps before).availableBits →
          ∃ b, (Store.address a).run (ofOps before) = .ok () b ∧
            b.bits = (ofOps before).bits ++ s.peekBits count ∧ b.refs = (ofOps before).refs) ∧
    ∀ s e s', Load.address.run s = .error e s' →
      (∃ start width, s.AddressPart start width ∧ start ≤ s.remainingBits ∧
        s.remainingBits < start + width ∧
        e = .cell (.bitUnderflow width (s.remainingBits - start)) ∧ s' = s.skipBits start) ∨
      ∃ start tag, s.UnsupportedTag start tag ∧ start ≤ s.remainingBits ∧
        e = .unsupportedTag tag ∧ s' = s.skipBits start := by
  refine ⟨fun before a => ⟨?_, fun b hrun => run_load_of_store hrun⟩,
    fun s a s' hrun => run_store_of_load hrun, fun s e s' hrun => ?_⟩
  · obtain ⟨bits, refs, hbefore, -, hrefs⟩ := ofOps_eq before
    rw [hbefore]
    constructor
    · rintro ⟨b, hrun⟩
      obtain ⟨hstorable, hroom, -⟩ := (Store.addsIff_address a _ _ _ _ hrefs).1 hrun
      exact ⟨hstorable, hroom⟩
    · rintro ⟨hstorable, hroom⟩
      exact ⟨_, (Store.addsIff_address a _ _ _ _ hrefs).2 ⟨hstorable, hroom, rfl⟩⟩
  · have hresult := Load.addressResult s
    rw [hrun] at hresult
    cases hresult with
    | missing hpart hstart hmissing => exact .inl ⟨_, _, hpart, hstart, hmissing, rfl, rfl⟩
    | unsupported htag hstart => exact .inr ⟨_, _, htag, hstart, rfl, rfl⟩

/-- An external address of three bits, behind one bit and read back from there, and a cell that ends
inside its length. -/
theorem stored_iff_loaded_external :
    Load.address.run ⟨.node [0xA0, 0x3A] 15 [], 1, 0⟩ =
        .ok (some (.external ⟨5, 3, by decide, by decide⟩)) ⟨.node [0xA0, 0x3A] 15 [], 15, 0⟩ ∧
      (∃ b, (Store.address (some (.external ⟨5, 3, by decide, by decide⟩))).run
          (ofOps [.bit true]) = .ok () b ∧
        b.bits = [true] ++ Slice.peekBits ⟨.node [0xA0, 0x3A] 15 [], 1, 0⟩ 14) ∧
      Load.address.run ⟨.node [0xA0] 8 [], 1, 0⟩ =
        .error (.cell (.bitUnderflow 9 5)) ⟨.node [0xA0] 8 [], 3, 0⟩ ∧
      Slice.AddressPart ⟨.node [0xA0] 8 [], 1, 0⟩ 2 9 := by
  obtain ⟨hstore, hload, hfail⟩ := stored_iff_loaded
  have hrun : (Store.address (some (.external ⟨5, 3, by decide, by decide⟩))).run
      (ofOps [.bit true]) = .ok () ⟨[0xA0, 0x3A], 15, []⟩ := rfl
  have hread := (hstore [.bit true] _).2 _ hrun 0
  refine ⟨hread, ?_, ?_⟩
  · obtain ⟨count, -, hcount, hagain⟩ := hload _ _ _ hread
    obtain rfl : count = 14 := by
      have hpos : 15 = 1 + count := congrArg Slice.bitPos hcount
      omega
    obtain ⟨b, hb, hbits, -⟩ := hagain [.bit true] (by decide)
    exact ⟨b, hb, hbits⟩
  · have hshort : Load.address.run ⟨.node [0xA0] 8 [], 1, 0⟩ =
      .error (.cell (.bitUnderflow 9 5)) ⟨.node [0xA0] 8 [], 3, 0⟩ := rfl
    refine ⟨hshort, ?_⟩
    obtain ⟨start, width, hpart, -, -, herror, hstart⟩ | ⟨_, _, _, _, herror, -⟩ :=
      hfail _ _ _ hshort
    · obtain ⟨rfl, -⟩ := CellError.bitUnderflow.inj (AddressError.cell.inj herror)
      have hpos : 3 = 1 + start := congrArg Slice.bitPos hstart
      obtain rfl : start = 2 := by omega
      exact hpart
    · cases herror

end Address

end CellAbi
