import CellAbi.Contract.State
import CellAbi.Proofs.Bag.Tag
import CellAbi.Proofs.Descendants
import CellAbi.Proofs.Outcome
import Mathlib

/-!
# Hashes bind contents

The bytes that are hashed for a node in normal form determine its bits and the hashes of its
references.  Two different trees of one hash therefore have, at some node each, different bytes
that have one hash.  The depths among these bytes are not needed for this, so that it does not
matter where they stop growing.

    hashInput h c = hashInput h d → c.data = d.data ∧ c.bitLen = d.bitLen ∧ …       (`hashInput_inj`)
    c ≠ d → hashWith h c = hashWith h d → Collide h c d                      (`collide_of_hashWith_eq`)

The address of a contract is the hash of its initial state and binds code and data likewise.
-/

namespace CellAbi

namespace Cell

variable {h : List UInt8 → Digest} {c d : Cell}

/-! ## Parts of the hashed bytes -/

theorem length_depths (cs : List Cell) :
    (cs.flatMap fun r => depthBytes r.depth).length = 2 * cs.length := by
  induction cs with
  | nil => rfl
  | cons c rest ih =>
    rw [List.flatMap_cons, List.length_append, ih, List.length_cons]
    show 2 + 2 * rest.length = _
    omega

/-- Hashes have 32 bytes each, so that as many of them are read off their bytes. -/
theorem hashesWith_inj {cs ds : List Cell} (hlen : cs.length = ds.length)
    (heq : hashesWith h cs = hashesWith h ds) : cs.map (hashWith h) = ds.map (hashWith h) := by
  induction cs generalizing ds with
  | nil =>
    obtain rfl := List.length_eq_zero_iff.1 hlen.symm
    rfl
  | cons c rest ih =>
    cases ds with
    | nil => cases hlen
    | cons d more =>
      rw [hashesWith, hashesWith] at heq
      have h32 : (hashWith h c).bytes.length = (hashWith h d).bytes.length := by
        rw [Digest.length_bytes, Digest.length_bytes]
      obtain ⟨hhead, htail⟩ := List.append_inj heq h32
      have hdigest : hashWith h c = hashWith h d := Digest.ext hhead
      rw [List.map_cons, List.map_cons, hdigest, ih (Nat.succ.inj hlen) htail]

/-- The second descriptor byte tells the whole bytes and the bytes of the data apart. -/
theorem d2_inj {m n : Nat} (hm : m ≤ maxBits) (hn : n ≤ maxBits)
    (heq : UInt8.ofNat (m / 8 + Bits.byteCount m) = UInt8.ofNat (n / 8 + Bits.byteCount n)) :
    m / 8 = n / 8 ∧ Bits.byteCount m = Bits.byteCount n := by
  have hm' : m ≤ 1023 := hm
  have hn' : n ≤ 1023 := hn
  have hnat := congrArg UInt8.toNat heq
  rw [UInt8.toNat_ofNat', UInt8.toNat_ofNat'] at hnat
  unfold Bits.byteCount at hnat ⊢
  rw [Nat.mod_eq_of_lt (by omega), Nat.mod_eq_of_lt (by omega)] at hnat
  omega

/-- With the completion tag, as many bytes determine the bits and their number. -/
theorem taggedData_inj (hc : c.NormalNode) (hd : d.NormalNode)
    (hwhole : c.bitLen / 8 = d.bitLen / 8)
    (hcount : Bits.byteCount c.bitLen = Bits.byteCount d.bitLen)
    (heq : taggedData c.data c.bitLen = taggedData d.data d.bitLen) :
    c.data = d.data ∧ c.bitLen = d.bitLen := by
  unfold Bits.byteCount at hcount
  by_cases haligned : c.bitLen % 8 = 0
  · have haligned' : d.bitLen % 8 = 0 := by omega
    rw [taggedData, if_pos haligned, taggedData, if_pos haligned'] at heq
    exact ⟨heq, by omega⟩
  · have haligned' : d.bitLen % 8 ≠ 0 := by omega
    have hstrip := Bag.stripTag?_taggedData hc.packed haligned
    rw [heq, Bag.stripTag?_taggedData hd.packed haligned'] at hstrip
    obtain ⟨hdata, hlen⟩ := Prod.mk.inj (Option.some.inj hstrip)
    exact ⟨hdata.symm, hlen.symm⟩

/-- The hashed bytes of a node determine its content and the hashes below it. -/
theorem hashInput_inj (hc : c.NormalNode) (hd : d.NormalNode)
    (heq : hashInput h c = hashInput h d) :
    c.data = d.data ∧ c.bitLen = d.bitLen ∧ c.refs.map (hashWith h) = d.refs.map (hashWith h) := by
  have hrefs : c.refs.length ≤ 4 := hc.2.2.2
  have hrefs' : d.refs.length ≤ 4 := hd.2.2.2
  simp only [hashInput, List.append_assoc] at heq
  obtain ⟨hdescriptors, heq⟩ := List.append_inj heq rfl
  obtain ⟨hd1, hd2⟩ := List.cons.inj hdescriptors
  have hcount : c.refs.length = d.refs.length := by
    have hnat := congrArg UInt8.toNat hd1
    rw [UInt8.toNat_ofNat', UInt8.toNat_ofNat'] at hnat
    omega
  obtain ⟨hwhole, hbytes⟩ := d2_inj hc.2.2.1 hd.2.2.1 (List.cons.inj hd2).1
  have htagged : (taggedData c.data c.bitLen).length = (taggedData d.data d.bitLen).length := by
    rw [Bag.length_taggedData, Bag.length_taggedData, hc.1, hd.1, hbytes]
  obtain ⟨hdata, heq⟩ := List.append_inj heq htagged
  obtain ⟨-, hhashes⟩ := List.append_inj heq (by rw [length_depths, length_depths, hcount])
  obtain ⟨hdata, hlen⟩ := taggedData_inj hc hd hwhole hbytes hdata
  exact ⟨hdata, hlen, hashesWith_inj hcount hhashes⟩

/-! ## Collisions -/

/-- A node of the first tree and a node of the second one have different hashed bytes of one hash. -/
def Collide (h : List UInt8 → Digest) (c d : Cell) : Prop :=
  ∃ c' d', Descends c c' ∧ Descends d d' ∧ hashInput h c' ≠ hashInput h d' ∧
    h (hashInput h c') = h (hashInput h d')

theorem Collide.child {r s : Cell} (hcollide : Collide h r s) (hr : r ∈ c.refs) (hs : s ∈ d.refs) :
    Collide h c d := by
  obtain ⟨c', d', hc', hd', hne, heq⟩ := hcollide
  exact ⟨c', d', .child hr hc', .child hs hd', hne, heq⟩

mutual

/-- Where the roots do not collide, their references have the same hashes, but are not the same. -/
theorem collide_of_hashWith_eq : ∀ c d : Cell, c.Normal → d.Normal → c ≠ d →
    hashWith h c = hashWith h d → Collide h c d
  | .node data bitLen refs, .node data' bitLen' refs' => by
    intro hc hd hne heq
    by_cases hinput : hashInput h (.node data bitLen refs) = hashInput h (.node data' bitLen' refs')
    · obtain ⟨hdata, hlen, hhashes⟩ := hashInput_inj hc.1 hd.1 hinput
      have hrefs : refs ≠ refs' := by
        rintro rfl
        exact hne (by rw [show data = data' from hdata, show bitLen = bitLen' from hlen])
      obtain ⟨r, hr, s, hs, hcollide⟩ := exists_collide refs refs' hc.2 hd.2 hrefs hhashes
      exact hcollide.child hr hs
    · refine ⟨_, _, .refl _, .refl _, hinput, ?_⟩
      rw [← hashWith_eq h, ← hashWith_eq h, heq]

theorem exists_collide : ∀ cs ds : List Cell, NormalAll cs → NormalAll ds → cs ≠ ds →
    cs.map (hashWith h) = ds.map (hashWith h) → ∃ r ∈ cs, ∃ s ∈ ds, Collide h r s
  | [], [] => fun _ _ hne => absurd rfl hne
  | [], _ :: _ => fun _ _ _ heq => nomatch heq
  | _ :: _, [] => fun _ _ _ heq => nomatch heq
  | c :: cs, d :: ds => by
    intro hc hd hne heq
    obtain ⟨hhead, htail⟩ := List.cons.inj heq
    by_cases hcd : c = d
    · have hrest : cs ≠ ds := fun hrest => hne (by rw [hcd, hrest])
      obtain ⟨r, hr, s, hs, hcollide⟩ := exists_collide cs ds hc.2 hd.2 hrest htail
      exact ⟨r, List.mem_cons_of_mem _ hr, s, List.mem_cons_of_mem _ hs, hcollide⟩
    · exact ⟨c, List.mem_cons_self, d, List.mem_cons_self,
        collide_of_hashWith_eq c d hc.1 hd.1 hcd hhead⟩

end

end Cell

/-! ## Initial states -/

/-- The cell of an initial state: two bits of absent parts, the presence bits of code and data, and
the empty library. -/
theorem StateInit.toCell_eq (init : StateInit) :
    init.toCell = .ok (.node [0x30] 5 [init.code, init.data]) := by
  cbv

theorem StateInit.normal_toCell {init : StateInit} {c : Cell} (hcode : init.code.Normal)
    (hdata : init.data.Normal) (hc : init.toCell = .ok c) : c.Normal := by
  rw [StateInit.toCell_eq] at hc
  obtain rfl := Except.ok.inj hc
  have hbits : Bits.toBytes [false, false, true, true, false] = [0x30] := by cbv
  have hpacked := Bits.packed_toBytes [false, false, true, true, false]
  rw [hbits] at hpacked
  have hlimits : 5 ≤ Cell.maxBits ∧ 2 ≤ Cell.maxRefs := by decide
  exact ⟨⟨hpacked.1, hpacked.2, hlimits⟩, hcode, hdata, trivial⟩

theorem StandardAddress.ofStateInitWith_eq {h : List UInt8 → Digest} {workchain : Int32}
    {init : StateInit} {c : Cell} (hc : init.toCell = .ok c) :
    ofStateInitWith h workchain init = .ok ⟨workchain, c.hashWith h⟩ := by
  unfold ofStateInitWith StateInit.hashWith
  rw [hc]
  rfl

/-- Whatever the hash function, two different trees in normal form have one hash only by a
collision at two of their nodes.  Every initial state has an address, and those of different code or
data have one address only by such a collision. -/
theorem collide_of_equal_hash_or_address (h : List UInt8 → Digest) :
    (∀ c d : Cell, c.Normal → d.Normal → c ≠ d → c.hashWith h = d.hashWith h → c.Collide h d) ∧
      ∀ (workchain : Int32) (a b : StateInit), a.code.Normal → a.data.Normal → b.code.Normal →
        b.data.Normal → ∃ c d, a.toCell = .ok c ∧ b.toCell = .ok d ∧
          StandardAddress.ofStateInitWith h workchain a = .ok ⟨workchain, c.hashWith h⟩ ∧
          StandardAddress.ofStateInitWith h workchain b = .ok ⟨workchain, d.hashWith h⟩ ∧
          (a ≠ b → StandardAddress.ofStateInitWith h workchain a =
            StandardAddress.ofStateInitWith h workchain b → c.Collide h d) := by
  refine ⟨Cell.collide_of_hashWith_eq, fun workchain a b hca hda hcb hdb => ?_⟩
  refine ⟨_, _, a.toCell_eq, b.toCell_eq, StandardAddress.ofStateInitWith_eq a.toCell_eq,
    StandardAddress.ofStateInitWith_eq b.toCell_eq, fun hne heq => ?_⟩
  have hcells : Cell.node [0x30] 5 [a.code, a.data] ≠ Cell.node [0x30] 5 [b.code, b.data] := by
    intro hcells
    cases a
    cases b
    simp only [Cell.node.injEq, List.cons.injEq, and_true, true_and] at hcells
    exact hne (by rw [hcells.1, hcells.2])
  rw [StandardAddress.ofStateInitWith_eq a.toCell_eq,
    StandardAddress.ofStateInitWith_eq b.toCell_eq] at heq
  exact Cell.collide_of_hashWith_eq _ _ (StateInit.normal_toCell hca hda a.toCell_eq)
    (StateInit.normal_toCell hcb hdb b.toCell_eq) hcells
    (congrArg StandardAddress.hash (Except.ok.inj heq))

/-- Under the hash function that passes over its input, an empty cell and a reference to one have
one hash, and a contract has one address with either as its data. -/
theorem collide_of_equal_hash_or_address_constant :
    ∃ (h : List UInt8 → Digest) (c d : Cell), c.Normal ∧ d.Normal ∧ c ≠ d ∧
      c.hashWith h = d.hashWith h ∧ c.Collide h d ∧ (⟨c, c⟩ : StateInit) ≠ ⟨c, d⟩ ∧
      StandardAddress.ofStateInitWith h 0 ⟨c, c⟩ = StandardAddress.ofStateInitWith h 0 ⟨c, d⟩ ∧
      ∃ r s, StateInit.toCell ⟨c, c⟩ = .ok r ∧ StateInit.toCell ⟨c, d⟩ = .ok s ∧ r.Collide h s := by
  let h : List UInt8 → Digest := fun _ => ⟨List.replicate 32 0, rfl⟩
  let d : Cell := .node [] 0 [.empty]
  have hc : Cell.empty.Normal := ⟨⟨rfl, fun _ _ => rfl, by decide, by decide⟩, trivial⟩
  have hd : d.Normal := ⟨⟨rfl, fun _ _ => rfl, by decide, by decide⟩, hc, trivial⟩
  have hne : Cell.empty ≠ d := by decide
  have hhash : ∀ c d : Cell, c.hashWith h = d.hashWith h := fun c d => by
    rw [Cell.hashWith_eq, Cell.hashWith_eq]
  obtain ⟨htrees, hstates⟩ := collide_of_equal_hash_or_address h
  obtain ⟨r, s, hr, hs, har, hbs, hcollide⟩ :=
    hstates 0 ⟨.empty, .empty⟩ ⟨.empty, d⟩ hc hc hc hd
  have hstate : (⟨.empty, .empty⟩ : StateInit) ≠ ⟨.empty, d⟩ := by decide
  have haddress : StandardAddress.ofStateInitWith h 0 ⟨.empty, .empty⟩ =
      StandardAddress.ofStateInitWith h 0 ⟨.empty, d⟩ := by
    rw [har, hbs, hhash r s]
  exact ⟨h, .empty, d, hc, hd, hne, hhash _ _, htrees _ _ hc hd hne (hhash _ _), hstate, haddress,
    r, s, hr, hs, hcollide hstate haddress⟩

end CellAbi
