import CellAbi.Proofs.Address.Text
import CellAbi.Proofs.Slicing
import CellAbi.Wire.Item

/-!
# Addresses read back from cells

    ReadItems.addressOfCell c = .ok a    for the cell `c` that stores `a`    (`addressOfCell_eq`)
-/

namespace CellAbi

namespace Load

variable {α : Type}

theorem reads_liftCell {step : Load α} {bits : List Bool} {refs : List Cell} {a : α}
    (h : Reads step bits refs a) : Reads (liftCell step) bits refs a := by
  intro s moreBits moreRefs hbits hrefs
  obtain ⟨s', hrun, hrest⟩ := h s _ _ hbits hrefs
  refine ⟨s', ?_, hrest⟩
  rw [liftCell, EStateM.run_adaptExcept, hrun]

end Load

namespace Store

variable {α : Type}

theorem ReadBy.liftCell {step : Store} {load : Load α} {a : α} (h : ReadBy step load a) :
    ReadBy step (Load.liftCell load) a := by
  intro bits refs u b hrun
  obtain ⟨moreBits, moreRefs, rfl, hread⟩ := h _ _ _ _ hrun
  exact ⟨moreBits, moreRefs, rfl, Load.reads_liftCell hread⟩

theorem toBytes_hash (d : Digest) : Bits.toBytes ((Bits.ofBytes d.bytes).take 256) = d.bytes := by
  refine Bits.Packed.toBytes_take ⟨by rw [d.length_bytes]; rfl, fun i hi => ?_⟩
  exact Bits.get_of_length_le (by rw [d.length_bytes]; omega)

theorem readBy_address (a : Option Address) : ReadBy (address a) Load.address a := by
  match a with
  | none => exact (readBy_word (show 2 ≤ 64 by decide) 0).liftCell.bind_nil (Load.reads_pure none)
  | some (.standard a) =>
    refine readBy_bind (readBy_word (by decide) 2).liftCell ?_
    refine readBy_bind (readBy_bit false).liftCell ?_
    refine readBy_bind (readBy_signedWord (by decide) a.workchain.toInt).liftCell ?_
    refine (readBy_bytes a.hash.bytes 256).liftCell.bind_nil ?_
    rw [toBytes_hash, Digest.ofBytes?_bytes]
    have hworkchain : (Int64.ofInt a.workchain.toInt).toInt32 = a.workchain := by
      rw [Int64.toInt32_ofInt, Int32.ofInt_toInt]
    simp only [hworkchain]
    exact Load.reads_pure _
  | some (.external a) =>
    have hbits : a.bits.toUInt64.toNat = a.bits := by
      have := a.bits_le
      show a.bits % 2 ^ 64 = a.bits
      omega
    refine readBy_bind (readBy_word (by decide) 1).liftCell ?_
    refine readBy_bind (readBy_word (by decide) a.bits.toUInt64).liftCell ?_
    rw [hbits]
    refine (readBy_nat a.value a.bits).liftCell.bind_nil ?_
    rw [a.new_eq]
    exact Load.reads_pure _

end Store

theorem ReadItems.addressOfCell_eq {a : Option Address} {c : Cell}
    (hc : Cell.ofStore (Store.address a) = .ok c) : ReadItems.addressOfCell c = .ok a := by
  obtain ⟨s, hrun, -⟩ := (Store.readBy_address a).run_ofStore hc
  rw [addressOfCell, hrun]

end CellAbi
