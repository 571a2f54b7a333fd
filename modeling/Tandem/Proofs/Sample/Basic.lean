import Tandem.Proofs.Engine.Halting
import Tandem.Sample

/-!
# Samples as images

The samples are entered at their first byte. Their functions find their argument just below the
header of their frame (`Frame.called`), and their locals just above it. None of them ever writes over
a header (`Sample.sparesHeaders`): one writes to locals only, and the others do not call.
-/

namespace Tandem

namespace Sample

/-- The image of a sample. -/
def image (sample : Sample) : Image where
  bytes := sample.bytes
  entry := 0
  entry_lt := by cases sample <;> decide

theorem load_bytes (sample : Sample) : Image.load sample.bytes 0 = .ok sample.image :=
  dif_pos sample.image.entry_lt

/-- The samples are small enough for any stack that 64-bit words can address. -/
theorem fits (sample : Sample) {stackSize : Nat} (small : stackSize < UInt64.size) :
    Threaded.Fits sample.image stackSize where
  offsets := by cases sample <;> decide
  positions := small
  ids := by cases sample <;> decide +kernel

theorem sparesHeaders (sample : Sample) : sample.image.SparesHeaders := by
  intro argument machine prepared fits ready
  have intact := Intact.of_prepared ready
  cases sample with
  | fibonacci => exact Sequential.sparesHeaders_of_locals fits intact (by decide +kernel)
  | countdown => exact Sequential.sparesHeaders_of_neverCalls intact (by decide +kernel)
  | halt => exact Sequential.sparesHeaders_of_neverCalls intact (by decide +kernel)
  | pushForever => exact Sequential.sparesHeaders_of_neverCalls intact (by decide +kernel)

end Sample

/-! ## Numbers as arguments -/

theorem read_ofNat {n : Nat} (small : n < 0x80000000) : Signedness.signed.read (.ofNat n) = n := by
  rw [Signedness.read, UInt32.toInt32_ofNat', Int32.toInt_ofNat_of_lt small]

theorem read_of_negative {word : UInt32} (negative : 0x80000000 ≤ word.toNat) :
    Signedness.signed.read word < 0 := by
  have number : word.toBitVec.toNat = word.toNat := rfl
  show word.toBitVec.toInt < 0
  rw [BitVec.toInt_neg_iff]
  omega

theorem ofNat_succ_sub_one (n : Nat) : UInt32.ofNat (n + 1) - 1 = .ofNat n := by
  rw [UInt32.ofNat_add, UInt32.ofNat_one, UInt32.add_sub_cancel]

/-! ## Slots -/

namespace Machine

variable {contents below behind : List UInt8} {argument value first second : UInt32}
  {caller frame : Nat} {returnAddress : UInt64} {registers : Registers} {fused : Bool}

theorem hasSlot_arg0 (split : contents = Frame.called below argument caller returnAddress ++ behind) :
    View.HasSlot ⟨below.length + 20, contents, registers, fused⟩ Sample.arg0 below argument
      (Frame.header caller returnAddress ++ behind) where
  position := by
    have number : (-1 : Int8).toInt = .negSucc 0 := by decide
    rw [Sample.arg0, Frame.slotPosition, number]
    simp [Frame.headerSize, Frame.slotSize]
  contents := by simp only [split, Frame.called, List.append_assoc]

theorem hasSlot_var0 (base : frame = below.length)
    (split : contents = below ++ Scalar.encode value ++ behind) :
    View.HasSlot ⟨frame, contents, registers, fused⟩ Sample.var0 below value behind where
  position := by
    have number : (0 : Int8).toInt = .ofNat 0 := by decide
    rw [Sample.var0, Frame.slotPosition, number]
    simp [Frame.slotSize, base, split]
  contents := split

theorem hasSlot_var1 (base : frame = below.length)
    (split : contents = below ++ Scalar.encode first ++ Scalar.encode second ++ behind) :
    View.HasSlot ⟨frame, contents, registers, fused⟩ Sample.var1 (below ++ Scalar.encode first)
      second behind where
  position := by
    have number : (1 : Int8).toInt = .ofNat 1 := by decide
    rw [Sample.var1, Frame.slotPosition, number]
    simp [Frame.slotSize, base, split]
    omega
  contents := split

end Machine

end Tandem
