import Tandem.Text.Numeral

/-!
# Faults

Everything that can end a run early. A fault names its cause and the offset or byte counts that
show it; the wording is left to `message`. No fault is retried: each means that the image is
malformed or that the configured stacks are too small.
-/

namespace Tandem

/-- Why a return could not unwind the current frame. -/
inductive FrameFault where
  /-- Releasing the requested bytes would eat into the frame header. -/
  | releasePastFrame (requested locals : Nat)
  /-- Locals were still on the stack when the header was due. -/
  | localsRemaining (count : Nat)
  /-- The saved frame pointer lies above the stack top after the unwinding. -/
  | savedFramePointer (pointer : UInt64)
  /-- The return address is neither the engine's mark nor inside the image. -/
  | returnAddress (address : UInt64)
  /-- The continuation id on the side stack does not name the return point of the frame. -/
  | continuation (id : UInt32)
  deriving Repr, DecidableEq, Inhabited

/-- What ended a run, or kept an image from being loaded. -/
inductive Fault where
  /-- The entry offset lies outside the image. -/
  | imageTooSmall (entry size : Nat)
  /-- A byte that stands for no instruction, or an instruction that is illegal where it stands. -/
  | illegalOpcode (opcode : UInt8) (offset : Nat)
  /-- More bytes were pushed than the stack had left. -/
  | stackOverflow (requested available : Nat)
  /-- More bytes were taken than the stack, or the frame, held. -/
  | stackUnderflow (requested available : Nat)
  /-- A return found a frame that it cannot unwind. -/
  | malformedFrame (offset : Nat) (cause : FrameFault)
  /-- A field that starts at `offset` does not lie wholly inside the image. -/
  | endOfImage (offset : Nat)
  /-- A relative target that lands before the image start. -/
  | invalidTarget (offset : Nat) (target : Int)
  /-- A slot that does not lie inside the current frame. -/
  | invalidSlot (offset : Nat) (index : Int8)
  deriving Repr, DecidableEq, Inhabited

/-- The wording of a frame fault. -/
def FrameFault.message : FrameFault → String
  | .releasePastFrame requested locals =>
    s!"deallocating {requested} bytes but the frame only holds {locals} bytes of locals"
  | .localsRemaining count => s!"{count} bytes of locals left on return"
  | .savedFramePointer pointer =>
    "saved frame pointer " ++ Numeral.bareHex pointer.toNat ++ " is out of stack bounds"
  | .returnAddress address =>
    "return address " ++ Numeral.bareHex address.toNat ++ " is outside the image"
  | .continuation id => s!"continuation id {id} does not match the frame"

/-- The wording of a fault. Offsets have at least eight hexadecimal digits. -/
def Fault.message : Fault → String
  | .imageTooSmall entry size =>
    "image too small: entry offset " ++ Numeral.bareHex entry
      ++ s!" is outside an image of {size} bytes"
  | .illegalOpcode opcode offset =>
    "illegal opcode 0x" ++ Numeral.upperHex 2 opcode.toNat ++ " at " ++ Numeral.word offset
  | .stackOverflow requested available =>
    s!"stack overflow: {requested} bytes requested, {available} available"
  | .stackUnderflow requested available =>
    s!"stack underflow: {requested} bytes requested, {available} available"
  | .malformedFrame offset cause =>
    "malformed call frame at " ++ Numeral.word offset ++ ": " ++ cause.message
  | .endOfImage offset => "unexpected end of image at " ++ Numeral.word offset
  | .invalidTarget offset target =>
    "jump from " ++ Numeral.word offset ++ " lands before the image start ("
      ++ Numeral.decimal target ++ ")"
  | .invalidSlot offset index =>
    "frame slot " ++ Numeral.decimal index.toInt ++ " at " ++ Numeral.word offset
      ++ " is outside the current frame"

end Tandem
