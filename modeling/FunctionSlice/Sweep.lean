import FunctionSlice.Slice

/-! Decoding a window from left to right, each instruction where the one before it ends, up to the first
bytes that are none. What an instruction is, is left to a reader of single instructions. -/

namespace FunctionSlice

/-- The instruction at the front of some bytes. -/
structure Reading where
  size : Nat
  mnemonic : String
  operands : String
  deriving DecidableEq

/-- Reads the instruction at the front of bytes, given where the bytes are. -/
abbrev Reader := Width → Word → Bytes → Option Reading

def Reading.instruction (r : Reading) (address : Word) (bytes : Bytes) : Instruction :=
  .of address (bytes.take r.size) r.mnemonic r.operands

namespace Reader

/-- The instructions of `bs`, the first of which is at `address`, and how many bytes they leave. -/
def sweep (read : Reader) (w : Width) (address : Word) (bs : Bytes) : List Instruction × Nat :=
  match read w address bs with
  | none => ([], bs.length)
  | some r =>
    if _h : 0 < r.size ∧ r.size ≤ bs.length then
      let (rest, left) := sweep read w (address + UInt64.ofNat r.size) (bs.drop r.size)
      (r.instruction address bs :: rest, left)
    else ([], bs.length)
  termination_by bs.length
  decreasing_by simp only [List.length_drop]; omega

/-- The decoder that sweeps with a reader. It may tell where it stopped short of the end. -/
def decoder (read : Reader) (name : String) (tells : Bool) : Decoder where
  name := name
  decode w address bs :=
    let (xs, left) := read.sweep w address bs
    ⟨xs, if tells ∧ 0 < left then some (bs.length - left) else none⟩

end Reader

end FunctionSlice
