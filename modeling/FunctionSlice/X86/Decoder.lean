import FunctionSlice.Library
import FunctionSlice.X86.Text

/-! A small library of instructions for each dialect. The two find the same instructions and write them
differently. Where an instruction is not in the opcode maps they know of none and a sweep with them stops;
a library that knows more goes on, and what is proved of decoding does not ask which one is at work. -/

namespace FunctionSlice.X86

def Coded.finding (i : Coded) (d : Dialect) (address : Word) : Finding :=
  ⟨i.size, i.entry.far, i.operandSize = 8, i.formatted d, i.operandsText d address⟩

def library (d : Dialect) : Library := fun w address bs => (decode? w bs).map (·.finding d address)

def reader (d : Dialect) : Reader := (library d).reader d

def decoder (d : Dialect) : Decoder := (library d).decoder d

end FunctionSlice.X86
