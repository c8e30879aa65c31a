import FunctionSlice.Text.Hex

/-! The part of a file that is read for one function, from the function's address on. -/

namespace FunctionSlice

structure Window where
  rva : Word
  fileOffset : Word
  length : Word
  /-- Raw bytes of the section from `rva` on. -/
  remaining : Word
  deriving DecidableEq

namespace Window

/-- The window stops at the end of the section and not at the read cap. -/
def reachesEnd (w : Window) : Bool := w.length == w.remaining

def display (w : Window) : String :=
  "rva=" ++ Text.hex w.rva ++ " offset=" ++ Text.hex w.fileOffset ++ " len=" ++ Text.hex w.length

end Window

end FunctionSlice
