/-! The executable and object file formats that are understood. -/

namespace FunctionSlice

inductive Container where
  | pe
  | elf
  | coff
  | machO
  deriving DecidableEq

def Container.name : Container → String
  | pe => "Pe"
  | elf => "Elf"
  | coff => "Coff"
  | machO => "MachO"

end FunctionSlice
