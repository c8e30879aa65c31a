import FunctionSlice.Text.Hex

/-! A section has two placements: where it is mapped, relative to the module's base, and where its raw
bytes lie in the file. An address belongs to it when raw bytes back that address. -/

namespace FunctionSlice

structure Section where
  name : String
  virtualAddress : Word
  rawSize : Word
  rawOffset : Word
  deriving DecidableEq

namespace Section

def contains (s : Section) (rva : Word) : Bool :=
  s.virtualAddress ≤ rva && rva - s.virtualAddress < s.rawSize

def display (s : Section) : String :=
  s.name ++ " rva=" ++ Text.hex s.virtualAddress ++ " raw=" ++ Text.hex s.rawOffset ++ "+" ++
    Text.hex s.rawSize

end Section

end FunctionSlice
