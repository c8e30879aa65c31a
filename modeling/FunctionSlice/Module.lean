import FunctionSlice.Section

/-! A module is a file on disk, seen through its decoding width, its preferred load address and its
section table. -/

namespace FunctionSlice

inductive Width where
  | bits32
  | bits64
  deriving DecidableEq

namespace Width

def bits : Width → Nat
  | bits32 => 32
  | bits64 => 64

def display (w : Width) : String := toString w.bits ++ "-bit"

end Width

structure Module where
  path : String
  width : Width
  imageBase : Word
  sections : List Section
  deriving DecidableEq

/-- The first section of that name; later ones are hidden by it. -/
def Module.section? (m : Module) (name : String) : Option Section :=
  m.sections.find? (·.name = name)

end FunctionSlice
