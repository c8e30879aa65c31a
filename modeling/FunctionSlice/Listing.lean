import FunctionSlice.Extent
import FunctionSlice.Module
import FunctionSlice.Window

/-! The listing of one function: the instructions kept, one a line, and a last line for a warning. -/

namespace FunctionSlice

structure Listing where
  rva : Word
  width : Width
  imageBase : Word
  window : Window
  instructions : List Instruction
  warning : Option Warning
  deriving DecidableEq

namespace Listing

def isTruncated (l : Listing) : Bool := l.warning.isSome

def codeSize (l : Listing) : Nat := totalSize l.instructions

def display (l : Listing) : String :=
  String.join (l.instructions.map (fun i => i.display ++ "\n")) ++
    (match l.warning with
    | some w => "; warning: " ++ w.message ++ "\n"
    | none => "")

end Listing

end FunctionSlice
