import FunctionSlice.Config
import FunctionSlice.Module

/-! What instructions work on. Nothing here knows where an instruction is: a branch has a distance, and
memory relative to the instruction has a displacement. Sizes are in bytes. -/

namespace FunctionSlice.X86

inductive RegisterClass where
  /-- A byte register as it is named without a REX prefix: 4 to 7 are high halves. -/
  | oldByte
  | byte
  | word
  | dword
  | qword
  | segment
  | xmm
  | mm
  | control
  | debug
  deriving DecidableEq

structure Register where
  kind : RegisterClass
  number : Nat
  deriving DecidableEq

namespace Register

def size (r : Register) : Nat :=
  match r.kind with
  | .oldByte | .byte => 1
  | .word | .segment => 2
  | .dword => 4
  | .qword | .mm | .control | .debug => 8
  | .xmm => 16

def stems : List String := ["ax", "cx", "dx", "bx", "sp", "bp", "si", "di"]

def oldBytes : List String := ["al", "cl", "dl", "bl", "ah", "ch", "dh", "bh"]

def bytes : List String := ["al", "cl", "dl", "bl", "spl", "bpl", "sil", "dil"]

def segments : List String := ["es", "cs", "ss", "ds", "fs", "gs"]

/-- The first eight have names of their own, the others are numbered. -/
def named (names : List String) (before after : String) (n : Nat) : String :=
  match names[n]? with
  | some s => before ++ s
  | none => "r" ++ toString n ++ after

def name (r : Register) : String :=
  let n := r.number
  match r.kind with
  | .oldByte => oldBytes.getD n ""
  | .byte => named bytes "" "b" n
  | .word => named stems "" "w" n
  | .dword => named stems "e" "d" n
  | .qword => named stems "r" "" n
  | .segment => segments.getD n ""
  | .xmm => "xmm" ++ toString n
  | .mm => "mm" ++ toString n
  | .control => "cr" ++ toString n
  | .debug => "dr" ++ toString n

end Register

structure Memory where
  /-- A segment prefix, by its number. -/
  segment : Option Nat
  base : Option Register
  index : Option (Register × Nat)
  displacement : Int
  /-- The displacement counts from the end of the instruction. -/
  relative : Bool
  addressSize : Nat
  deriving DecidableEq

inductive Operand where
  | register (r : Register)
  /-- `size` is that of the data; zero if there is none to tell. -/
  | memory (m : Memory) (size : Nat)
  | immediate (value : Int) (size : Nat)
  /-- A branch, by its distance from the end of the instruction; `size` is that of the target. -/
  | branch (distance : Int) (short : Bool) (size : Nat)
  | far (selector offset : Nat)
  deriving DecidableEq

end FunctionSlice.X86
