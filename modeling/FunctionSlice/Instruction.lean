import FunctionSlice.Text.Blank
import FunctionSlice.Text.Hex

/-! One decoded instruction: where it is, its bytes and its text. A return is told by the last word of
the mnemonic, so that prefixes before it do not count. -/

namespace FunctionSlice

structure Instruction where
  address : Word
  size : Nat
  mnemonic : String
  operands : String
  bytes : Bytes
  deriving DecidableEq

namespace Instruction

def of (address : Word) (bytes : Bytes) (mnemonic operands : String) : Instruction :=
  ⟨address, bytes.length, mnemonic, operands, bytes⟩

def baseMnemonic (i : Instruction) : String :=
  match (Text.words i.mnemonic.toList).getLast? with
  | some w => String.ofList w
  | none => i.mnemonic

def returnMnemonics : List String :=
  ["ret", "retn", "retf", "retq", "retfq", "iret", "iretd", "iretq"]

/-- ASCII letters match in either case. -/
def sameWord (a b : String) : Bool := a.toList.map Char.toLower == b.toList.map Char.toLower

def isReturn (i : Instruction) : Bool := returnMnemonics.any (sameWord i.baseMnemonic)

def text (i : Instruction) : String :=
  if i.operands.isEmpty then i.mnemonic else i.mnemonic ++ " " ++ i.operands

def display (i : Instruction) : String :=
  Text.hexColumn i.address ++ ": " ++
    String.ofList (Text.padRight 30 ' ' (Text.hexBytes i.bytes).toList) ++ " " ++ i.text

end Instruction

/-- The bytes that instructions take up together. -/
def totalSize (xs : List Instruction) : Nat := xs.foldr (fun i n => i.size + n) 0

@[simp] theorem totalSize_nil : totalSize [] = 0 := rfl

@[simp] theorem totalSize_cons (i : Instruction) (xs : List Instruction) :
    totalSize (i :: xs) = i.size + totalSize xs := rfl

theorem totalSize_append (xs ys : List Instruction) :
    totalSize (xs ++ ys) = totalSize xs + totalSize ys := by
  induction xs with
  | nil => rw [List.nil_append, totalSize_nil, Nat.zero_add]
  | cons i xs ih => rw [List.cons_append, totalSize_cons, totalSize_cons, ih, Nat.add_assoc]

end FunctionSlice
