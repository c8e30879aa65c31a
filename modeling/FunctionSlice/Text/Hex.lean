import FunctionSlice.Word

/-! Hexadecimal text. A number has the fewest digits that write it; a byte always has two. -/

namespace FunctionSlice.Text

def hexDigits (n : Nat) : List Char := Nat.toDigits 16 n

def padLeft (width : Nat) (fill : Char) (cs : List Char) : List Char :=
  List.replicate (width - cs.length) fill ++ cs

def padRight (width : Nat) (fill : Char) (cs : List Char) : List Char :=
  cs ++ List.replicate (width - cs.length) fill

def hex (w : Word) : String := "0x" ++ String.ofList (hexDigits w.toNat)

/-- At least eight digits, so that a column of 32-bit addresses lines up. -/
def hexColumn (w : Word) : String := "0x" ++ String.ofList (padLeft 8 '0' (hexDigits w.toNat))

def hexByte (b : UInt8) : List Char := [Nat.digitChar (b.toNat / 16), Nat.digitChar (b.toNat % 16)]

def hexBytes (bs : Bytes) : String := String.ofList (bs.flatMap hexByte)

/-- The value of a digit in either case. -/
def hexValue? (c : Char) : Option Nat :=
  if '0' ≤ c ∧ c ≤ '9' then some (c.toNat - 48)
  else if 'a' ≤ c ∧ c ≤ 'f' then some (c.toNat - 87)
  else if 'A' ≤ c ∧ c ≤ 'F' then some (c.toNat - 55)
  else none

/-- The value of a non-empty run of digits below `limit`. -/
def hexNumber? (limit : Nat) (cs : List Char) : Option Nat :=
  let step (acc : Option Nat) (c : Char) : Option Nat := do
    let n := (← acc) * 16 + (← hexValue? c)
    if n < limit then some n else none
  if cs.isEmpty then none else cs.foldl step (some 0)

end FunctionSlice.Text
