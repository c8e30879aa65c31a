import FunctionSlice.Text.Utf8
import FunctionSlice.Word

/-! Fixed layouts in a file: ranges that must lie inside it, numbers in either byte order, rows of equal
size and tables of strings that end with a zero byte. -/

namespace FunctionSlice.Binary

inductive Endian where
  | little
  | big
  deriving DecidableEq

/-- Exactly the bytes of a range. -/
def range? (d : Bytes) (offset size : Nat) : Option Bytes :=
  if offset + size ≤ d.length then some ((d.drop offset).take size) else none

def number : Endian → Bytes → Nat
  | .little, bs => bs.foldr (fun b n => b.toNat + 256 * n) 0
  | .big, bs => bs.foldl (fun n b => n * 256 + b.toNat) 0

/-- A number of `size` bytes in a record that holds it. -/
def uint (e : Endian) (size : Nat) (record : Bytes) (offset : Nat) : Nat :=
  number e ((record.drop offset).take size)

def u16 (record : Bytes) (offset : Nat) : Nat := uint .little 2 record offset

def u32 (record : Bytes) (offset : Nat) : Nat := uint .little 4 record offset

def u64 (record : Bytes) (offset : Nat) : Nat := uint .little 8 record offset

def byteAt (record : Bytes) (offset : Nat) : Nat := ((record.drop offset).headD 0).toNat

def rows (size : Nat) : Nat → Bytes → List Bytes
  | 0, _ => []
  | n + 1, bs => bs.take size :: rows size n (bs.drop size)

/-- `count` rows from `offset` on, all of them inside the file. -/
def rows? (d : Bytes) (offset count size : Nat) : Option (List Bytes) :=
  (range? d offset (count * size)).map (rows size count)

def untilZero (bs : Bytes) : Bytes := bs.takeWhile (· != 0)

/-- The bytes before the first zero byte, if there is one. -/
def zeroEnded? (bs : Bytes) : Option Bytes :=
  if (untilZero bs).length < bs.length then some (untilZero bs) else none

/-- Strings between two offsets of a file. -/
structure StringTable where
  file : Bytes
  start : Nat
  stop : Nat

def StringTable.get? (t : StringTable) (offset : Nat) : Option Bytes :=
  if t.start + offset ≤ t.stop then
    (range? t.file (t.start + offset) (t.stop - (t.start + offset))).bind zeroEnded?
  else none

def need {α : Type} (o : Option α) (cause : String) : Except String α :=
  match o with
  | some a => .ok a
  | none => .error cause

def demand (ok : Bool) (cause : String) : Except String Unit := if ok then .ok () else .error cause

end FunctionSlice.Binary
