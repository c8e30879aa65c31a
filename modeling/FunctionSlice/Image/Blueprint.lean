import FunctionSlice.Image.Binary
import FunctionSlice.Module

/-! Small portable executables, written. The file has three pages of 0x200 bytes: the headers, the code, and
the directory of the exports with its tables. -/

namespace FunctionSlice

namespace Binary

/-- The low `size` bytes of a number, the lowest first. -/
def little : Nat → Nat → Bytes
  | 0, _ => []
  | size + 1, n => UInt8.ofNat n :: little size (n / 256)

/-- Numbers one after another, each with its size before it. -/
def record (fields : List (Nat × Nat)) : Bytes := fields.flatMap fun (size, n) => little size n

/-- Zero bytes up to a size. -/
def padded (size : Nat) (bs : Bytes) : Bytes := bs ++ List.replicate (size - bs.length) 0

/-- Strings one after another, each with a zero byte behind it. -/
def strings (ss : List Bytes) : Bytes := ss.flatMap (· ++ [0])

/-- Where each of the strings is if the first one is at `start`. -/
def pointers (start : Nat) : List Bytes → List Nat
  | [] => []
  | s :: ss => start :: pointers (start + s.length + 1) ss

end Binary

namespace Pe

open Binary

def textSection : Section := ⟨".text", 0x1000, 0x200, 0x200⟩

def rdataSection : Section := ⟨".rdata", 0x2000, 0x200, 0x400⟩

def sectionHeader (s : Section) (characteristics : Nat) : Bytes :=
  padded 8 (Text.utf8 s.name) ++
    record [(4, s.rawSize.toNat), (4, s.virtualAddress.toNat), (4, s.rawSize.toNat), (4, s.rawOffset.toNat),
      (12, 0), (4, characteristics)]

/-- What an executable is made of. -/
structure Blueprint where
  width : Width
  imageBase : Word
  /-- A page of code. -/
  text : Bytes
  /-- Names and addresses relative to the image base, in any order. -/
  exports : List (String × UInt32)

namespace Blueprint

/-- By name, and by address under one name. -/
def ordered (a b : String × UInt32) : Bool := a.1 < b.1 || (a.1 == b.1 && a.2 ≤ b.2)

def sorted (b : Blueprint) : List (String × UInt32) := b.exports.mergeSort ordered

def names (b : Blueprint) : List Bytes := b.sorted.map fun e => Text.utf8 e.1

/-- Where the directory is mapped. -/
def directoryAddress : Nat := 0x2000

/-- For `n` exports the tables follow in this order: addresses of functions, pointers to names, and the index
that each name has among the addresses; behind them the name of the file. -/
def headFields (n : Nat) : List (Nat × Nat) :=
  [(12, 0), (4, directoryAddress + 40 + 10 * n), (4, 1), (4, n), (4, n), (4, directoryAddress + 40),
    (4, directoryAddress + 40 + 4 * n), (4, directoryAddress + 40 + 8 * n)]

/-- The directory with its tables and names. Without exports there is none. -/
def directory (b : Blueprint) : Bytes :=
  if b.exports.isEmpty then []
  else
    let n := b.exports.length
    record (headFields n) ++ (b.sorted.flatMap fun e => little 4 e.2.toNat) ++
      (pointers (directoryAddress + 49 + 10 * n) b.names).flatMap (little 4) ++
      (List.range n).flatMap (little 2) ++ strings [Text.utf8 "test.dll"] ++ strings b.names

def dosFields : List (Nat × Nat) := [(2, 0x5a4d), (58, 0), (4, 0x40)]

/-- What the headers say about a width. -/
structure Mark where
  machine : Nat
  optionalSize : Nat
  characteristics : Nat
  magic : Nat
  addressSize : Nat

def mark : Width → Mark
  | .bits32 => ⟨0x14c, 0xe0, 0x2102, 0x10b, 4⟩
  | .bits64 => ⟨0x8664, 0xf0, 0x2022, 0x20b, 8⟩

def coffFields (m : Mark) : List (Nat × Nat) :=
  [(4, 0x4550), (2, m.machine), (2, 2), (4, 0), (4, 0), (4, 0), (2, m.optionalSize), (2, m.characteristics)]

/-- The base has the size of an address. Where that is short the address of the data is before it. -/
def optionalFields (m : Mark) (imageBase : Nat) : List (Nat × Nat) :=
  [(2, m.magic), (2, 0), (4, 0x200), (4, 0x200), (4, 0), (4, 0x1000), (4, 0x1000),
    (8 - m.addressSize, 0x2000), (m.addressSize, imageBase), (4, 0x1000), (4, 0x200), (8, 6), (8, 6),
    (4, 0x3000), (4, 0x200), (4, 0), (4, 3), (m.addressSize, 0x10_0000), (m.addressSize, 0x1000),
    (m.addressSize, 0x10_0000), (m.addressSize, 0x1000), (4, 0), (4, 16)]

/-- Sixteen directories, of which the exports are the first. -/
def directoryFields (b : Blueprint) : List (Nat × Nat) :=
  [(4, if b.exports.isEmpty then 0 else directoryAddress), (4, b.directory.length), (120, 0)]

def fields (b : Blueprint) : List (Nat × Nat) :=
  let m := mark b.width
  dosFields ++ coffFields m ++ optionalFields m b.imageBase.toNat ++ b.directoryFields

def headers (b : Blueprint) : Bytes :=
  record b.fields ++ sectionHeader textSection 0x6000_0020 ++ sectionHeader rdataSection 0x4000_0040

def bytes (b : Blueprint) : Bytes := padded 0x200 b.headers ++ b.text ++ padded 0x200 b.directory

end Blueprint

end Pe

end FunctionSlice
