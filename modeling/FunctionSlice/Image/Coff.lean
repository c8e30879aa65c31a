import FunctionSlice.Image
import FunctionSlice.Image.Binary

/-! The COFF header, its section headers and its symbols, and object files made of nothing else. -/

namespace FunctionSlice.Coff

open Binary

def headerSize : Nat := 20

structure Header where
  machine : Nat
  sectionCount : Nat
  symbolOffset : Nat
  symbolCount : Nat
  optionalSize : Nat

def Header.ofBytes (bs : Bytes) : Header :=
  ⟨u16 bs 0, u16 bs 2, u32 bs 8, u32 bs 12, u16 bs 16⟩

structure SectionHeader where
  /-- Eight bytes. -/
  rawName : Bytes
  virtualSize : Nat
  virtualAddress : Nat
  rawSize : Nat
  rawOffset : Nat
  characteristics : Nat

def SectionHeader.ofBytes (bs : Bytes) : SectionHeader :=
  ⟨bs.take 8, u32 bs 8, u32 bs 12, u32 bs 16, u32 bs 20, u32 bs 36⟩

def sectionHeaders (data : Bytes) (offset count : Nat) : Except String (List SectionHeader) := do
  let hs ← need (rows? data offset count 40) "Invalid COFF/PE section headers"
  return hs.map SectionHeader.ofBytes

structure SymbolRecord where
  rawName : Bytes
  value : Nat
  sectionNumber : Nat
  type : Nat
  storageClass : Nat
  auxCount : Nat

def SymbolRecord.ofBytes (bs : Bytes) : SymbolRecord :=
  ⟨bs.take 8, u32 bs 8, u16 bs 12, u16 bs 14, byteAt bs 16, byteAt bs 17⟩

/-- The records less the auxiliary ones. -/
def primaries : Nat → List SymbolRecord → List SymbolRecord
  | _, [] => []
  | 0, r :: rs => r :: primaries r.auxCount rs
  | n + 1, _ :: rs => primaries n rs

structure Symbols where
  records : List SymbolRecord
  strings : Option StringTable

def symbols (data : Bytes) (h : Header) : Except String Symbols :=
  if h.symbolOffset = 0 then .ok ⟨[], none⟩
  else do
    let rs ← need (rows? data h.symbolOffset h.symbolCount 18)
      "Invalid COFF symbol table offset or size"
    let stringsAt := h.symbolOffset + h.symbolCount * 18
    let length ← need (range? data stringsAt 4) "Missing COFF string table"
    return ⟨primaries 0 (rs.map SymbolRecord.ofBytes),
      some ⟨data, stringsAt, stringsAt + u32 length 0⟩⟩

/-- Section symbols are static ones with an auxiliary record and no type. -/
def SymbolRecord.isDefined (r : SymbolRecord) : Bool :=
  0 < r.sectionNumber && r.sectionNumber < 0xff00 &&
    (r.storageClass == 2 || r.storageClass == 105 ||
      (r.storageClass == 3 && !(r.auxCount > 0 && r.type == 0)))

def SymbolRecord.name? (r : SymbolRecord) (strings : Option StringTable) : Option String := do
  let bytes ←
    if byteAt r.rawName 0 = 0 then strings.bind (·.get? (u32 r.rawName 4))
    else some (untilZero r.rawName)
  Text.utf8? bytes

def SymbolRecord.address (r : SymbolRecord) (base : Word) (hs : List SectionHeader) : Word :=
  match hs[r.sectionNumber - 1]? with
  | some h => base + UInt64.ofNat h.virtualAddress + UInt64.ofNat r.value
  | none => 0

def definitions (base : Word) (hs : List SectionHeader) (t : Symbols) : List Definition :=
  t.records.map fun r => ⟨r.name? t.strings, r.address base hs, r.isDefined⟩

/-- Machines of object files. Executables know the first three. -/
def machine (n : Nat) : Machine :=
  if n = 0x14c then .i386
  else if n = 0x8664 then .x64
  else .foreign (if n = 0x1c4 then "Arm"
    else if n = 0xaa64 ∨ n = 0xa641 then "Aarch64"
    else if n = 0x1f0 ∨ n = 0x1f1 ∨ n = 0x1f2 then "PowerPc"
    else "Unknown")

def isObjectMachine (n : Nat) : Bool :=
  [0x1c4, 0xaa64, 0xa641, 0x1f0, 0x1f1, 0x1f2, 0x14c, 0x8664].contains n

def base64Digit? (b : Nat) : Option Nat :=
  if 65 ≤ b ∧ b ≤ 90 then some (b - 65)
  else if 97 ≤ b ∧ b ≤ 122 then some (b - 71)
  else if 48 ≤ b ∧ b ≤ 57 then some (b + 4)
  else if b = 43 then some 62
  else if b = 47 then some 63
  else none

def decimalDigit? (b : Nat) : Option Nat := if 48 ≤ b ∧ b ≤ 57 then some (b - 48) else none

def positional? (base : Nat) (digit? : Nat → Option Nat) (bs : Bytes) : Option Nat :=
  bs.foldl (fun n b => do return (← n) * base + (← digit? b.toNat)) (some 0)

/-- A name that starts with a slash is an offset into the string table: after one slash in decimal, after
two in base 64. -/
def SectionHeader.name? (h : SectionHeader) (strings : Option StringTable) : Option String := do
  let bytes ← match h.rawName with
    | 47 :: 47 :: ds => do
      let offset ← positional? 64 base64Digit? ds
      if offset < 0x1_0000_0000 then strings.bind (·.get? offset) else none
    | 47 :: ds => do
      let offset ← positional? 10 decimalDigit? (untilZero ds)
      strings.bind (·.get? offset)
    | raw => some (untilZero raw)
  Text.utf8? bytes

def SectionHeader.placement (h : SectionHeader) (strings : Option StringTable) : Placement :=
  ⟨h.name? strings, UInt64.ofNat h.virtualAddress,
    if h.characteristics / 0x80 % 2 = 1 then none
    else some (UInt64.ofNat h.rawOffset, UInt64.ofNat h.rawSize)⟩

def parse (data : Bytes) : Except String Image := do
  let h := Header.ofBytes (← need (range? data 0 headerSize) "Invalid COFF file header size or alignment")
  let hs ← sectionHeaders data (headerSize + h.optionalSize) h.sectionCount
  let t ← symbols data h
  return Image.placed .coff (machine h.machine) 0 (hs.map (·.placement t.strings))
    (definitions 0 hs t) [] (some [])

end FunctionSlice.Coff
