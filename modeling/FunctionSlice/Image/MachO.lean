import FunctionSlice.Image
import FunctionSlice.Image.Binary

/-! Mach-O files for one machine, of both widths and byte orders. Everything is found by walking the load
commands; a command that does not fit ends the walk. Addresses are relative to zero. -/

namespace FunctionSlice.MachO

open Binary

structure Layout where
  word : Nat
  headerSize : Nat
  segmentCommand : Nat
  segmentSize : Nat
  sectionCount : Nat
  sectionSize : Nat
  sectionOffset : Nat
  sectionFlags : Nat
  symbolSize : Nat

def layout : Width → Layout
  | .bits32 => ⟨4, 28, 1, 56, 48, 68, 40, 56, 12⟩
  | .bits64 => ⟨8, 32, 0x19, 72, 64, 80, 48, 64, 16⟩

structure Command where
  kind : Nat
  /-- The command with its own head. -/
  bytes : Bytes

/-- The commands that fit, and whether they are all. -/
def commands (e : Endian) : Nat → Bytes → List Command × Bool
  | 0, _ => ([], true)
  | n + 1, bs =>
    let size := uint e 4 bs 4
    if bs.length < 8 ∨ size < 8 ∨ bs.length < size then ([], false)
    else
      let (rest, whole) := commands e n (bs.drop size)
      (⟨uint e 4 bs 0, bs.take size⟩ :: rest, whole)

structure SymbolRecord where
  nameOffset : Nat
  type : Nat
  value : Nat

namespace SymbolRecord

def ofBytes (l : Layout) (e : Endian) (bs : Bytes) : SymbolRecord :=
  ⟨uint e 4 bs 0, byteAt bs 4, uint e l.word bs 8⟩

def isDebugging (r : SymbolRecord) : Bool := r.type / 0x20 != 0

def isDefined (r : SymbolRecord) : Bool := r.type % 16 / 2 == 7

end SymbolRecord

structure Symbols where
  records : List SymbolRecord
  strings : Option StringTable

def Symbols.name? (t : Symbols) (r : SymbolRecord) : Option Bytes := t.strings.bind (·.get? r.nameOffset)

def Symbols.definitions (t : Symbols) : List Definition :=
  (t.records.filter (!·.isDebugging)).map fun r =>
    ⟨(t.name? r).bind Text.utf8?, UInt64.ofNat r.value, r.isDefined⟩

def zeroFilled (flags : Nat) : Bool := [1, 0xc, 0x12].contains (flags % 256)

def placementOf (l : Layout) (e : Endian) (bs : Bytes) : Placement :=
  ⟨Text.utf8? (untilZero (bs.take 16)), UInt64.ofNat (uint e l.word bs 32),
    if zeroFilled (uint e 4 bs l.sectionFlags) then none
    else some (UInt64.ofNat (uint e 4 bs l.sectionOffset), UInt64.ofNat (uint e l.word bs (32 + l.word)))⟩

def placements (l : Layout) (e : Endian) (c : Command) : Except String (List Placement) :=
  if c.kind = l.segmentCommand then do
    let segment ← need (range? c.bytes 0 l.segmentSize) "Invalid Mach-O command size"
    let rs ← need (rows? c.bytes l.segmentSize (uint e 4 segment l.sectionCount) l.sectionSize)
      "Invalid Mach-O number of sections"
    return rs.map (placementOf l e)
  else .ok []

def symbols? (l : Layout) (e : Endian) (data : Bytes) (c : Command) : Except String (Option Symbols) :=
  if c.kind = 2 then do
    let t ← need (range? c.bytes 0 24) "Invalid Mach-O command size"
    let rs ← need (rows? data (uint e 4 t 8) (uint e 4 t 12) l.symbolSize)
      "Invalid Mach-O symbol table offset or size"
    let start := uint e 4 t 16
    return some ⟨rs.map (.ofBytes l e), some ⟨data, start, start + uint e 4 t 20⟩⟩
  else .ok none

/-- Commands in order; the last symbol table counts. -/
def walk (l : Layout) (e : Endian) (data : Bytes) :
    List Command → Symbols → Except String (List Placement × Symbols)
  | [], t => .ok ([], t)
  | c :: cs, t => do
    let here ← placements l e c
    let table ← symbols? l e data c
    let (rest, t) ← walk l e data cs (table.getD t)
    return (here ++ rest, t)

/-- The range of symbols that the dynamic symbol table gives out. -/
def exportRange? (e : Endian) : List Command × Bool → Option (Option (Nat × Nat))
  | ([], whole) => if whole then some none else none
  | (c :: cs, whole) =>
    if c.kind = 0xb then
      (range? c.bytes 0 80).map fun t => some (uint e 4 t 16, uint e 4 t 20)
    else exportRange? e (cs, whole)

def exports? (e : Endian) (found : List Command × Bool) (t : Symbols) :
    Option (List (Bytes × Word)) := do
  match ← exportRange? e found with
  | none => some []
  | some (first, count) =>
    let rs := (t.records.drop first).take count
    if rs.length < count then none
    else rs.mapM fun r => do
      let name ← t.name? r
      pure (name, UInt64.ofNat r.value)

def machine (n : Nat) : Machine :=
  match n with
  | 7 => .i386
  | 0x1000007 => .x64
  | 12 => .foreign "Arm"
  | 0x100000c => .foreign "Aarch64"
  | 18 => .foreign "PowerPc"
  | _ => .foreign "Unknown"

def parse (w : Width) (e : Endian) (data : Bytes) : Except String Image := do
  let l := layout w
  let header ← need (range? data 0 l.headerSize) "Invalid Mach-O header size or alignment"
  let found := match range? data l.headerSize (uint e 4 header 20) with
    | some bs => commands e (uint e 4 header 16) bs
    | none => ([], false)
  let (placed, t) ← walk l e data found.1 ⟨[], none⟩
  return Image.placed .machO (machine (uint e 4 header 4)) 0 placed t.definitions []
    (exports? e found t)

end FunctionSlice.MachO
