import FunctionSlice.Image
import FunctionSlice.Image.Binary

/-! ELF files of both widths and byte orders. Addresses are relative to zero. -/

namespace FunctionSlice.Elf

open Binary

/-- Where the fields are that the widths place differently. A field is its offset; `word` is the size of
an address. -/
structure Layout where
  word : Nat
  headerSize : Nat
  sectionSize : Nat
  symbolSize : Nat
  -- in the file header
  sectionsOffset : Nat
  entrySize : Nat
  -- in a section header
  address : Nat
  offset : Nat
  size : Nat
  link : Nat
  -- in a symbol
  value : Nat
  valueSize : Nat
  info : Nat
  place : Nat

def layout : Width → Layout
  | .bits32 => ⟨4, 52, 40, 16, 32, 46, 12, 16, 20, 24, 4, 8, 12, 14⟩
  | .bits64 => ⟨8, 64, 64, 24, 40, 58, 16, 24, 32, 40, 8, 16, 4, 6⟩

structure SectionHeader where
  nameOffset : Nat
  type : Nat
  address : Nat
  offset : Nat
  size : Nat
  link : Nat

def SectionHeader.ofBytes (l : Layout) (e : Endian) (bs : Bytes) : SectionHeader :=
  ⟨uint e 4 bs 0, uint e 4 bs 4, uint e l.word bs l.address, uint e l.word bs l.offset,
    uint e l.word bs l.size, uint e 4 bs l.link⟩

/-- A file with its layout and its header. -/
structure File where
  data : Bytes
  layout : Layout
  endian : Endian
  header : Bytes

namespace File

def sectionsAt (f : File) : Nat := uint f.endian f.layout.word f.header f.layout.sectionsOffset

def half (f : File) (offset : Nat) : Nat := uint f.endian 2 f.header offset

def entrySize (f : File) : Nat := f.half f.layout.entrySize

def declaredCount (f : File) : Nat := f.half (f.layout.entrySize + 2)

def namesIndex (f : File) : Nat := f.half (f.layout.entrySize + 4)

def firstSection (f : File) : Except String SectionHeader := do
  demand (f.entrySize == f.layout.sectionSize) "Invalid ELF section header entry size"
  let bs ← need (range? f.data f.sectionsAt f.layout.sectionSize)
    "Invalid ELF section header offset or size"
  return .ofBytes f.layout f.endian bs

/-- A count that does not fit in the header is the size of the first section. -/
def sectionCount (f : File) : Except String Nat :=
  if f.declaredCount > 0 then .ok f.declaredCount else return (← f.firstSection).size

def sectionHeaders (f : File) : Except String (List SectionHeader) :=
  if f.sectionsAt = 0 then .ok []
  else do
    let count ← f.sectionCount
    if count = 0 then return []
    demand (f.entrySize == f.layout.sectionSize) "Invalid ELF section header entry size"
    let hs ← need (rows? f.data f.sectionsAt count f.layout.sectionSize)
      "Invalid ELF section header offset/size/alignment"
    return hs.map (.ofBytes f.layout f.endian)

def stringsOf (f : File) (h : SectionHeader) : StringTable := ⟨f.data, h.offset, h.offset + h.size⟩

def noBits : Nat := 8

def sectionNames (f : File) (hs : List SectionHeader) : Except String (Option StringTable) :=
  if hs.isEmpty then .ok none
  else do
    let index ← if f.namesIndex = 0xffff then pure (← f.firstSection).link else pure f.namesIndex
    demand (index ≠ 0) "Missing ELF e_shstrndx"
    let h ← need hs[index]? "Invalid ELF e_shstrndx"
    if h.type = noBits then return none
    demand (h.offset + h.size < 0x1_0000_0000_0000_0000) "Invalid ELF shstrtab size"
    return some (f.stringsOf h)

end File

structure SymbolRecord where
  nameOffset : Nat
  value : Nat
  size : Nat
  type : Nat
  place : Nat

def SymbolRecord.ofBytes (l : Layout) (e : Endian) (bs : Bytes) : SymbolRecord :=
  ⟨uint e 4 bs 0, uint e l.word bs l.value, uint e l.word bs l.valueSize, byteAt bs l.info % 16,
    uint e 2 bs l.place⟩

/-- Functions and objects in a section, and what has a size but no type. -/
def SymbolRecord.isDefined (r : SymbolRecord) : Bool :=
  r.place != 0 && (r.place < 0xff00 || r.place == 0xffff) &&
    (r.type == 1 || r.type == 2 || (r.type == 0 && r.size != 0))

structure Symbols where
  records : List SymbolRecord
  strings : Option StringTable

def Symbols.name? (t : Symbols) (r : SymbolRecord) : Option Bytes := t.strings.bind (·.get? r.nameOffset)

def File.linkedStrings (f : File) (hs : List SectionHeader) (link : Nat) :
    Except String (Option StringTable) :=
  if link = 0 then .ok none
  else do
    let h ← need hs[link]? "Invalid ELF section index"
    demand (h.type == 3) "Invalid ELF string section type"
    return some (f.stringsOf h)

/-- The symbols of the first section of a type. -/
def File.symbols (f : File) (hs : List SectionHeader) (type : Nat) : Except String Symbols :=
  match hs.find? (·.type == type) with
  | none => .ok ⟨[], none⟩
  | some h => do
    demand (h.size % f.layout.symbolSize == 0) "Invalid ELF symbol table data"
    let rs ← need (rows? f.data h.offset (h.size / f.layout.symbolSize) f.layout.symbolSize)
      "Invalid ELF symbol table data"
    let strings ← f.linkedStrings hs h.link
    return ⟨rs.map (.ofBytes f.layout f.endian), strings⟩

/-- The first record stands for no symbol. -/
def Symbols.definitions (t : Symbols) : List Definition :=
  (t.records.drop 1).map fun r =>
    ⟨(t.name? r).bind Text.utf8?, UInt64.ofNat r.value, r.isDefined⟩

def Symbols.exports? (t : Symbols) : Option (List (Bytes × Word)) :=
  (t.records.filter (·.isDefined)).mapM fun r => do
    let name ← t.name? r
    pure (name, UInt64.ofNat r.value)

def SectionHeader.placement (names : Option StringTable) (h : SectionHeader) : Placement :=
  ⟨(names.bind (·.get? h.nameOffset)).bind Text.utf8?, UInt64.ofNat h.address,
    if h.type = File.noBits then none else some (UInt64.ofNat h.offset, UInt64.ofNat h.size)⟩

def machine (w : Width) (n : Nat) : Machine :=
  let byWidth (a b : String) : Machine := .foreign (match w with
    | .bits32 => a
    | .bits64 => b)
  match n with
  | 3 => .i386
  | 62 => .x64
  | 8 => byWidth "Mips" "Mips64"
  | 20 => .foreign "PowerPc"
  | 21 => .foreign "PowerPc64"
  | 40 => .foreign "Arm"
  | 183 => byWidth "Aarch64_Ilp32" "Aarch64"
  | 243 => byWidth "Riscv32" "Riscv64"
  | _ => .foreign "Unknown"

def parse (w : Width) (data : Bytes) : Except String Image := do
  let l := layout w
  let header ← need (range? data 0 l.headerSize) "Invalid ELF header size or alignment"
  let encoding := byteAt header 5
  demand ((encoding == 1 || encoding == 2) && byteAt header 6 == 1) "Unsupported ELF header"
  let f : File := ⟨data, l, if encoding = 1 then .little else .big, header⟩
  let hs ← f.sectionHeaders
  let names ← f.sectionNames hs
  let statics ← f.symbols hs 2
  let dynamics ← f.symbols hs 11
  return Image.placed .elf (machine w (f.half 18)) 0
    ((hs.drop 1).map (SectionHeader.placement names)) statics.definitions dynamics.definitions
    dynamics.exports?

end FunctionSlice.Elf
