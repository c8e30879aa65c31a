import FunctionSlice.Image.Coff

/-! Portable executables. The export directory is read through the section that holds it, and its tables
are addressed relative to it; an address inside it forwards to another module and is no export. -/

namespace FunctionSlice.Pe

open Binary Coff

/-- The layout of the optional header for a width: its fixed size, and where the image base and the
number of data directories are. -/
structure Layout where
  optionalSize : Nat
  base : Bytes → Nat
  directoryCount : Bytes → Nat

def layout : Width → Layout
  | .bits32 => ⟨96, (u32 · 28), (u32 · 92)⟩
  | .bits64 => ⟨112, (u64 · 24), (u32 · 108)⟩

def dosHeaderSize : Nat := 64

def headersOffset? (data : Bytes) : Option Nat :=
  (range? data 0 dosHeaderSize).map (u32 · 0x3c)

/-- The width that the optional header announces. -/
def width? (data : Bytes) : Option Width := do
  let offset ← headersOffset? data
  let headers ← range? data offset 120
  if headers.take 4 ≠ [0x50, 0x45, 0, 0] then none
  else if u16 headers 24 = 0x10b then some .bits32
  else if u16 headers 24 = 0x20b then some .bits64
  else none

/-- Where a section's data for an address is in the file, and how much of it there is. -/
def SectionHeader.fileRange? (h : SectionHeader) (address : Nat) : Option (Nat × Nat) :=
  let size := min h.virtualSize h.rawSize
  if h.virtualAddress ≤ address ∧ address - h.virtualAddress < size ∧
      h.rawOffset + (address - h.virtualAddress) < 0x1_0000_0000 then
    some (h.rawOffset + (address - h.virtualAddress), size - (address - h.virtualAddress))
  else none

def dataAt? (data : Bytes) (hs : List SectionHeader) (address : Nat) : Option Bytes :=
  hs.findSome? fun h => do
    let (offset, size) ← SectionHeader.fileRange? h address
    range? data offset size

def minus32 (a b : Nat) : Nat := (a + 0x1_0000_0000 - b) % 0x1_0000_0000

structure Exports where
  address : Nat
  directory : Bytes
  functions : List Nat
  names : List (Nat × Nat)

def Exports.parse? (address : Nat) (directory : Bytes) : Option Exports := do
  let head ← range? directory 0 40
  let table (place count size : Nat) : Option (List Bytes) :=
    rows? directory (minus32 place address) count size
  let functions ← if u32 head 28 = 0 then some [] else table (u32 head 28) (u32 head 20) 4
  let names ←
    if u32 head 32 = 0 then some []
    else if u32 head 36 = 0 then none
    else do
      let names ← table (u32 head 32) (u32 head 24) 4
      let ordinals ← table (u32 head 36) (u32 head 24) 2
      some (names.zip ordinals)
  pure ⟨address, directory, functions.map (u32 · 0), names.map fun (n, o) => (u32 n 0, u16 o 0)⟩

def Exports.isForward (t : Exports) (address : Nat) : Bool :=
  minus32 address t.address < t.directory.length

/-- A name and its address, by the pointer to the name and the index of the address. -/
def Exports.entry? (t : Exports) (e : Nat × Nat) : Option (Bytes × Nat) := do
  let name ← zeroEnded? (t.directory.drop (minus32 e.1 t.address))
  let address ← t.functions[e.2]?
  pure (name, address)

/-- Names and addresses relative to the image base. -/
def Exports.list? (t : Exports) : Option (List (Bytes × Nat)) := do
  let all ← t.names.mapM t.entry?
  pure (all.filter fun e => !t.isForward e.2)

/-- The exports; none if there is no directory of them, absent if it cannot be read. -/
def exports? (data : Bytes) (hs : List SectionHeader) (directories : List Bytes) :
    Option (List (Bytes × Nat)) :=
  match directories with
  | [] => some []
  | d :: _ =>
    if u32 d 0 = 0 then some []
    else do
      let bytes ← dataAt? data hs (u32 d 0)
      let directory ← range? bytes 0 (u32 d 4)
      (← Exports.parse? (u32 d 0) directory).list?

def SectionHeader.toSection (h : SectionHeader) : Section :=
  ⟨Text.utf8Lossy (untilZero h.rawName), UInt64.ofNat h.virtualAddress, UInt64.ofNat h.rawSize,
    UInt64.ofNat h.rawOffset⟩

def machine (n : Nat) : Machine :=
  if n = 0x1f0 ∨ n = 0x1f1 ∨ n = 0x1f2 then .foreign "Unknown" else Coff.machine n

def parse (w : Width) (data : Bytes) : Except String Image := do
  let l := layout w
  let offset ← need (headersOffset? data) "Invalid DOS header size or alignment"
  let headers ← need (range? data offset (4 + headerSize + l.optionalSize))
    "Invalid PE headers offset or size"
  let h := Header.ofBytes (headers.drop 4)
  let optional := headers.drop (4 + headerSize)
  demand (l.optionalSize ≤ h.optionalSize) "PE optional header size is too small"
  let restAt := offset + 4 + headerSize + l.optionalSize
  let rest ← need (range? data restAt (h.optionalSize - l.optionalSize))
    "Invalid PE optional header size"
  let directories ← need (rows? rest 0 (l.directoryCount optional) 8)
    "Invalid PE number of RVA and sizes"
  let hs ← sectionHeaders data (restAt + (h.optionalSize - l.optionalSize)) h.sectionCount
  let base := UInt64.ofNat (l.base optional)
  let defined := match symbols data h with
    | .ok t => definitions base hs t
    | .error _ => []
  let exports := (exports? data hs directories).map fun es =>
    es.map fun (name, address) => (name, base + UInt64.ofNat address)
  return ⟨.pe, machine h.machine, base, hs.map SectionHeader.toSection, defined, [], exports⟩

end FunctionSlice.Pe
