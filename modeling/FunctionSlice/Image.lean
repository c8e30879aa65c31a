import FunctionSlice.Event
import FunctionSlice.Fault
import FunctionSlice.Symbol
import FunctionSlice.Text.Utf8

/-! What the file formats have in common once they are read: the machine, the base that addresses are
relative to, sections, symbols and exports. -/

namespace FunctionSlice

inductive Machine where
  | i386
  | x64
  | foreign (name : String)
  deriving DecidableEq

def Machine.width? : Machine → Except String Width
  | i386 => .ok .bits32
  | x64 => .ok .bits64
  | foreign name => .error name

/-- A symbol as the file has it. The name is absent if it cannot be read. -/
structure Definition where
  name : Option String
  address : Word
  defined : Bool
  deriving DecidableEq

structure Image where
  container : Container
  machine : Machine
  base : Word
  /-- Placed relative to the base. -/
  sections : List Section
  statics : List Definition
  dynamics : List Definition
  /-- Names and addresses; absent if the list cannot be read. -/
  exports : Option (List (Bytes × Word))

/-- A section as the file has it. The name is absent if it cannot be read, the range if no bytes of the file
are the section's. -/
structure Placement where
  name : Option String
  address : Word
  /-- Offset and size. -/
  range : Option (Word × Word)
  deriving DecidableEq

/-- The section relative to the base. Below the base it is out of reach. -/
def Placement.section? (base : Word) (p : Placement) : Option Section := do
  let rva ← Word.sub? p.address base
  let (offset, size) := p.range.getD (0, 0)
  pure ⟨p.name.getD "", rva, size, offset⟩

namespace Image

/-- A file whose sections have absolute addresses. -/
def placed (container : Container) (machine : Machine) (base : Word) (placements : List Placement)
    (statics dynamics : List Definition) (exports : Option (List (Bytes × Word))) : Image :=
  ⟨container, machine, base, placements.filterMap (Placement.section? base), statics, dynamics, exports⟩

/-- A symbol needs a name and an address above the base. -/
def symbol? (base : Word) (name : String) (address : Word) : Option Symbol := do
  let rva ← Word.sub? address base
  if rva = 0 ∨ name = "" then none
  pure ⟨name, rva⟩

def Definition.symbol? (base : Word) (d : Definition) : Option Symbol := do
  let name ← d.name
  if d.defined then Image.symbol? base name d.address else none

/-- Symbols, dynamic symbols and exports, in that order. -/
def symbols (o : Image) : List Symbol :=
  (o.statics ++ o.dynamics).filterMap (Definition.symbol? o.base) ++
    (o.exports.getD []).filterMap fun (name, address) => symbol? o.base (Text.utf8Lossy name) address

def table (o : Image) : SymbolTable := .ofSymbols o.symbols

/-- The module and its symbols, if the machine is one whose code can be decoded. -/
def load (o : Image) (path : String) : Logged Fault (Module × SymbolTable) :=
  match o.machine.width? with
  | .error name => do
    Logged.emit (.foreignCode name)
    Logged.fail (.foreignMachine name)
  | .ok width => do
    let table := o.table
    Logged.emit (.collected table.entries.length o.base)
    Logged.emit (.parsed o.container width o.base o.sections.length)
    return (⟨path, width, o.base, o.sections⟩, table)

end Image

end FunctionSlice
