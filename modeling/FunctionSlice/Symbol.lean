import FunctionSlice.Mangled
import FunctionSlice.Mask

/-! Named places of a module. A table holds each symbol once, in the order of first occurrence, together
with its readable form; a mask finds a symbol by either. -/

namespace FunctionSlice

structure Symbol where
  name : String
  rva : Word
  deriving DecidableEq

def Symbol.display (s : Symbol) : String := s.name ++ " @ " ++ Text.hex s.rva

/-- What can be asked for the symbols under a mask. -/
abbrev SymbolSource := Mask → List Symbol

namespace SymbolTable

structure Entry where
  symbol : Symbol
  readable : Option String
  deriving DecidableEq

namespace Entry

def of (s : Symbol) (read : Mangled.Readers := Mangled.readers) : Entry := ⟨s, read.name? s.name⟩

def isMatch (m : Mask) (e : Entry) : Bool := m.isMatch e.symbol.name || e.readable.any m.isMatch

end Entry

end SymbolTable

structure SymbolTable where
  entries : List SymbolTable.Entry
  deriving DecidableEq

namespace SymbolTable

/-- The symbols that are not in `seen`; what is taken is seen from then on. -/
def fresh (seen : List Symbol) : List Symbol → List Symbol
  | [] => []
  | s :: rest => if s ∈ seen then fresh seen rest else s :: fresh (s :: seen) rest

def ofSymbols (xs : List Symbol) (read : Mangled.Readers := Mangled.readers) : SymbolTable :=
  ⟨(fresh [] xs).map (Entry.of · read)⟩

def symbols (t : SymbolTable) : List Symbol := t.entries.map (·.symbol)

def lookup (t : SymbolTable) : SymbolSource :=
  fun m => (t.entries.filter (Entry.isMatch m)).map (·.symbol)

end SymbolTable

end FunctionSlice
