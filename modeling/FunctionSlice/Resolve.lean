import FunctionSlice.Event
import FunctionSlice.Fault
import FunctionSlice.Symbol

/-! From a query to an address. An address is its own answer. A name must have exactly one symbol: it is
looked up as it is, and as a mask only if nothing is called so. -/

namespace FunctionSlice

def MaskDefect.toFault (d : MaskDefect) : Fault := .badMask d.message

/-- The symbols that a name stands for. -/
def hits (source : SymbolSource) (name : String)
    (limit : Expression.Limit := Expression.sizeLimit) : Except Fault (List Symbol) := do
  let literal ← (Mask.literal name).mapError MaskDefect.toFault
  match source literal with
  | [] =>
    if Mask.hasWildcards name then
      return source (← (Mask.ofText name limit).mapError MaskDefect.toFault)
    else return []
  | found => return found

def resolve (source : SymbolSource) (q : Query)
    (limit : Expression.Limit := Expression.sizeLimit) : Logged Fault Word :=
  match q with
  | .byAddress rva => pure rva
  | .byName name =>
    match hits source name limit with
    | .error e => Logged.fail e
    | .ok [only] => do
      Logged.emit (.resolved name only.name only.rva)
      return only.rva
    | .ok found => do
      Logged.emit (.notUnique name found.length)
      Logged.fail (.notUnique name found.length)

end FunctionSlice
