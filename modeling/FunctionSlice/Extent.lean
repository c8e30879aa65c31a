import FunctionSlice.Config
import FunctionSlice.Instruction

/-! Where a function ends in a decoded stream: after its first return. With no return to go by the
whole stream is kept, and a warning says how many instructions that is. -/

namespace FunctionSlice

inductive Warning where
  | truncated (decoded : Nat)
  deriving DecidableEq

def Warning.message : Warning → String
  | truncated n =>
    "no return found in " ++ toString n ++ " decoded instructions; function may be truncated"

def findReturn (xs : List Instruction) : Option Nat := xs.findIdx? (·.isReturn)

/-- How many of `total` instructions belong to a function whose first return has index `first`. -/
def extent (first : Option Nat) (total : Nat) (p : Policy) : Nat × Option Warning :=
  match first, p with
  | some 0, .legacy => (total, some (.truncated total))
  | some k, _ => (k + 1, none)
  | none, _ => (total, some (.truncated total))

def trim (xs : List Instruction) (p : Policy) : List Instruction × Option Warning :=
  let e := extent (findReturn xs) xs.length p
  (xs.take e.1, e.2)

end FunctionSlice
