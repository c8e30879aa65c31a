import FunctionSlice.Mangled.Decorated
import FunctionSlice.Mangled.Itanium
import FunctionSlice.Mangled.LegacyPath
import FunctionSlice.Mangled.V0Path

/-! The readable form of a symbol. The schemes are tried in a fixed order, and one that cannot read a
symbol leaves it to the next; the flavor is that of the first scheme whose look the symbol has. -/

namespace FunctionSlice

inductive Flavor where
  | path
  | itanium
  | decorated
  deriving DecidableEq

namespace Mangled

structure Readable where
  raw : String
  text : String
  flavor : Flavor
  deriving DecidableEq

/-- A reader for each scheme. -/
structure Readers where
  path : String → Option String
  itanium : String → Option String
  decorated : String → Option String

/-- `_Z` or `__Z` and a letter, a digit or an underscore. -/
def looksItanium (s : String) : Bool :=
  let tail := match s.toList with
    | '_' :: '_' :: 'Z' :: r => r
    | '_' :: 'Z' :: r => r
    | _ => []
  (tail.head?).any fun c => c == '_' || (c.toNat < 0x80 && c.isAlphanum)

def isDecoratedChar (c : Char) : Bool :=
  (c.toNat < 0x80 && c.isAlphanum) || c == '_' || c == '@' || c == '$' || c == '?'

def hasDoubleAt : List Char → Bool
  | '@' :: '@' :: _ => true
  | _ :: r => hasDoubleAt r
  | [] => false

/-- A question mark, and after at least one character `@@`. -/
def looksDecorated (s : String) : Bool :=
  match s.toList with
  | '?' :: r => hasDoubleAt ((r.takeWhile isDecoratedChar).drop 1)
  | _ => false

/-- Of two underscores one belongs to the platform. -/
def bare (s : String) : String :=
  match s.toList with
  | '_' :: '_' :: 'Z' :: r => String.ofList ('_' :: 'Z' :: r)
  | _ => s

namespace Readers

def flavor? (r : Readers) (s : String) : Option Flavor :=
  if (r.path s).isSome then some .path
  else if looksItanium s then some .itanium
  else if looksDecorated s then some .decorated
  else none

def read? (r : Readers) (s : String) : Option Readable :=
  (r.path s).map (⟨s, ·, .path⟩)
  <|> (if looksItanium s then (r.itanium (bare s)).map (⟨s, ·, .itanium⟩) else none)
  <|> (if looksDecorated s then (r.decorated s).map (⟨s, ·, .decorated⟩) else none)

/-- The readable form, if it differs from the raw one. -/
def name? (r : Readers) (s : String) : Option String :=
  ((r.read? s).map (·.text)).filter (· ≠ s)

end Readers

def linkerMark : List Char := ".llvm.".toList

/-- Where the mark of link-time optimisation starts for the first time. -/
def splitMark : List Char → List Char × Option (List Char)
  | [] => ([], none)
  | c :: r =>
    if linkerMark.isPrefixOf (c :: r) then ([], some ((c :: r).drop linkerMark.length))
    else
      let (before, after) := splitMark r
      (c :: before, after)

def isMarkDigit (c : Char) : Bool := c.isDigit || ('A' ≤ c && c ≤ 'F') || c == '@'

/-- The symbol less what link-time optimisation appended. -/
def withoutMark (cs : List Char) : List Char :=
  match splitMark cs with
  | (before, some digits) => if digits.all isMarkDigit then before else cs
  | (_, none) => cs

def isGraphic (c : Char) : Bool := 0x21 ≤ c.toNat && c.toNat ≤ 0x7e

/-- What may stand after a symbol: words after a period. -/
def isSuffix : List Char → Bool
  | [] => true
  | '.' :: r => r.all isGraphic
  | _ => false

def pathText? (s : String) : Option String := do
  let cs := withoutMark s.toList
  let (shown, rest) ← LegacyPath.demangle? cs <|> V0Path.demangle? cs
  if isSuffix rest then some (String.ofList (shown ++ rest)) else none

def readers : Readers where
  path := pathText?
  itanium s := (Itanium.demangle? s.toList).map String.ofList
  decorated s := (Decorated.demangle? s.toList).map String.ofList

def read? (s : String) : Option Readable := readers.read? s

def name? (s : String) : Option String := readers.name? s

end Mangled

end FunctionSlice
