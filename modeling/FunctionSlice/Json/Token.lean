import FunctionSlice.Decimal.FloatText
import FunctionSlice.Json.Failure

/-! The words of JSON: blanks, literals, strings and numbers. A number that is no 64-bit integer is a
float. -/

namespace FunctionSlice.Json

/-- Readers keep their position when they fail. -/
abbrev Read := EStateM Failure (List Char)

namespace Read

variable {α : Type}

def fail (reason : Reason) : Read α := do throw ⟨reason, some ⟨← get, 0⟩⟩

/-- Fails at the next byte. -/
def failNext (reason : Reason) : Read α := do throw ⟨reason, some ⟨← get, 1⟩⟩

def failUnplaced (reason : Reason) : Read α := throw ⟨reason, none⟩

/-- A failure without a place happened where `p` stopped. -/
def placed (p : Read α) : Read α := fun cs =>
  match p cs with
  | .ok a s => .ok a s
  | .error ⟨reason, none⟩ s => .error ⟨reason, some ⟨s, 0⟩⟩ s
  | .error f s => .error f s

def peek : Read (Option Char) := do return (← get).head?

def skip : Read Unit := modify (List.drop 1)

end Read

open Read

def isBlank (c : Char) : Bool := c == ' ' || c == '\t' || c == '\n' || c == '\r'

/-- Skips blanks and shows what comes after them. -/
def afterBlanks : Read (Option Char) := do
  modify (List.dropWhile isBlank)
  peek

/-- The rest of a literal whose first letter has been read. -/
def literal : List Char → Read Unit
  | [] => pure ()
  | c :: r => do
    match ← peek with
    | none => fail .endInValue
    | some d =>
      if d = c then
        skip
        literal r
      else failNext .expectedIdent

inductive Number where
  | unsigned (n : Nat)
  | negative (n : Nat)
  | float (f : Float)

def Number.describe : Number → String
  | unsigned n => "integer `" ++ toString n ++ "`"
  | negative n => "integer `-" ++ toString n ++ "`"
  | float f => "floating point `" ++ Decimal.floatText f ++ "`"

def powerOfTen (n : Nat) : Float := Float.ofScientific 1 false n

/-- `n * 10 ^ exponent` in steps of at most `10 ^ 308`, or nothing if it is too large. -/
def scaled? : Nat → Float → Int → Option Float
  | 0, f, _ => some f
  | steps + 1, f, exponent =>
    if exponent.natAbs ≤ 308 then
      if exponent ≥ 0 then
        let g := f * powerOfTen exponent.toNat
        if g.isInf then none else some g
      else some (f / powerOfTen exponent.natAbs)
    else if f == 0.0 then some f
    else if exponent ≥ 0 then none
    else scaled? steps (f / powerOfTen 308) (exponent + 308)

def toFloat (positive : Bool) (n : Nat) (exponent : Int) : Read Number := do
  match scaled? (exponent.natAbs / 308 + 2) (UInt64.ofNat n).toFloat exponent with
  | some f => return .float (if positive then f else -f)
  | none => fail .outOfRange

def digitValue (c : Char) : Nat := c.toNat - 48

/-- Appends digits to a number as long as it fits in 64 bits. The number, how many digits went into it,
and the digits that did not. -/
def accumulate (n : Nat) : List Char → Nat × Nat × List Char
  | [] => (n, 0, [])
  | c :: r =>
    if n * 10 + digitValue c < 0x1_0000_0000_0000_0000 then
      let (m, k, left) := accumulate (n * 10 + digitValue c) r
      (m, k + 1, left)
    else (n, 0, c :: r)

def takeDigits : Read (List Char) := do
  let cs ← get
  set (cs.dropWhile Char.isDigit)
  return cs.takeWhile Char.isDigit

def exponentLimit : Nat := 0x8000_0000

/-- Reads an exponent from its letter on. -/
def withExponent (positive : Bool) (n : Nat) (start : Int) : Read Number := do
  skip
  let up ← do
    match ← peek with
    | some '+' =>
      skip
      pure true
    | some '-' =>
      skip
      pure false
    | _ => pure true
  match ← peek with
  | none => fail .endInValue
  | some c =>
    if !c.isDigit then failNext .invalidNumber
    else
      let before ← get
      let digits ← takeDigits
      let power := digits.foldl (fun e d => e * 10 + digitValue d) 0
      if power < exponentLimit then toFloat positive n (if up then start + power else start - power)
      else if n != 0 && up then
        -- The digit that is too much has been read, and none after it.
        let fitting := (List.range (digits.length + 1)).find? fun k =>
          (digits.take k).foldl (fun e d => e * 10 + digitValue d) 0 ≥ exponentLimit
        set (before.drop (fitting.getD digits.length))
        fail .outOfRange
      else return .float (if positive then 0.0 else -0.0)

def isExponentMark (c : Option Char) : Bool := c == some 'e' || c == some 'E'

/-- Reads a fraction from its point on. -/
def withFraction (positive : Bool) (n : Nat) (start : Int) : Read Number := do
  skip
  let digits ← takeDigits
  if digits.isEmpty then
    if (← peek).isSome then failNext .invalidNumber else failNext .endInValue
  else
    let (m, used, _) := accumulate n digits
    if isExponentMark (← peek) then withExponent positive m (start - used)
    else toFloat positive m (start - used)

/-- The digits before a point or an exponent. A zero stands alone. -/
def wholeDigits : Read (List Char) := do
  match ← peek with
  | none => fail .endInValue
  | some c =>
    if !c.isDigit then failNext .invalidNumber
    else if c = '0' then
      skip
      if ((← peek).map Char.isDigit) == some true then failNext .invalidNumber else return ['0']
    else takeDigits

/-- Reads a number after its sign. -/
def number (positive : Bool) : Read Number := do
  let digits ← wholeDigits
  let (n, _, left) := accumulate 0 digits
  match ← peek with
  | some '.' => withFraction positive n left.length
  | some 'e' | some 'E' => withExponent positive n left.length
  | _ =>
    if !left.isEmpty then toFloat positive n left.length
    else if positive then return .unsigned n
    else if 0 < n && n ≤ 0x8000_0000_0000_0000 then return .negative n
    else return .float (-(UInt64.ofNat n).toFloat)

def hex4? : List Char → Option Nat
  | [a, b, c, d] => Text.hexNumber? 0x1_0000 [a, b, c, d]
  | _ => none

/-- Four digits at once; characters outside ASCII count for as many as they have bytes. -/
def hexEscape : Read Nat := do
  let cs ← get
  let four := cs.take 4
  if byteLength four < 4 then
    set ([] : List Char)
    fail .endInString
  else
    match hex4? four with
    | some n =>
      set (cs.drop 4)
      return n
    | none => throw ⟨.invalidEscape, some ⟨cs, 4⟩⟩

def isLead (n : Nat) : Bool := 0xd800 ≤ n && n < 0xdc00

def isTrail (n : Nat) : Bool := 0xdc00 ≤ n && n < 0xe000

def needs (c : Char) : Read Unit := do
  match ← peek with
  | none => fail .endInString
  | some d => if d = c then skip else failNext .unfinishedSurrogate

/-- A code unit that leads a pair needs the other one. -/
def codeEscape : Read Char := do
  let n ← hexEscape
  if isTrail n then fail .loneSurrogate
  else if isLead n then
    needs '\\'
    needs 'u'
    let m ← hexEscape
    if isTrail m then return Char.ofNat (0x10000 + (n - 0xd800) * 0x400 + (m - 0xdc00))
    else fail .loneSurrogate
  else return Char.ofNat n

def simpleEscapes : List (Char × Char) :=
  [('"', '"'), ('\\', '\\'), ('/', '/'), ('b', '\x08'), ('f', '\x0c'), ('n', '\n'), ('r', '\r'),
   ('t', '\t')]

def escape : Read Char := do
  match ← peek with
  | none => fail .endInString
  | some c =>
    match simpleEscapes.lookup c with
    | some d =>
      skip
      return d
    | none =>
      if c = 'u' then
        skip
        codeEscape
      else failNext .invalidEscape

/-- The characters up to the closing quote, of which there are at most `n`. -/
def characters : Nat → Read (List Char)
  | 0 => fail .endInString
  | n + 1 => do
    match ← peek with
    | none => fail .endInString
    | some '"' =>
      skip
      return []
    | some '\\' => do
      skip
      let c ← escape
      return c :: (← characters n)
    | some c =>
      if c.toNat < 0x20 then failNext .controlCharacter
      else
        skip
        return c :: (← characters n)

/-- A string after its opening quote. -/
def string : Read String := do
  return String.ofList (← characters ((← get).length + 1))

end FunctionSlice.Json
