import FunctionSlice.Text.Hex
import FunctionSlice.X86.Decode

/-! Instructions as text in the two dialects. Only operands depend on the address; the mnemonic does not. -/

namespace FunctionSlice.X86

def upperHex (n : Nat) : List Char := (Nat.toDigits 16 n).map Char.toUpper

/-- Digits of base 16 with `h` after them, and a zero before a letter. -/
def suffixed (digits : List Char) : String :=
  String.ofList ((if (digits.head?).any Char.isAlpha then ['0'] else []) ++ digits ++ ['h'])

/-- A number up to nine is the same in both bases and is written as one digit. -/
def numeral (d : Dialect) (n : Nat) : String :=
  if n ≤ 9 then toString n
  else
    match d with
    | .tight => suffixed (upperHex n)
    | .spaced => "0x" ++ String.ofList (Text.hexDigits n)

def wrap (size : Nat) (z : Int) : Nat := (z % (1 <<< (8 * size) : Nat)).toNat

def sizeWord : Nat → String
  | 1 => "byte ptr "
  | 2 => "word ptr "
  | 4 => "dword ptr "
  | 6 => "fword ptr "
  | 8 => "qword ptr "
  | 16 => "xmmword ptr "
  | _ => ""

/-- Terms of an address, joined by signs. -/
def addressText (d : Dialect) (m : Memory) (address : Word) (size : Nat) : String :=
  let (plus, minus) := match d with
    | .tight => ("+", "-")
    | .spaced => (" + ", " - ")
  let base := match m.base with
    | some r => [r.name]
    | none => if m.relative ∧ d = .spaced then [if m.addressSize = 4 then "eip" else "rip"] else []
  let index := match m.index with
    | some (r, scale) =>
      [r.name ++ if scale > 1 || (m.base.isNone && d = .tight) then "*" ++ toString scale else ""]
    | none => []
  let registers := base ++ index
  let tail :=
    if registers.isEmpty then
      numeral d (if m.relative then wrap m.addressSize (address.toNat + size + m.displacement)
        else wrap m.addressSize m.displacement)
    else if m.displacement = 0 then ""
    else if m.displacement < 0 then minus ++ numeral d m.displacement.natAbs
    else plus ++ numeral d m.displacement.natAbs
  "[" ++ plus.intercalate registers ++ tail ++ "]"

/-- The stack segment is the default for addresses that start at a stack register. -/
def defaultSegment (m : Memory) : Nat :=
  if m.base.any fun r => r.number = 4 || r.number = 5 then 2 else 3

def segmentText (d : Dialect) (w : Width) (m : Memory) : String :=
  match m.segment with
  | none => ""
  | some n =>
    let useless := d = .tight && ((w = .bits64 && n < 4) || (w = .bits32 && n == defaultSegment m))
    if useless then "" else Register.segments.getD n "" ++ ":"

/-- The size of memory is told by a register of the same size beside it, which is no count. -/
def Coded.tellsSize (i : Coded) (size : Nat) : Bool :=
  (i.entry.places.zip i.operands).any fun (p, o) =>
    match p, o with
    | .cl, _ | .dx, _ => false
    | .xmm, _ | .mmx, _ => true
    | _, .register r => r.size = size
    | _, _ => false

def immediateText (d : Dialect) (shownUnsigned : Bool) (value : Int) (size : Nat) : String :=
  if d = .tight || shownUnsigned || size = 1 || value ≥ 0 then numeral d (wrap size value)
  else "-" ++ numeral d value.natAbs

def targetText (d : Dialect) (size : Nat) (target : Nat) : String :=
  match d with
  | .spaced => numeral d target
  | .tight =>
    if target ≤ 9 then toString target
    else suffixed (Text.padLeft (2 * size) '0' (upperHex target))

def Coded.operandText (i : Coded) (d : Dialect) (address : Word) : Operand → String
  | .register r => r.name
  | .memory m size =>
    let hidden := d = .tight && (i.entry.sizeless || i.tellsSize size)
    (if hidden then "" else sizeWord size) ++ segmentText d i.width m ++ addressText d m address i.size
  | .immediate value size => immediateText d i.entry.unsigned value size
  | .branch distance short size =>
    let target := wrap size (address.toNat + i.size + distance)
    (if short ∧ d = .tight then "short " else "") ++ targetText d size target
  | .far selector offset => numeral d selector ++ ":" ++ numeral d offset

/-- In 32-bit code the spaced dialect shows the segment that a string instruction writes to. -/
def Coded.stringTarget (i : Coded) (d : Dialect) (p : Place) (o : Operand) : Operand :=
  match p, o with
  | .target _, .memory m size =>
    if i.width = .bits32 ∧ d = .spaced then .memory { m with segment := some 0 } size else o
  | _, _ => o

def Coded.shownOperands (i : Coded) (d : Dialect) : List Operand :=
  let placed := i.entry.places.zip i.operands
  match d with
  | .tight =>
    (placed.filter fun (p, _) => !(i.entry.terse && isAccumulator p)).map (·.2)
  | .spaced =>
    if i.entry.bare then []
    else
      let os := placed.map fun (p, o) => i.stringTarget d p o
      if i.entry.swapped then os.reverse else os
where
  isAccumulator : Place → Bool
    | .acc _ => true
    | _ => false

def Coded.operandsText (i : Coded) (d : Dialect) (address : Word) : String :=
  let separator := match d with
    | .tight => ","
    | .spaced => ", "
  separator.intercalate ((i.shownOperands d).map (i.operandText d address))

/-- The words before the name. -/
def Coded.prefixWords (i : Coded) (d : Dialect) : List String :=
  let lock := if i.prefixes.lock then ["lock"] else []
  let narrow :=
    if d = .tight ∧ i.entry.bounded ∧ i.width = .bits32 ∧ i.prefixes.operandSize ∧ i.entry.wide then
      ["data16"] else []
  let rep := match i.entry.repetition, i.prefixes.rep with
    | .move, some .equal => ["rep"]
    | .compare, some .equal => ["repe"]
    | .move, some .unequal | .compare, some .unequal => ["repne"]
    | .return, some .equal => if d = .tight then ["rep"] else []
    | _, _ => []
  let bound := if i.entry.bounded ∧ i.prefixes.rep = some .unequal then ["bnd"] else []
  lock ++ narrow ++ rep ++ bound

/-- The words that a dialect has for an instruction. -/
def Coded.formatted (i : Coded) (d : Dialect) : String :=
  " ".intercalate (i.prefixWords d ++ [i.entry.name.text d i.operandSize])

end FunctionSlice.X86
