import FunctionSlice.Text.Hex

/-! JSON values as far as the data here needs them, and their two written forms. Members keep their
order. -/

namespace FunctionSlice.Json

inductive Value where
  | null
  | number (n : Nat)
  | text (s : String)
  | list (items : List Value)
  | object (members : List (String × Value))

def escapedChar (c : Char) : List Char :=
  if c = '"' then ['\\', '"']
  else if c = '\\' then ['\\', '\\']
  else if c = '\n' then ['\\', 'n']
  else if c = '\r' then ['\\', 'r']
  else if c = '\t' then ['\\', 't']
  else if c.toNat = 8 then ['\\', 'b']
  else if c.toNat = 12 then ['\\', 'f']
  else if c.toNat < 0x20 then
    ['\\', 'u', '0', '0', Nat.digitChar (c.toNat / 16), Nat.digitChar (c.toNat % 16)]
  else [c]

def writeText (s : String) : List Char := '"' :: s.toList.flatMap escapedChar ++ ['"']

def separated (sep : List Char) : List (List Char) → List Char
  | [] => []
  | [t] => t
  | t :: ts => t ++ sep ++ separated sep ts

/-- How structure is laid out: what opens a line at a depth, and what follows a key. -/
structure Layout where
  line : Nat → List Char
  colon : List Char

def compact : Layout := ⟨fun _ => [], [':']⟩

def indented : Layout := ⟨fun depth => '\n' :: List.replicate (2 * depth) ' ', [':', ' ']⟩

def enclosed (l : Layout) (depth : Nat) (first last : Char) (parts : List (List Char)) : List Char :=
  if parts.isEmpty then [first, last]
  else [first] ++ l.line (depth + 1) ++ separated (',' :: l.line (depth + 1)) parts ++ l.line depth ++ [last]

namespace Value

mutual

def write (l : Layout) (depth : Nat) : Value → List Char
  | null => ['n', 'u', 'l', 'l']
  | number n => Nat.toDigits 10 n
  | text s => writeText s
  | list items => enclosed l depth '[' ']' (writeItems l (depth + 1) items)
  | object members => enclosed l depth '\x7b' '\x7d' (writeMembers l (depth + 1) members)

def writeItems (l : Layout) (depth : Nat) : List Value → List (List Char)
  | [] => []
  | v :: vs => write l depth v :: writeItems l depth vs

def writeMembers (l : Layout) (depth : Nat) : List (String × Value) → List (List Char)
  | [] => []
  | (k, v) :: ms => (writeText k ++ l.colon ++ write l depth v) :: writeMembers l depth ms

end

def compactText (v : Value) : String := String.ofList (v.write compact 0)

def indentedText (v : Value) : String := String.ofList (v.write indented 0)

/-- The member of that name. -/
def member? (v : Value) (name : String) : Option Value :=
  match v with
  | object members => members.lookup name
  | _ => none

def number? : Value → Option Nat
  | number n => some n
  | _ => none

def text? : Value → Option String
  | text s => some s
  | _ => none

def items? : Value → Option (List Value)
  | list items => some items
  | _ => none

end Value

end FunctionSlice.Json
