import FunctionSlice.Text.Blank
import FunctionSlice.Text.Hex

/-! A query names a function or gives its address. Written text is an address when it reads `0x`, an
optional `+` and hexadecimal digits of a 64-bit value; all other text is a name. -/

namespace FunctionSlice

inductive Query where
  | byName (name : String)
  | byAddress (rva : Word)
  deriving DecidableEq

namespace Query

/-- The digits after `0x` or `0X` and one optional plus sign. -/
def addressDigits? : List Char → Option (List Char)
  | '0' :: 'x' :: '+' :: r => some r
  | '0' :: 'X' :: '+' :: r => some r
  | '0' :: 'x' :: r => some r
  | '0' :: 'X' :: r => some r
  | _ => none

def address? (cs : List Char) : Option Word := do
  let digits ← addressDigits? cs
  let n ← Text.hexNumber? 0x1_0000_0000_0000_0000 digits
  pure (UInt64.ofNat n)

def parse (text : String) : Query :=
  let t := Text.trim text
  match address? t.toList with
  | some rva => byAddress rva
  | none => byName t

def display : Query → String
  | byName n => n
  | byAddress a => Text.hex a

end Query

end FunctionSlice
