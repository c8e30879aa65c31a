import FunctionSlice.Decimal.Shortest

/-! Floats as text: the fewest digits that read back, positional from `1e-5` up to `1e16`, and always with
a fraction there; otherwise with an exponent that shows its sign. -/

namespace FunctionSlice.Decimal

def positional (digits : List Char) (exponent : Int) : List Char :=
  let point := (digits.length : Int) + exponent
  if exponent ≥ 0 then digits ++ List.replicate exponent.toNat '0' ++ ['.', '0']
  else if point > 0 then digits.take point.toNat ++ ['.'] ++ digits.drop point.toNat
  else ['0', '.'] ++ List.replicate (-point).toNat '0' ++ digits

def scientific (digits : List Char) (power : Int) : List Char :=
  let mantissa := match digits with
    | [d] => [d]
    | d :: r => d :: '.' :: r
    | [] => []
  mantissa ++ ['e', if power < 0 then '-' else '+'] ++ Nat.toDigits 10 power.natAbs

def positiveText (bits : Nat) : List Char :=
  let d := (Binary.ofBits bits).shortest
  let digits := Nat.toDigits 10 d.digits
  let power := d.exponent + digits.length - 1
  if -5 ≤ power ∧ power < 16 then positional digits d.exponent else scientific digits power

/-- A finite float. -/
def floatText (f : Float) : String :=
  let bits := f.toBits.toNat
  let sign := if bits ≥ 1 <<< 63 then ['-'] else []
  let magnitude := bits % (1 <<< 63)
  String.ofList (sign ++ if magnitude = 0 then ['0', '.', '0'] else positiveText magnitude)

end FunctionSlice.Decimal
