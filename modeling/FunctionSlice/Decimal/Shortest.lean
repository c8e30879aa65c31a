/-! The shortest decimal that reads back as a given binary fraction. A positive float is `m * 2 ^ q`; the
decimals that round to it fill an interval around it, ends included iff `m` is even. Grids of one to
seventeen digits are tried in turn, and of the two neighbours on the first grid that has one in the
interval the nearer is taken. -/

namespace FunctionSlice.Decimal

/-- The value `m * 2 ^ q`, and the steps to the neighbours above and below as quarters of `2 ^ q`. -/
structure Binary where
  m : Nat
  q : Int
  /-- The neighbour below is half as far as the one above. -/
  isPowerOfTwo : Bool

/-- The value of a positive finite float by its bits. -/
def Binary.ofBits (bits : Nat) : Binary :=
  let fraction : Nat := bits % (1 <<< 52)
  let exponent : Nat := bits >>> 52 % (1 <<< 11)
  if exponent = 0 then ⟨fraction, -1074, false⟩
  else ⟨fraction + 1 <<< 52, (exponent : Int) - 1075, fraction == 0 && exponent > 1⟩

/-- A decimal `digits * 10 ^ exponent`. -/
structure Scaled where
  digits : Nat
  exponent : Int

/-- Numerator and denominator of `n * 2 ^ a * 10 ^ b`. -/
def ratio (n : Nat) (a b : Int) : Nat × Nat :=
  (n * Nat.pow 2 a.toNat * Nat.pow 10 b.toNat, Nat.pow 2 (-a).toNat * Nat.pow 10 (-b).toNat)

/-- Whether `c * 10 ^ e` rounds to the value. -/
def Binary.covers (x : Binary) (c : Nat) (e : Int) : Bool :=
  -- In quarters of `2 ^ q`: the value is `4 m`, the ends are `4 m - low` and `4 m + 2`.
  let (num, den) := ratio (4 * c) (-x.q) e
  let low := if x.isPowerOfTwo then 1 else 2
  let above := (4 * x.m - low) * den
  let below := (4 * x.m + 2) * den
  if x.m % 2 = 0 then above ≤ num && num ≤ below else above < num && num < below

/-- How far `c * 10 ^ e` is from the value, in a unit that depends on `e` only. -/
def Binary.distance (x : Binary) (c : Nat) (e : Int) : Nat :=
  let (num, den) := ratio c (-x.q) e
  if num ≤ x.m * den then x.m * den - num else num - x.m * den

/-- The greatest `e` with `10 ^ e` no greater than the value. -/
def Binary.magnitude (x : Binary) : Int :=
  let digits := (Nat.toDigits 10 (if x.q ≥ 0 then x.m * Nat.pow 2 x.q.toNat
    else x.m * Nat.pow 10 400 / Nat.pow 2 (-x.q).toNat)).length
  (digits : Int) - 1 - (if x.q ≥ 0 then 0 else 400)

def Binary.onGrid? (x : Binary) (e : Int) : Option Scaled :=
  let (num, den) := ratio x.m x.q (-e)
  let c := num / den
  let near (c : Nat) : Bool := x.covers c e
  if near c && near (c + 1) then
    let low := x.distance c e
    let high := x.distance (c + 1) e
    some ⟨if low < high || (low = high && c % 2 = 0) then c else c + 1, e⟩
  else if near c then some ⟨c, e⟩
  else if near (c + 1) then some ⟨c + 1, e⟩
  else none

/-- Without zeros at the end. -/
def Scaled.strip : Nat → Scaled → Scaled
  | 0, d => d
  | n + 1, d => if d.digits ≠ 0 ∧ d.digits % 10 = 0 then strip n ⟨d.digits / 10, d.exponent + 1⟩ else d

def Binary.shortest (x : Binary) : Scaled :=
  let top := x.magnitude
  match (List.range 18).findSome? (fun (n : Nat) => x.onGrid? (top - n)) with
  | some d => d.strip 20
  | none => ⟨x.m, x.q⟩

end FunctionSlice.Decimal
