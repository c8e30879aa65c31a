import FunctionSlice.Word

/-! UTF-8 in bytes that need not be valid. A scalar value has one spelling; the lossy reading puts
U+FFFD for each longest run of bytes that starts a spelling and does not finish it. -/

namespace FunctionSlice.Text

/-- How the bytes of a scalar value go on after the first: the least and greatest second byte, and
how many bytes follow the first. -/
def spelling? (b : Nat) : Option (Nat × Nat × Nat) :=
  if b < 0x80 then some (0, 0, 0)
  else if 0xc2 ≤ b ∧ b ≤ 0xdf then some (0x80, 0xbf, 1)
  else if b = 0xe0 then some (0xa0, 0xbf, 2)
  else if b = 0xed then some (0x80, 0x9f, 2)
  else if 0xe1 ≤ b ∧ b ≤ 0xef then some (0x80, 0xbf, 2)
  else if b = 0xf0 then some (0x90, 0xbf, 3)
  else if 0xf1 ≤ b ∧ b ≤ 0xf3 then some (0x80, 0xbf, 3)
  else if b = 0xf4 then some (0x80, 0x8f, 3)
  else none

/-- The bytes of one spelling that are present: the first `1 + k` of the input, and whether they
are all of it. -/
def scalarSize (b : Nat) (r : Bytes) : Nat × Bool :=
  match spelling? b with
  | none => (1, false)
  | some (_, _, 0) => (1, true)
  | some (lo, hi, need) =>
    match r with
    | [] => (1, false)
    | c :: r =>
      if lo ≤ c.toNat ∧ c.toNat ≤ hi then
        let tail := (r.take (need - 1)).takeWhile (fun d => 0x80 ≤ d.toNat && d.toNat ≤ 0xbf)
        (2 + tail.length, tail.length == need - 1)
      else (1, false)

def scalarValue : Bytes → Char
  | [a] => Char.ofNat a.toNat
  | [a, b] => Char.ofNat ((a.toNat % 32) * 64 + b.toNat % 64)
  | [a, b, c] => Char.ofNat ((a.toNat % 16) * 4096 + (b.toNat % 64) * 64 + c.toNat % 64)
  | [a, b, c, d] =>
    Char.ofNat ((a.toNat % 8) * 262144 + (b.toNat % 64) * 4096 + (c.toNat % 64) * 64 + d.toNat % 64)
  | _ => Char.ofNat 0xfffd

/-- Each scalar value, or `none` for a run that spells none. -/
def scalars : Bytes → List (Option Char)
  | [] => []
  | b :: r =>
    let s := scalarSize b.toNat r
    (if s.2 then some (scalarValue ((b :: r).take s.1)) else none) :: scalars (r.drop (s.1 - 1))
  termination_by bs => bs.length
  decreasing_by simp only [List.length_drop, List.length_cons]; omega

def utf8 (s : String) : Bytes := s.toList.flatMap String.utf8EncodeChar

def utf8? (bs : Bytes) : Option String := ((scalars bs).mapM id).map String.ofList

def utf8Lossy (bs : Bytes) : String :=
  String.ofList ((scalars bs).map (·.getD (Char.ofNat 0xfffd)))

end FunctionSlice.Text
