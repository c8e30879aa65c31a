/-! The older scheme for paths: `_ZN`, each element with its length before it, `E`. The last element may
be a hash of the item, which is not shown. Punctuation is spelt between dollar signs. -/

namespace FunctionSlice.Mangled.LegacyPath

def body? : List Char → Option (List Char)
  | '_' :: 'Z' :: 'N' :: r => some r
  | 'Z' :: 'N' :: r => some r
  | '_' :: '_' :: 'Z' :: 'N' :: r => some r
  | _ => none

def isAscii (c : Char) : Bool := c.toNat < 0x80

def number (ds : List Char) : Nat := ds.foldl (fun n d => n * 10 + (d.toNat - 48)) 0

/-- The elements up to the closing `E`, and what follows it. -/
def elements? : List Char → Option (List (List Char) × List Char)
  | [] => none
  | 'E' :: r => some ([], r)
  | c :: r =>
    if c.isDigit then
      let n := number (c :: r.takeWhile Char.isDigit)
      let after := r.dropWhile Char.isDigit
      if n ≤ after.length then
        (elements? (after.drop n)).map (fun (es, rest) => (after.take n :: es, rest))
      else none
    else none
  termination_by cs => cs.length
  decreasing_by
    have := (List.dropWhile_sublist (l := r) Char.isDigit).length_le
    simp only [List.length_drop, List.length_cons]
    omega

def isHexDigit (c : Char) : Bool := c.isDigit || ('a' ≤ c && c ≤ 'f') || ('A' ≤ c && c ≤ 'F')

def isHash : List Char → Bool
  | 'h' :: r => r.all isHexDigit
  | _ => false

def isControl (n : Nat) : Bool := n < 0x20 || (0x7f ≤ n && n ≤ 0x9f)

/-- `u` and the lower-case hexadecimal code of a character that is not a control character. -/
def codePoint? (ds : List Char) : Option Char :=
  if ds.isEmpty || ds.any (fun c => !(c.isDigit || ('a' ≤ c && c ≤ 'f'))) then none
  else
    let value (c : Char) : Nat := if c.isDigit then c.toNat - 48 else c.toNat - 87
    let n := ds.foldl (fun n c => n * 16 + value c) 0
    if n.isValidChar && !isControl n then some (Char.ofNat n) else none

/-- The character spelt between two dollar signs. -/
def escaped? : List Char → Option Char
  | ['S', 'P'] => some '@'
  | ['B', 'P'] => some '*'
  | ['R', 'F'] => some '&'
  | ['L', 'T'] => some '<'
  | ['G', 'T'] => some '>'
  | ['L', 'P'] => some '('
  | ['R', 'P'] => some ')'
  | ['C'] => some ','
  | 'u' :: ds => codePoint? ds
  | _ => none

/-- Dollar signs that spell nothing end the unescaping; the rest stands as it is. -/
def unescape : List Char → List Char
  | [] => []
  | '.' :: '.' :: r => ':' :: ':' :: unescape r
  | '$' :: r =>
    match r.dropWhile (· != '$'), escaped? (r.takeWhile (· != '$')) with
    | _ :: _, some c => c :: unescape ((r.dropWhile (· != '$')).drop 1)
    | _, _ => '$' :: r
  | c :: r => c :: unescape r
  termination_by cs => cs.length
  decreasing_by
    all_goals
      have h := (List.dropWhile_sublist (l := r) (· != '$')).length_le
      simp only [List.length_drop, List.length_cons]
      omega

def showElement : List Char → List Char
  | '_' :: '$' :: r => unescape ('$' :: r)
  | cs => unescape cs

/-- All elements, less a hash at the end. -/
def withoutHash (es : List (List Char)) : List (List Char) :=
  if (es.getLast?).any isHash then es.dropLast else es

/-- The shown path and the text after the closing `E`. -/
def demangle? (cs : List Char) : Option (List Char × List Char) := do
  let body ← body? cs
  if !body.all isAscii then none
  let (es, rest) ← elements? body
  pure ([':', ':'].intercalate ((withoutHash es).map showElement), rest)

end FunctionSlice.Mangled.LegacyPath
