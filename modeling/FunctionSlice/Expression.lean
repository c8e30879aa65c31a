/-! Regular expressions, as far as names are searched by them: a text that is tied to both ends of the
name and has characters, dots and dots under a star between. A dot stands for a line feed too. The name
is matched from its end: for every suffix of it it is known whether the rest of the expression matches
it, so the work is the product of the two lengths. -/

namespace FunctionSlice

inductive Piece where
  /-- `.*` -/
  | run
  /-- `.` -/
  | any
  | same (c : Char)
  deriving DecidableEq

namespace Expression

/-- Such a character stands for itself only behind a backslash. -/
def isMeta (c : Char) : Bool :=
  ['\\', '.', '+', '*', '?', '(', ')', '|', '[', ']', '{', '}', '^', '$', '#', '&', '-', '~'].contains c

def escape (cs : List Char) : List Char := cs.flatMap fun c => if isMeta c then ['\\', c] else [c]

/-- The pieces up to the end of the group, which is the end of the text. -/
def pieces? : List Char → Option (List Piece)
  | [')', '$'] => some []
  | '\\' :: c :: r => if isMeta c then (pieces? r).map (.same c :: ·) else none
  | '.' :: '*' :: r => (pieces? r).map (.run :: ·)
  | '.' :: r => (pieces? r).map (.any :: ·)
  | c :: r => if isMeta c then none else (pieces? r).map (.same c :: ·)
  | [] => none

/-- An expression is one group, in which the dot is any character, between the two anchors. -/
def read? : List Char → Option (List Piece)
  | '^' :: '(' :: '?' :: 's' :: ':' :: r => pieces? r
  | _ => none

/-- Each position gets whether it or a later one holds. -/
def anyFrom : List Bool → List Bool
  | [] => []
  | b :: r =>
    let t := anyFrom r
    (b || t.headD false) :: t

/-- For each suffix of the name, longest first, whether the pieces match it. -/
def column : List Piece → List Char → List Bool
  | [], s => s.map (fun _ => false) ++ [true]
  | .run :: ps, s => anyFrom (column ps s)
  | .any :: ps, s => (column ps s).drop 1 ++ [false]
  | .same c :: ps, s => List.zipWith (fun d ok => d == c && ok) s ((column ps s).drop 1) ++ [false]

/-- Up to the first run pieces and name are compared side by side. -/
def accepts : List Piece → List Char → Bool
  | [], s => s.isEmpty
  | .run :: ps, s => (column (.run :: ps) s).headD false
  | .any :: ps, _ :: s => accepts ps s
  | .same c :: ps, d :: s => if c = d then accepts ps s else false
  | _ :: _, [] => false

def isMatch (e name : List Char) : Bool := (read? e).any (accepts · name)

/-- The expressions that are not too large to be worked with. -/
abbrev Limit := List Char → Bool

/-- What an expression may cost, and what each of its pieces does. -/
def budget : Nat := 10485760

def charge : Piece → Nat
  | .same _ => 32
  | _ => 640

def cost : List Piece → Nat
  | [] => 0
  | p :: ps => charge p + cost ps

def sizeLimit : Limit := fun e => (read? e).any (cost · ≤ budget)

end Expression

end FunctionSlice
