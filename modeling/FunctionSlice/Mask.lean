import FunctionSlice.Expression

/-! A mask is a name in which `*` stands for any run of characters and `?` for any one. A mask with a
wildcard is turned into a regular expression, in which all other characters are escaped; a mask without
one is compared as it is. -/

namespace FunctionSlice

structure Mask where
  text : String
  /-- `*` and `?` are read as wildcards. -/
  wild : Bool
  deriving DecidableEq

inductive MaskDefect where
  | empty
  | tooLarge
  deriving DecidableEq

namespace Mask

def isWildcard (c : Char) : Bool := c == '*' || c == '?'

def hasWildcards (text : String) : Bool := text.toList.any isWildcard

def literal (text : String) : Except MaskDefect Mask :=
  if text.isEmpty then .error .empty else .ok ⟨text, false⟩

/-- What is written for a wildcard. -/
def dots (c : Char) : List Char := if c = '*' then ['.', '*'] else ['.']

/-- Literal characters are gathered, the last one in front, until a wildcard or the end comes. -/
def body (literal : List Char) : List Char → List Char
  | [] => Expression.escape literal.reverse
  | c :: cs =>
    if isWildcard c then Expression.escape literal.reverse ++ dots c ++ body [] cs
    else body (c :: literal) cs

/-- The regular expression that a mask is. -/
def expression (text : String) : List Char :=
  ['^', '(', '?', 's', ':'] ++ body [] text.toList ++ [')', '$']

def isMatch (m : Mask) (name : String) : Bool :=
  if m.wild then Expression.isMatch (expression m.text) name.toList else m.text == name

/-- A name without wildcards is taken literally, any other if its expression is within the limit. -/
def ofText (text : String) (limit : Expression.Limit := Expression.sizeLimit) :
    Except MaskDefect Mask :=
  if text.isEmpty then .error .empty
  else if !hasWildcards text then .ok ⟨text, false⟩
  else if limit (expression text) then .ok ⟨text, true⟩
  else .error .tooLarge

end Mask

def MaskDefect.message : MaskDefect → String
  | empty => "empty mask"
  | tooLarge => "Compiled regex exceeds size limit of " ++ toString Expression.budget ++ " bytes."

end FunctionSlice
