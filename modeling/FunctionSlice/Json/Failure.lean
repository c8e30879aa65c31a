import FunctionSlice.Text.Quoted

/-! Why a text is not the JSON that was expected, and where. A place is counted in lines and in bytes of
UTF-8 since the last line feed. -/

namespace FunctionSlice.Json

inductive Reason where
  | endInValue
  | endInString
  | endInList
  | endInObject
  | expectedValue
  | expectedIdent
  | invalidNumber
  | outOfRange
  | controlCharacter
  | invalidEscape
  | loneSurrogate
  | unfinishedSurrogate
  | keyNotString
  | expectedColon
  | expectedObjectEnd
  | expectedListEnd
  | trailingComma
  | trailingCharacters
  | invalidType (found expected : String)
  | invalidValue (found expected : String)
  | missingField (name : String)
  | duplicateField (name : String)
  | invalidLength (length : Nat) (expected : String)
  | unknownVariant (name : String) (known : List String)

def alternatives : List String → String
  | [a] => "`" ++ a ++ "`"
  | [a, b] => "`" ++ a ++ "` or `" ++ b ++ "`"
  | names => "one of " ++ String.intercalate ", " (names.map fun n => "`" ++ n ++ "`")

def Reason.message : Reason → String
  | endInValue => "EOF while parsing a value"
  | endInString => "EOF while parsing a string"
  | endInList => "EOF while parsing a list"
  | endInObject => "EOF while parsing an object"
  | expectedValue => "expected value"
  | expectedIdent => "expected ident"
  | invalidNumber => "invalid number"
  | outOfRange => "number out of range"
  | controlCharacter => "control character (\\u0000-\\u001F) found while parsing a string"
  | invalidEscape => "invalid escape"
  | loneSurrogate => "lone leading surrogate in hex escape"
  | unfinishedSurrogate => "unexpected end of hex escape"
  | keyNotString => "key must be a string"
  | expectedColon => "expected `:`"
  | expectedObjectEnd => "expected `,` or `\x7d`"
  | expectedListEnd => "expected `,` or `]`"
  | trailingComma => "trailing comma"
  | trailingCharacters => "trailing characters"
  | invalidType found expected => "invalid type: " ++ found ++ ", expected " ++ expected
  | invalidValue found expected => "invalid value: " ++ found ++ ", expected " ++ expected
  | missingField name => "missing field `" ++ name ++ "`"
  | duplicateField name => "duplicate field `" ++ name ++ "`"
  | invalidLength n expected => "invalid length " ++ toString n ++ ", expected " ++ expected
  | unknownVariant name known =>
    "unknown variant `" ++ name ++ "`, expected " ++ alternatives known

/-- A place in a text: what is left of it there, and how many bytes further it is. -/
structure Place where
  rest : List Char
  ahead : Nat

structure Failure where
  reason : Reason
  /-- Absent while the reader around has not said where it stands. -/
  place : Option Place

def byteLength (cs : List Char) : Nat := cs.foldl (fun n c => n + c.utf8Size) 0

/-- The line and the column after the first `n` bytes. -/
def lineColumn : Nat → List Char → Nat × Nat → Nat × Nat
  | _, [], place => place
  | n, c :: r, (line, column) =>
    if n < c.utf8Size then (line, column + n)
    else lineColumn (n - c.utf8Size) r
      (if c = '\n' then (line + 1, 0) else (line, column + c.utf8Size))

/-- The message about a failure in `text`. -/
def Failure.message (text : List Char) (f : Failure) : String :=
  match f.place with
  | none => f.reason.message
  | some p =>
    let total := byteLength text
    let position := min total (total - byteLength p.rest + p.ahead)
    let (line, column) := lineColumn position text (1, 0)
    f.reason.message ++ " at line " ++ toString line ++ " column " ++ toString column

end FunctionSlice.Json
