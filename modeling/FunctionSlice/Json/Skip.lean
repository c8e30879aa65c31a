import FunctionSlice.Json.Token

/-! Values that nobody asked for. They are read for their grammar alone: their strings may hold lone
surrogates, their numbers may have any size and they may be nested to any depth. -/

namespace FunctionSlice.Json

open Read

def skipEscape : Read Unit := do
  match ← peek with
  | none => fail .endInString
  | some c =>
    if (simpleEscapes.lookup c).isSome then skip
    else if c = 'u' then
      skip
      let _ ← hexEscape
    else failNext .invalidEscape

/-- Up to the closing quote, in at most `n` characters and escapes. -/
def skipCharacters : Nat → Read Unit
  | 0 => fail .endInString
  | n + 1 => do
    match ← peek with
    | none => fail .endInString
    | some '"' => skip
    | some '\\' => do
      skip
      skipEscape
      skipCharacters n
    | some c =>
      if c.toNat < 0x20 then fail .controlCharacter
      else
        skip
        skipCharacters n

def skipString : Read Unit := do skipCharacters ((← get).length + 1)

def skipExponent : Read Unit := do
  skip
  match ← peek with
  | some '+' | some '-' => skip
  | _ => pure ()
  match ← peek with
  | none => fail .invalidNumber
  | some c =>
    if c.isDigit then
      let _ ← takeDigits
    else failNext .invalidNumber

def skipFraction : Read Unit := do
  skip
  let digits ← takeDigits
  if digits.isEmpty then failNext .invalidNumber
  else if isExponentMark (← peek) then skipExponent

/-- A number after its sign. -/
def skipNumber : Read Unit := do
  match ← peek with
  | none => fail .invalidNumber
  | some c =>
    if !c.isDigit then failNext .invalidNumber
    else if c = '0' then
      skip
      if ((← peek).map Char.isDigit) == some true then failNext .invalidNumber
    else
      let _ ← takeDigits
  match ← peek with
  | some '.' => skipFraction
  | some 'e' | some 'E' => skipExponent
  | _ => pure ()

/-- What encloses a value. -/
inductive Frame where
  | list
  | object

namespace Frame

def isEnd : Frame → Char → Bool
  | list, c => c == ']'
  | object, c => c == '\x7d'

def unfinished : Frame → Reason
  | list => .endInList
  | object => .endInObject

def expectedEnd : Frame → Reason
  | list => .expectedListEnd
  | object => .expectedObjectEnd

end Frame

/-- A key and the colon after it. -/
def skipKey : Read Unit := do
  match ← afterBlanks with
  | some '"' =>
    skip
    skipString
  | some _ => failNext .keyNotString
  | none => failNext .endInObject
  match ← afterBlanks with
  | some ':' => skip
  | some _ => failNext .expectedColon
  | none => failNext .endInObject

/-- What a value starts with: a whole word, or a frame that opens. -/
def skipStart : Read (Option Frame) := do
  match ← afterBlanks with
  | none => failNext .endInValue
  | some '"' =>
    skip
    skipString
    return none
  | some '[' =>
    skip
    return some .list
  | some '\x7b' =>
    skip
    return some .object
  | some 'n' =>
    skip
    literal ['u', 'l', 'l']
    return none
  | some 't' =>
    skip
    literal ['r', 'u', 'e']
    return none
  | some 'f' =>
    skip
    literal ['a', 'l', 's', 'e']
    return none
  | some '-' =>
    skip
    skipNumber
    return none
  | some c =>
    if c.isDigit then
      skipNumber
      return none
    else failNext .expectedValue

/-- Closes what can be closed and goes on to the next value, if one follows. The frame just opened needs
no comma before its first value. -/
def closeFrames : Bool → List Frame → Read (List Frame)
  | _, [] => pure []
  | comma, f :: outer => do
    match ← afterBlanks with
    | none => failNext f.unfinished
    | some c =>
      if comma && c == ',' then
        skip
        return f :: outer
      else if f.isEnd c then
        skip
        closeFrames true outer
      else if comma then failNext f.expectedEnd
      else return f :: outer

/-- Skips the value that starts here, and all that is left of the frames around it; at most `n` values. -/
def skipValues : Nat → List Frame → Read Unit
  | 0, _ => pure ()
  | n + 1, frames => do
    let opened ← skipStart
    let frames ← match opened with
      | some f => closeFrames false (f :: frames)
      | none => closeFrames true frames
    match frames with
    | [] => pure ()
    | .object :: _ =>
      skipKey
      skipValues n frames
    | .list :: _ => skipValues n frames

def skipValue : Read Unit := do skipValues ((← get).length + 1) []

end FunctionSlice.Json
