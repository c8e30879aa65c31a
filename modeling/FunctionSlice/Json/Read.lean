import FunctionSlice.Json.Skip
import FunctionSlice.Json.Value

/-! Readers for values of an expected form. A record is an object, or a list of its fields in order;
members that it does not know are skipped. A failure names what was found and what was expected. -/

namespace FunctionSlice.Json

open Read

/-- Fails because of what stands here, which is read first unless it is a list or an object. -/
def mismatch {α : Type} (expected : String) : Read α := placed do
  match ← peek with
  | some 'n' =>
    skip
    literal ['u', 'l', 'l']
    failUnplaced (.invalidType "null" expected)
  | some 't' =>
    skip
    literal ['r', 'u', 'e']
    failUnplaced (.invalidType "boolean `true`" expected)
  | some 'f' =>
    skip
    literal ['a', 'l', 's', 'e']
    failUnplaced (.invalidType "boolean `false`" expected)
  | some '-' =>
    skip
    let n ← number false
    failUnplaced (.invalidType n.describe expected)
  | some '"' =>
    skip
    let s ← string
    failUnplaced (.invalidType ("string " ++ Text.quoted s) expected)
  | some '[' => failUnplaced (.invalidType "sequence" expected)
  | some '\x7b' => failUnplaced (.invalidType "map" expected)
  | some c =>
    if c.isDigit then
      let n ← number true
      failUnplaced (.invalidType n.describe expected)
    else failNext .expectedValue
  | none => failNext .expectedValue

/-- A whole number below `limit`. -/
def natural (limit : Nat) (expected : String) : Read Value := placed do
  let accept (n : Number) : Read Value :=
    match n with
    | .unsigned k =>
      if k < limit then pure (.number k) else failUnplaced (.invalidValue n.describe expected)
    | .negative _ => failUnplaced (.invalidValue n.describe expected)
    | .float _ => failUnplaced (.invalidType n.describe expected)
  match ← afterBlanks with
  | none => failNext .endInValue
  | some '-' =>
    skip
    accept (← number false)
  | some c => if c.isDigit then accept (← number true) else mismatch expected

def text (expected : String) : Read Value := placed do
  match ← afterBlanks with
  | none => failNext .endInValue
  | some '"' =>
    skip
    return .text (← string)
  | some _ => mismatch expected

def unit : Read Unit := placed do
  match ← afterBlanks with
  | none => failNext .endInValue
  | some 'n' =>
    skip
    literal ['u', 'l', 'l']
  | some _ => mismatch "unit"

/-- Whether a list goes on; `first` before its first item. -/
def hasItem (first : Bool) : Read Bool := do
  match ← afterBlanks with
  | none => failNext .endInList
  | some ']' => return false
  | some c =>
    if first then return true
    else if c = ',' then
      skip
      match ← afterBlanks with
      | some ']' => failNext .trailingComma
      | some _ => return true
      | none => failNext .endInValue
    else failNext .expectedListEnd

def endList : Read Unit := do
  match ← afterBlanks with
  | some ']' => skip
  | some ',' =>
    skip
    if (← afterBlanks) == some ']' then failNext .trailingComma else failNext .trailingCharacters
  | some _ => failNext .trailingCharacters
  | none => failNext .endInList

def endObject : Read Unit := do
  match ← afterBlanks with
  | some '\x7d' => skip
  | some ',' => failNext .trailingComma
  | some _ => failNext .trailingCharacters
  | none => failNext .endInObject

/-- Runs `finish` also after `body` failed. The first failure counts, where the second one stopped. -/
def closing {α : Type} (body : Read α) (finish : Read Unit) : Read α := fun cs =>
  match body cs with
  | .ok a s =>
    match finish s with
    | .ok () s => .ok a s
    | .error f s => .error f s
  | .error f s =>
    match finish s with
    | .ok () s => .error f s
    | .error _ s => .error f s

/-- At most `n` items. -/
def items (item : Read Value) : Nat → Bool → Read (List Value)
  | 0, _ => pure []
  | n + 1, first => do
    if ← hasItem first then
      let v ← item
      return v :: (← items item n false)
    else return []

def list (item : Read Value) : Read Value := placed do
  match ← afterBlanks with
  | none => failNext .endInValue
  | some '[' =>
    skip
    return .list (← closing (do items item ((← get).length + 1) true) endList)
  | some _ => mismatch "a sequence"

/-- Whether an object goes on; if so, the opening quote of the key comes next. -/
def hasMember (first : Bool) : Read Bool := do
  match ← afterBlanks with
  | none => failNext .endInObject
  | some '\x7d' => return false
  | some c =>
    if first then
      if c = '"' then return true else failNext .keyNotString
    else if c = ',' then
      skip
      match ← afterBlanks with
      | some '"' => return true
      | some '\x7d' => failNext .trailingComma
      | some _ => failNext .keyNotString
      | none => failNext .endInValue
    else failNext .expectedObjectEnd

def colon : Read Unit := do
  match ← afterBlanks with
  | some ':' => skip
  | some _ => failNext .expectedColon
  | none => failNext .endInObject

structure Record where
  name : String
  fields : List (String × Read Value)
  /-- Fields may be missing. -/
  partly : Bool

namespace Record

def expected (r : Record) : String := "struct " ++ r.name

/-- The fields of a list in order, from number `index` on. -/
def listed (r : Record) : Nat → List (String × Read Value) → Read (List (String × Value))
  | _, [] => pure []
  | index, (name, field) :: fields => do
    if ← hasItem (index == 0) then
      let v ← field
      return (name, v) :: (← listed r (index + 1) fields)
    else if r.partly then return []
    else
      failUnplaced (.invalidLength index
        (r.expected ++ " with " ++ toString r.fields.length ++ " elements"))

/-- The members of an object, at most `n`, added to those already seen. -/
def members (r : Record) : Nat → Bool → List (String × Value) → Read (List (String × Value))
  | 0, _, seen => pure seen
  | n + 1, first, seen => do
    if ← hasMember first then
      skip
      let key ← string
      match r.fields.lookup key with
      | some field =>
        if (seen.lookup key).isSome then failUnplaced (.duplicateField key)
        else
          colon
          let v ← field
          members r n false ((key, v) :: seen)
      | none =>
        colon
        skipValue
        members r n false seen
    else return seen

/-- What was seen, in the order of the fields. -/
def arrange (r : Record) (seen : List (String × Value)) : Read (List (String × Value)) :=
  match r.fields.find? fun (name, _) => !r.partly && (seen.lookup name).isNone with
  | some (name, _) => failUnplaced (.missingField name)
  | none => pure (r.fields.filterMap fun (name, _) => (seen.lookup name).map (name, ·))

def read (r : Record) : Read Value := placed do
  match ← afterBlanks with
  | none => failNext .endInValue
  | some '[' =>
    skip
    return .object (← closing (listed r 0 r.fields) endList)
  | some '\x7b' =>
    skip
    return .object (← closing (do arrange r (← members r ((← get).length + 1) true [])) endObject)
  | some _ => mismatch r.expected

end Record

/-- One of the known names. -/
def variantName (known : List String) : Read String := placed do
  match ← afterBlanks with
  | none => failNext .endInValue
  | some '"' =>
    skip
    let name ← string
    if known.contains name then return name else failUnplaced (.unknownVariant name known)
  | some _ => mismatch "variant identifier"

/-- A name alone, or as the one key of an object. -/
def variant (known : List String) (alone : String → Read Value) (member : String → Read Value) :
    Read Value := do
  match ← afterBlanks with
  | none => failNext .endInValue
  | some '"' => alone (← variantName known)
  | some '\x7b' =>
    skip
    let name ← variantName known
    colon
    let v ← member name
    match ← afterBlanks with
    | some '\x7d' =>
      skip
      return v
    | some _ => fail .expectedValue
    | none => fail .endInObject
  | some _ => failNext .expectedValue

/-- One of several names, with nothing more to it. -/
def choice (known : List String) : Read Value :=
  variant known (fun name => pure (.text name)) fun name => do
    unit
    return .text name

/-- One of several kinds of value, each under its name. -/
def tagged (kinds : List (String × Read Value)) : Read Value :=
  variant (kinds.map (·.1))
    (fun _ => failUnplaced (.invalidType "unit variant" "newtype variant"))
    fun name => do
      match kinds.lookup name with
      | some r => return .object [(name, ← r)]
      | none => failUnplaced (.unknownVariant name (kinds.map (·.1)))

/-- A value with nothing but blanks behind it. -/
def whole (r : Read Value) : Read Value := do
  let v ← r
  match ← afterBlanks with
  | none => return v
  | some _ => failNext .trailingCharacters

/-- Reads a whole text, or says why it cannot. -/
def parse (r : Read Value) (s : String) : Except String Value :=
  match (whole r).run s.toList with
  | .ok v _ => .ok v
  | .error f _ => .error (f.message s.toList)

end FunctionSlice.Json
