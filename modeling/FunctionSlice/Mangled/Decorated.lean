import FunctionSlice.Word

/-! Decorated names, as Microsoft's C++ compiler writes them: a name, the scopes around it from the inside
out, and a code for its type. Only the name is shown, yet the type must be well formed. -/

namespace FunctionSlice.Mangled.Decorated

/-- A type as it stands around a declarator. -/
structure Spelling where
  before : List Char
  after : List Char
  /-- A pointer to it needs parentheses. -/
  binds : Bool

namespace Spelling

def word (t : List Char) : Spelling := ⟨t, [], false⟩

def text (s : Spelling) : List Char := s.before ++ s.after

def blank (cs : List Char) : List Char :=
  match cs.getLast? with
  | none | some '(' => cs
  | some _ => cs ++ [' ']

def qualify (s : Spelling) (quals : List Char) : Spelling :=
  if quals.isEmpty then s else { s with before := blank s.before ++ quals }

def pointer (s : Spelling) (mark : List Char) : Spelling :=
  if s.binds then ⟨blank s.before ++ ['('] ++ mark, [')'] ++ s.after, false⟩
  else ⟨blank s.before ++ mark, s.after, false⟩

end Spelling

inductive Kind where
  | named (text : List Char)
  | ctor
  | dtor
  /-- A conversion operator, named by the type it returns. -/
  | conversion

structure Name where
  kind : Kind
  /-- Template arguments in angle brackets. -/
  args : List Char
  /-- The innermost scope first. -/
  scopes : List (List Char)

structure Cursor where
  rest : List Char
  names : List (List Char)
  types : List Spelling

abbrev Parse := StateT Cursor Option

namespace Parse

def peek : Parse (Option Char) := do return (← get).rest.head?

def next : Parse Char := do
  let c ← get
  match c.rest with
  | d :: r =>
    set { c with rest := r }
    return d
  | [] => failure

def accept (t : String) : Parse Bool := do
  let c ← get
  if t.toList.isPrefixOf c.rest then
    set { c with rest := c.rest.drop t.length }
    return true
  else return false

def expect (t : String) : Parse Unit := do
  if ← accept t then pure () else failure

def word : Parse (List Char) := do
  let c ← get
  let w := c.rest.takeWhile (· != '@')
  if w.length == c.rest.length then failure
  else
    set { c with rest := c.rest.drop (w.length + 1) }
    return w

/-- Ten names can be referred back to. -/
def memorize (n : List Char) : Parse Unit :=
  modify fun c => if c.names.length < 10 && !c.names.contains n then { c with names := c.names ++ [n] } else c

def memorizeType (t : Spelling) : Parse Unit :=
  modify fun c => if c.types.length < 10 then { c with types := c.types ++ [t] } else c

def hexLetters : List Char → Option Nat
  | cs =>
    cs.foldl (fun acc d => acc.bind fun n =>
      if 'A' ≤ d ∧ d ≤ 'P' then some (n * 16 + (d.toNat - 65)) else none) (some 0)

/-- One decimal digit stands for the number after it; letters from `A` to `P` are the digits of base 16. -/
def number : Parse Int := do
  let sign : Int := if ← accept "?" then -1 else 1
  match ← peek with
  | some d =>
    if d.isDigit then
      let _ ← next
      return sign * ((d.toNat - 47 : Nat) : Int)
    else
      let w ← word
      match hexLetters w with
      | some n => return sign * n
      | none => failure
  | none => failure

end Parse

open Parse

def operatorNames : List (Char × String) :=
  [('2', " new"), ('3', " delete"), ('4', "="), ('5', ">>"), ('6', "<<"), ('7', "!"), ('8', "=="),
   ('9', "!="), ('A', "[]"), ('C', "->"), ('D', "*"), ('E', "++"), ('F', "--"), ('G', "-"),
   ('H', "+"), ('I', "&"), ('J', "->*"), ('K', "/"), ('L', "%"), ('M', "<"), ('N', "<="), ('O', ">"),
   ('P', ">="), ('Q', ","), ('R', "()"), ('S', "~"), ('T', "^"), ('U', "|"), ('V', "&&"),
   ('W', "||"), ('X', "*="), ('Y', "+="), ('Z', "-=")]

def specialNames : List (Char × String) :=
  [('0', "operator/="), ('1', "operator%="), ('2', "operator>>="), ('3', "operator<<="),
   ('4', "operator&="), ('5', "operator|="), ('6', "operator^="), ('7', "`vftable'"),
   ('8', "`vbtable'\x7bfor `"), ('9', "`vcall'"), ('A', "`typeof'"), ('B', "`local static guard'"),
   ('C', "`string'"), ('D', "`vbase destructor'"), ('E', "`vector deleting destructor'"),
   ('F', "`default constructor closure'"), ('G', "`scalar deleting destructor'"),
   ('H', "`vector constructor iterator'"), ('I', "`vector destructor iterator'"),
   ('J', "`vector vbase constructor iterator'"), ('K', "`virtual displacement map'"),
   ('L', "`eh vector constructor iterator'"), ('M', "`eh vector destructor iterator'"),
   ('N', "`eh vector vbase constructor iterator'"), ('O', "`copy constructor closure'"),
   ('S', "`local vftable'"), ('T', "`local vftable constructor closure'"), ('U', "operator new[]"),
   ('V', "operator delete[]"), ('X', "`placement delete closure'"),
   ('Y', "`placement delete[] closure'")]

def primitives : List (Char × String) :=
  [('X', "void"), ('C', "signed char"), ('D', "char"), ('E', "unsigned char"), ('F', "short"),
   ('G', "unsigned short"), ('H', "int"), ('I', "unsigned int"), ('J', "long"), ('K', "unsigned long"),
   ('M', "float"), ('N', "double"), ('O', "long double"), ('Z', "...")]

def extendedPrimitives : List (Char × String) :=
  [('N', "bool"), ('J', "__int64"), ('K', "unsigned __int64"), ('W', "wchar_t"), ('Q', "char8_t"),
   ('S', "char16_t"), ('U', "char32_t")]

def cvLetters : List (Char × String) :=
  [('A', ""), ('B', "const"), ('C', "volatile"), ('D', "const volatile"), ('Q', ""), ('R', "const"),
   ('S', "volatile"), ('T', "const volatile")]

def callings : List (Char × String) :=
  [('A', "__cdecl"), ('B', "__cdecl"), ('C', "__pascal"), ('D', "__pascal"), ('E', "__thiscall"),
   ('F', "__thiscall"), ('G', "__stdcall"), ('H', "__stdcall"), ('I', "__fastcall"),
   ('J', "__fastcall"), ('M', "__clrcall"), ('N', "__clrcall"), ('Q', "__vectorcall")]

def pick {α : Type} (t : List (Char × α)) : Parse α := do
  match t.lookup (← next) with
  | some a => return a
  | none => failure

def joinWith (sep : String) (ts : List (List Char)) : List Char := sep.toList.intercalate ts

def scopePath (n : Name) (own : List Char) : List Char := joinWith "::" (n.scopes.reverse ++ [own])

def Name.path (n : Name) (returns : List Char) : Option (List Char) :=
  match n.kind, n.scopes with
  | .named t, _ => some (scopePath n (t ++ n.args))
  | .ctor, c :: _ => some (scopePath n (c ++ n.args))
  | .dtor, c :: _ => some (scopePath n ('~' :: c ++ n.args))
  | .conversion, _ => some (scopePath n ("operator ".toList ++ returns ++ n.args))
  | _, [] => none

/-- The parts of the grammar that refer to each other. -/
structure Grammar where
  symbol : Parse (List Char)
  type : Parse Spelling
  name : Parse Name

section
variable (g : Grammar)

def pathOf : Parse (List Char) := do
  match (← g.name).path [] with
  | some t => return t
  | none => failure

def typesUntil (stop : Parse Bool) : Nat → Parse (List Spelling)
  | 0 => failure
  | n + 1 => do
    if ← stop then return []
    match ← peek with
    | some d =>
      if d.isDigit then
        let _ ← next
        match (← get).types[d.toNat - 48]? with
        | some t => return t :: (← typesUntil stop n)
        | none => failure
      else
        let before := (← get).rest.length
        let t ← g.type
        if before - (← get).rest.length > 1 then memorizeType t
        return t :: (← typesUntil stop n)
    | none => failure

def templateArgs : Parse (List Char) := do
  let ts ← typesUntil g (accept "@") ((← get).rest.length + 1)
  let inner := joinWith "," (ts.map Spelling.text)
  return ['<'] ++ inner ++ (if inner.getLast? == some '>' then [' '] else []) ++ ['>']

def parameters : Parse (List Char) := do
  let ts ← if ← accept "X" then pure [Spelling.word "void".toList]
    else typesUntil g (do
      if ← accept "@" then return true
      return (← peek) == some 'Z') ((← get).rest.length + 1)
  let variadic := (← get).rest.take 2 == ['Z', 'Z']
  if variadic then let _ ← next
  expect "Z"
  let texts := ts.map Spelling.text ++ (if variadic then ["...".toList] else [])
  return ['('] ++ joinWith "," texts ++ [')']

/-- The return type and the parameter list. A constructor has `@` for a return type. -/
def functionType : Parse Spelling := do
  let calling ← pick callings
  let quals ← if ← accept "?" then pick cvLetters else pure ""
  let returns ← if ← accept "@" then pure (Spelling.word []) else g.type
  let returns := returns.qualify quals.toList
  let params ← parameters g
  return ⟨Spelling.blank returns.before ++ calling.toList, params ++ returns.after, true⟩

def returnType : Parse (List Char) := do
  let _ ← pick callings
  let quals ← if ← accept "?" then pick cvLetters else pure ""
  let returns ← if ← accept "@" then pure (Spelling.word []) else g.type
  let _ ← parameters g
  return (returns.qualify quals.toList).text

def pointerMarks : Parse Unit := do
  let _ ← accept "E"
  let _ ← accept "I"
  let _ ← accept "F"

def pointee (mark : String) : Parse Spelling := do
  if ← accept "6" then
    let f ← functionType g
    return f.pointer mark.toList
  if ← accept "8" then
    let owner ← pathOf g
    pointerMarks
    let _ ← pick cvLetters
    let f ← functionType g
    return f.pointer (owner ++ "::".toList ++ mark.toList)
  pointerMarks
  let letter ← peek
  let quals ← pick cvLetters
  let owner ← if (letter.map fun c => 'Q' ≤ c && c ≤ 'T') == some true
    then do pure ((← pathOf g) ++ "::".toList) else pure []
  let t ← g.type
  return (t.qualify quals.toList).pointer (owner ++ mark.toList)

def arrayType : Parse Spelling := do
  let dims ← number
  let sizes ← (List.range dims.toNat).mapM fun _ => number
  let t ← g.type
  let brackets := sizes.flatMap fun n => ("[" ++ toString n ++ "]").toList
  return ⟨t.before, brackets ++ t.after, true⟩

def dollarType : Parse Spelling := do
  if ← accept "0" then return Spelling.word (toString (← number)).toList
  if ← accept "1" then
    expect "?"
    return Spelling.word ('&' :: (← g.symbol))
  expect "$"
  if ← accept "T" then return Spelling.word "std::nullptr_t".toList
  if ← accept "V" then return Spelling.word []
  if ← accept "Q" then pointee g "&&"
  else if ← accept "C" then
    let quals ← pick cvLetters
    let t ← g.type
    return t.qualify quals.toList
  else if ← accept "A6" then functionType g
  else if ← accept "B" then g.type
  else failure

def type : Parse Spelling := do
  if ← accept "W4" then return Spelling.word ("enum ".toList ++ (← pathOf g))
  if ← accept "?" then
    let n ← number
    return Spelling.word ("`template-parameter-" ++ toString n ++ "'").toList
  let c ← next
  match c with
  | 'T' => return Spelling.word ("union ".toList ++ (← pathOf g))
  | 'U' => return Spelling.word ("struct ".toList ++ (← pathOf g))
  | 'V' => return Spelling.word ("class ".toList ++ (← pathOf g))
  | 'A' => pointee g "&"
  | 'B' => return (← pointee g "&").qualify "volatile".toList
  | 'P' => pointee g "*"
  | 'Q' => return (← pointee g "*").qualify "const".toList
  | 'R' => return (← pointee g "*").qualify "volatile".toList
  | 'S' => return (← pointee g "*").qualify "const volatile".toList
  | 'Y' => arrayType g
  | '$' => dollarType g
  | '_' => return Spelling.word (← pick extendedPrimitives).toList
  | _ =>
    match primitives.lookup c with
    | some t => return Spelling.word t.toList
    | none => failure

def runtimeName : Parse (List Char) := do
  match ← next with
  | '0' => do
    let quals ← if ← accept "?" then pick cvLetters else pure ""
    let t ← g.type
    return (t.qualify quals.toList).text ++ " `RTTI Type Descriptor'".toList
  | '1' => do
    let a ← number
    let b ← number
    let c ← number
    let d ← number
    let place := joinWith "," ([a, b, c, d].map fun n => (toString n).toList)
    return "`RTTI Base Class Descriptor at (".toList ++ place ++ ")'".toList
  | '2' => return "`RTTI Base Class Array'".toList
  | '3' => return "`RTTI Class Hierarchy Descriptor'".toList
  | '4' => return "`RTTI Complete Object Locator'".toList
  | _ => failure

def operator : Parse Kind := do
  let c ← next
  match c with
  | '0' => return .ctor
  | '1' => return .dtor
  | 'B' => return .conversion
  | '_' =>
    if ← accept "R" then return .named (← runtimeName g)
    if ← accept "_E" then
      return .named ("`dynamic initializer for '".toList ++ (← word) ++ "''".toList)
    if ← accept "_F" then
      return .named ("`dynamic atexit destructor for '".toList ++ (← word) ++ "''".toList)
    return .named (← pick specialNames).toList
  | _ =>
    match operatorNames.lookup c with
    | some t => return .named ("operator".toList ++ t.toList)
    | none => failure

def backReference (d : Char) : Parse (List Char) := do
  let _ ← next
  match (← get).names[d.toNat - 48]? with
  | some n => return n
  | none => failure

/-- A name without its scopes, and its template arguments. -/
def unqualified : Nat → Parse (Kind × List Char)
  | 0 => failure
  | n + 1 => do
    match ← peek with
    | some '?' =>
      let _ ← next
      if ← accept "$" then
        let outer ← get
        set { outer with names := [], types := [] }
        let (kind, _) ← unqualified n
        let args ← templateArgs g
        modify fun c => { c with names := outer.names, types := outer.types }
        match kind with
        | .named t =>
          memorize (t ++ args)
          return (.named (t ++ args), [])
        | k => return (k, args)
      else return (← operator g, [])
    | some d =>
      if d.isDigit then return (.named (← backReference d), [])
      else
        let w ← word
        memorize w
        return (.named w, [])
    | none => failure

def scopes : Nat → Parse (List (List Char))
  | 0 => failure
  | n + 1 => do
    if ← accept "@" then return []
    let one ← do
      if (← get).rest.take 2 == ['?', '$'] then
        match ← unqualified g 2 with
        | (.named t, _) => pure t
        | _ => failure
      else if ← accept "?A" then
        let _ ← word
        pure "`anonymous namespace'".toList
      else if ← accept "?" then
        if ← accept "?" then pure ("`".toList ++ (← g.symbol) ++ "'".toList)
        else pure ("`" ++ toString (← number) ++ "'").toList
      else
        match ← peek with
        | some d =>
          if d.isDigit then backReference d
          else
            let w ← word
            memorize w
            pure w
        | none => failure
    return one :: (← scopes n)

def name : Parse Name := do
  let (kind, args) ← unqualified g 3
  return ⟨kind, args, ← scopes g ((← get).rest.length + 1)⟩

def memberFunction (c : Char) : Parse (List Char) := do
  let k := (c.toNat - 65) % 8
  if c < 'A' || c > 'X' then failure
  if k ≥ 6 then let _ ← number
  if k != 2 && k != 3 then
    pointerMarks
    let _ ← accept "G"
    let _ ← accept "H"
    let _ ← pick cvLetters
  returnType g

/-- Reads the code of the type and returns the text of the type that a function returns. -/
def typeCode : Parse (List Char) := do
  if (← peek).isNone then return []
  let c ← next
  match c with
  | '0' | '1' | '2' | '3' | '4' => do
    let _ ← g.type
    let _ ← accept "E"
    if let some d ← peek then
      if ['A', 'B', 'C', 'D'].contains d then let _ ← next
    return []
  | '5' => do
    let _ ← number
    return []
  | '6' | '7' => do
    let _ ← pick cvLetters
    if !(← accept "@") then
      let _ ← pathOf g
    return []
  | '8' | '9' => return []
  | '$' => do
    expect "B"
    let _ ← number
    expect "A"
    let _ ← pick callings
    return []
  | 'Y' | 'Z' => returnType g
  | c => memberFunction g c

/-- A symbol after its question mark. -/
def symbol : Parse (List Char) := do
  let n ← g.name
  let returns ← typeCode g
  match n.path returns with
  | some t => return t
  | none => failure

def step : Grammar := ⟨symbol g, type g, name g⟩

end

def grammar : Nat → Grammar
  | 0 => ⟨failure, failure, failure⟩
  | n + 1 => step (grammar n)

def demangle? (cs : List Char) : Option (List Char) :=
  match cs with
  | '?' :: r => (((grammar (cs.length + 1)).symbol.run ⟨r, [], []⟩).map (·.1))
  | _ => none

end FunctionSlice.Mangled.Decorated
