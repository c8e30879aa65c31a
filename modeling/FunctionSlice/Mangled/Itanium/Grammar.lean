import FunctionSlice.Mangled.Itanium.Node

/-! The grammar of mangled names. Alternatives are tried in order; what a failed one entered into the
table of substitutions stays there. Nesting is limited, and a symbol beyond the limit is refused. -/

namespace FunctionSlice.Mangled.Itanium

inductive Stop where
  | mismatch
  | tooDeep

structure Cursor where
  rest : List Char
  table : Array Node
  depth : Nat
  /-- The type of a conversion operator is being read. -/
  converting : Bool

abbrev Parse := EStateM Stop Cursor

namespace Parse

variable {α β : Type}

def fail : Parse α := throw .mismatch

def maxDepth : Nat := 96

def nested (p : Parse α) : Parse α := fun c =>
  if c.depth + 1 ≥ maxDepth then .error .tooDeep c
  else
    match p { c with depth := c.depth + 1 } with
    | .ok a s => .ok a { s with depth := c.depth }
    | .error e s => .error e { s with depth := c.depth }

def option (p : Parse α) : Parse (Option α) := fun c =>
  match p c with
  | .ok a s => .ok (some a) s
  | .error .mismatch s =>
    .ok none { s with rest := c.rest, depth := c.depth, converting := c.converting }
  | .error .tooDeep s => .error .tooDeep s

def orTry (p q : Parse α) : Parse α := do
  match ← option p with
  | some a => pure a
  | none => q

def firstOf (ps : List (Parse α)) : Parse α := ps.foldr orTry fail

def peek : Parse (Option Char) := do return (← get).rest.head?

def literal (t : String) : Parse Unit := do
  let c ← get
  if t.toList.isPrefixOf c.rest then set { c with rest := c.rest.drop t.length } else fail

/-- Repeats a reader that consumes something, at most `fuel` times. -/
def repeated (p : Parse α) : Nat → Parse (List α)
  | 0 => pure []
  | n + 1 => do
    if (← get).rest.isEmpty then return []
    match ← option p with
    | some a => return a :: (← repeated p n)
    | none => return []

def many (p : Parse α) : Parse (List α) := do repeated p ((← get).rest.length + 1)

def many1 (p : Parse α) : Parse (List α) := do return (← p) :: (← many p)

def digitValue? (base : Nat) (c : Char) : Option Nat :=
  if c.isDigit then some (c.toNat - 48)
  else if base == 36 && c.isUpper then some (c.toNat - 55)
  else none

/-- Digits without a leading zero, the number zero apart. -/
def natural (base : Nat) : Parse Nat := do
  let c ← get
  let ds := c.rest.takeWhile (digitValue? base · |>.isSome)
  let n := ds.foldl (fun n d => n * base + (digitValue? base d).getD 0) 0
  if ds.isEmpty || (ds.length > 1 && ds.head? == some '0') || n ≥ 0x8000_0000_0000_0000 then fail
  else
    set { c with rest := c.rest.drop ds.length }
    return n

def integer : Parse Int := do
  match ← option (literal "n") with
  | some () => return -((← natural 10) : Int)
  | none => return (← natural 10 : Int)

/-- Enters a candidate for substitution. -/
def remember (n : Node) : Parse Node := do
  modify fun c => { c with table := c.table.push n }
  return n

end Parse

open Parse

def isIdentChar (c : Char) : Bool :=
  c == '$' || c == '_' || c == '.' || (c.toNat < 0x80 && c.isAlphanum)

def isAnonymous (cs : List Char) : Bool :=
  "_GLOBAL_".toList.isPrefixOf cs && ['.', '_', '$'].contains (cs.getD 8 ' ') && cs.getD 9 ' ' == 'N'

def identifier (cs : List Char) : Node :=
  .ident (if isAnonymous cs then "(anonymous namespace)".toList else cs)

def sourceName : Parse Node := nested do
  let n ← natural 10
  let c ← get
  let text := c.rest.take n
  if n == 0 || text.length < n || !text.all isIdentChar then fail
  else
    set { c with rest := c.rest.drop n }
    return identifier text

def operators : List (String × String) :=
  [("nw", "new"), ("na", "new[]"), ("dl", "delete"), ("da", "delete[]"), ("ps", "+"), ("ng", "-"),
   ("ad", "&"), ("de", "*"), ("co", "~"), ("pl", "+"), ("mi", "-"), ("ml", "*"), ("dv", "/"),
   ("rm", "%"), ("an", "&"), ("or", "|"), ("eo", "^"), ("aS", "="), ("pL", "+="), ("mI", "-="),
   ("mL", "*="), ("dV", "/="), ("rM", "%="), ("aN", "&="), ("oR", "|="), ("eO", "^="), ("ls", "<<"),
   ("rs", ">>"), ("lS", "<<="), ("rS", ">>="), ("eq", "=="), ("ne", "!="), ("lt", "<"), ("gt", ">"),
   ("le", "<="), ("ge", ">="), ("nt", "!"), ("aa", "&&"), ("oo", "||"), ("pp", "++"), ("mm", "--"),
   ("cm", ","), ("pm", "->*"), ("pt", "->"), ("cl", "()"), ("ix", "[]"), ("qu", "?:"), ("ss", "<=>")]

def builtins : List (String × String) :=
  [("v", "void"), ("w", "wchar_t"), ("b", "bool"), ("c", "char"), ("a", "signed char"),
   ("h", "unsigned char"), ("s", "short"), ("t", "unsigned short"), ("i", "int"),
   ("j", "unsigned int"), ("l", "long"), ("m", "unsigned long"), ("x", "long long"),
   ("y", "unsigned long long"), ("n", "__int128"), ("o", "unsigned __int128"), ("f", "float"),
   ("d", "double"), ("e", "long double"), ("g", "__float128"), ("z", "..."), ("Dd", "decimal64"),
   ("De", "decimal128"), ("Df", "decimal32"), ("Dh", "half"), ("Di", "char32_t"),
   ("Ds", "char16_t"), ("Du", "char8_t"), ("Da", "auto"), ("Dc", "decltype(auto)"),
   ("Dn", "std::nullptr_t")]

def wellKnowns : List (String × Node) :=
  [("St", .wellKnown "std" "std"), ("Sa", .wellKnown "std::allocator" "allocator"),
   ("Sb", .wellKnown "std::basic_string" "basic_string"), ("Ss", .wellKnown "std::string" "string"),
   ("Si", .wellKnown "std::istream" "istream"), ("So", .wellKnown "std::ostream" "ostream"),
   ("Sd", .wellKnown "std::iostream" "iostream")]

def keyed {α : Type} (t : List (String × α)) : Parse α :=
  firstOf (t.map fun (k, v) => do
    literal k
    return v)

def substitution : Parse Node := nested <| orTry (keyed wellKnowns) do
  literal "S"
  let i ← option (natural 36)
  let i := match i with
    | some n => n + 1
    | none => 0
  match (← get).table[i]? with
  | some n =>
    literal "_"
    return n
  | none => fail

def templateParam : Parse Node := nested do
  literal "T"
  let i ← option (natural 10)
  literal "_"
  return .templateParam (match i with
    | some n => n + 1
    | none => 0)

def flag (t : String) : Parse Bool := do return (← option (literal t)).isSome

def cvQualifiers : Parse Cv := do
  let r ← flag "r"
  let v ← flag "V"
  let k ← flag "K"
  return ⟨r, v, k⟩

def refQualifier : Parse (Option RefKind) := do
  if ← flag "R" then return some .lvalue
  if ← flag "O" then return some .rvalue
  return none

def discriminator : Parse Unit := do
  literal "_"
  if ← flag "_" then
    let n ← natural 10
    if n < 10 then fail else literal "_"
  else
    let c ← get
    match c.rest with
    | d :: r => if d.isDigit then set { c with rest := r } else fail
    | [] => fail

def ordinal : Parse Nat := do
  let n ← option (natural 10)
  literal "_"
  return match n with
    | some n => n + 2
    | none => 1

def callOffset : Parse Node := nested <| firstOf [
  do
    literal "h"
    let n ← integer
    literal "_"
    return .ident ("\x7boffset(" ++ toString n ++ ")\x7d").toList,
  do
    literal "v"
    let n ← integer
    literal "_"
    let v ← integer
    literal "_"
    return .ident ("\x7bvirtual offset(" ++ toString n ++ ", " ++ toString v ++ ")\x7d").toList]

/-- The parts of the grammar that refer to each other. -/
structure Grammar where
  encoding : Parse Node
  name : Parse Node
  type : Parse Node
  templateArgs : Parse (List Node)
  mangledName : Parse Node

section
variable (g : Grammar)

def abiTags (n : Node) : Parse Node := do
  let tags ← many do
    literal "B"
    sourceName
  return if tags.isEmpty then n else .tagged n tags

def operatorName : Parse Node := nested <| firstOf [
  do
    let s ← keyed operators
    return .oper s (["new", "new[]", "delete", "delete[]"].contains s),
  do
    literal "cv"
    let outer := (← get).converting
    modify fun c => { c with converting := true }
    let ty ← g.type
    modify fun c => { c with converting := outer }
    return .conversion ty,
  do
    literal "li"
    return .literalOper (← sourceName),
  do
    literal "v"
    let c ← get
    match c.rest with
    | d :: r =>
      if d.isDigit then
        set { c with rest := r }
        return .vendorOper d (← sourceName)
      else fail
    | [] => fail]

def ctorDtorName : Parse Node := nested <| firstOf [
  do
    let _ ← keyed [("C1", ()), ("C2", ()), ("C3", ()), ("C4", ()), ("C5", ())]
    return .ctor,
  do
    let _ ← keyed [("D0", ()), ("D1", ()), ("D2", ()), ("D4", ()), ("D5", ())]
    return .dtor]

def closureName : Parse Node := nested do
  literal "Ul"
  let params ← orTry (do literal "v"; return []) (many1 g.type)
  literal "E"
  return .closure params (← ordinal)

def unnamedName : Parse Node := nested do
  literal "Ut"
  return .unnamed (← ordinal)

def unqualifiedName : Parse Node := nested do
  let n ← firstOf [
    operatorName g,
    ctorDtorName,
    (do
      literal "L"
      let n ← sourceName
      let _ ← option discriminator
      return n),
    sourceName,
    closureName g,
    unnamedName]
  abiTags n

def unscopedName : Parse Node := nested do
  if ← flag "St" then return .inStd (← unqualifiedName g)
  unqualifiedName g

/-- Enters a component into the table unless it is the last of its nested name. -/
def component (n : Node) : Parse Node := do
  if (← peek) == some 'E' then return n else remember n

def inScope (outer : Option Node) (n : Node) : Node :=
  match outer with
  | some o => .within o n
  | none => n

/-- The components of a nested name, at most `fuel` of them. -/
def components : Nat → Option Node → Parse Node
  | 0, _ => fail
  | n + 1, current => do
    match ← peek, current with
    | some 'E', some done => return done
    | some 'S', _ => components n (some (← substitution))
    | some 'T', _ => components n (some (← component (← templateParam)))
    | some 'I', some outer =>
      let args ← g.templateArgs
      components n (some (← component (.template outer args)))
    | some c, _ =>
      let next ← unqualifiedName g
      if c.isDigit && current.isSome && (← flag "M") then
        components n (some (← component (inScope current next)))
      else components n (some (← component (inScope current next)))
    | none, _ => fail

/-- Only a name in a scope or a template may end a nested name. -/
def mayEnd : Node → Bool
  | .within .. | .template .. => true
  | _ => false

def nestedName : Parse Node := nested do
  literal "N"
  let cv ← cvQualifiers
  let ref ← refQualifier
  let name ← nested (components g ((← get).rest.length + 1) none)
  literal "E"
  if mayEnd name then return .nestedName cv ref name else fail

def localName : Parse Node := nested do
  literal "Z"
  let function ← g.encoding
  literal "E"
  if ← flag "s" then
    let _ ← option discriminator
    return .localName function none
  if ← flag "d" then
    let _ ← option (natural 10)
    literal "_"
    let _ ← g.name
    return .defaultArg function
  let name ← g.name
  let _ ← option discriminator
  return .localName function (some name)

def name : Parse Node := nested do
  if let some n ← option (nestedName g) then return n
  if let some n ← option (unscopedName g) then
    if (← peek) == some 'I' then
      let n ← remember n
      return .template n (← g.templateArgs)
    return n
  if let some n ← option substitution then return .template n (← g.templateArgs)
  localName g

def literalText : Parse (List Char) := do
  let c ← get
  let text := c.rest.takeWhile (· != 'E')
  set { c with rest := c.rest.drop text.length }
  literal "E"
  return text

def exprPrimary : Parse Node := nested do
  literal "L"
  if let some ty ← option g.type then return .literal ty (← literalText)
  let n ← g.mangledName
  literal "E"
  return n

/-- Packs nest no deeper than the rest of the symbol is long. -/
def templateArg : Nat → Parse Node
  | 0 => fail
  | n + 1 => nested <| firstOf [
      exprPrimary g,
      g.type,
      (do
        let _ ← keyed [("J", ()), ("I", ())]
        let args ← many (templateArg n)
        literal "E"
        return .argPack args)]

def templateArgs : Parse (List Node) := nested do
  literal "I"
  let args ← many1 (templateArg g ((← get).rest.length + 1))
  literal "E"
  return args

def functionType : Parse Node := nested do
  let cv ← cvQualifiers
  let _ ← flag "Do"
  let _ ← flag "Dx"
  literal "F"
  let _ ← flag "Y"
  let types ← nested (many1 g.type)
  let ref ← refQualifier
  literal "E"
  return .function cv ref types

def arrayType : Parse Node := nested do
  literal "A"
  let n ← option (natural 10)
  literal "_"
  return .array (match n with
    | some n => "[" ++ toString n ++ "]"
    | none => "[]") (← g.type)

def vectorType : Parse Node := nested do
  literal "Dv"
  let n ← natural 10
  literal "_"
  return .vector n (← g.type)

def classEnumType : Parse Node := nested do
  if let some n ← option (name g) then return n
  let keyword ← keyed [("Ts", "class "), ("Tu", "union "), ("Te", "enum ")]
  return .elaborated keyword (← name g)

def templateTemplate : Parse Node := do
  let param ← templateParam
  let c ← get
  if c.rest.head? == some 'I' && !c.converting then
    let param ← remember param
    return .template param (← g.templateArgs)
  else return param

def qualifiedType : Parse Node := do
  let cv ← cvQualifiers
  if cv.isEmpty then fail else return .qualified cv (← g.type)

def modifiedType : Parse Node := do
  match ← keyed [("P", 'P'), ("R", 'R'), ("O", 'O'), ("C", 'C'), ("G", 'G'), ("U", 'U'),
      ("Dp", 'p')] with
  | 'P' => return .pointer (← g.type)
  | 'R' => return .lvalueRef (← g.type)
  | 'O' => return .rvalueRef (← g.type)
  | 'C' => return .suffixed (← g.type) " complex"
  | 'G' => return .suffixed (← g.type) " imaginary"
  | 'U' => do
    let n ← sourceName
    let args ← option g.templateArgs
    return .vendorType n args (← g.type)
  | _ => return .expansion (← g.type)

def type : Parse Node := nested do
  if let some t ← option (nested (keyed builtins)) then return .builtin t
  if let some n ← option (do literal "u"; sourceName) then return n
  if let some n ← option (classEnumType g) then return (← remember n)
  if let some n ← option substitution then return n
  let n ← firstOf [
    functionType g,
    arrayType g,
    vectorType g,
    (nested do
      literal "M"
      let owner ← g.type
      return .memberPointer owner (← g.type)),
    templateTemplate g,
    qualifiedType g,
    modifiedType g]
  remember n

def specialName : Parse Node := nested do
  match ← keyed [("TV", 'V'), ("TT", 'T'), ("TI", 'I'), ("TS", 'S'), ("TF", 'F'), ("Tc", 'c'),
      ("TC", 'C'), ("TH", 'H'), ("TW", 'W'), ("GV", 'G'), ("GR", 'R'), ("GTt", 't'), ("GTn", 'n'),
      ("T", 'v')] with
  | 'V' => return .special "\x7bvtable(" [← g.type] "" ")\x7d"
  | 'T' => return .special "\x7bvtt(" [← g.type] "" ")\x7d"
  | 'I' => return .special "typeinfo for " [← g.type] "" ""
  | 'S' => return .special "typeinfo name for " [← g.type] "" ""
  | 'F' => return .special "typeinfo fn for " [← g.type] "" ""
  | 'c' => do
    let a ← callOffset
    let b ← callOffset
    return .special "\x7bvirtual override thunk(" [a, b, ← g.encoding] ", " ")\x7d"
  | 'C' => do
    let derived ← g.type
    let _ ← natural 10
    literal "_"
    return .special "construction vtable for " [derived, ← g.type] "-in-" ""
  | 'H' => return .special "TLS init function for " [← g.name] "" ""
  | 'W' => return .special "TLS wrapper function for " [← g.name] "" ""
  | 'G' => return .special "guard variable for " [← g.name] "" ""
  | 'R' => do
    let n ← g.name
    let i ← option (natural 36)
    literal "_"
    let i := match i with
      | some i => i + 1
      | none => 0
    return .special ("reference temporary #" ++ toString i ++ " for ") [n] "" ""
  | 't' => return .special "transaction clone for " [← g.encoding] "" ""
  | 'n' => return .special "non-transaction clone for " [← g.encoding] "" ""
  | _ => do
    let a ← callOffset
    return .special "\x7bvirtual override thunk(" [a, ← g.encoding] ", " ")\x7d"

def encoding : Parse Node := nested do
  if let some n ← option (name g) then
    match ← option (nested (many1 g.type)) with
    | some types => return .encoding n types
    | none => return n
  specialName g

/-- A copy of a function made by the compiler: `.` with a word, and numbers. -/
def cloneSuffix : Parse Node := nested do
  literal "."
  let c ← get
  let word := c.rest.takeWhile fun c => c == '$' || c == '_' || (c.toNat < 0x80 && c.isAlphanum)
  if word.isEmpty then fail
  else
    set { c with rest := c.rest.drop word.length }
    let numbers ← many do
      literal "."
      natural 10
    let tail := String.join (numbers.map fun n => "." ++ toString n)
    return .ident (" [clone .".toList ++ word ++ tail.toList ++ [']'])

def mangledName : Parse Node := nested do
  literal "_Z"
  let e ← encoding g
  let clones ← many cloneSuffix
  return if clones.isEmpty then e else .special "" (e :: clones) "" ""

def step : Grammar :=
  ⟨encoding g, name g, type g, templateArgs g, mangledName g⟩

end

/-- The grammar for symbols nested less than `n` deep. -/
def grammar : Nat → Grammar
  | 0 => ⟨throw .tooDeep, throw .tooDeep, throw .tooDeep, throw .tooDeep, throw .tooDeep⟩
  | n + 1 => step (grammar n)

/-- Reads a whole symbol. -/
def parse? (cs : List Char) : Option Node :=
  match (grammar maxDepth).mangledName ⟨cs, #[], 0, false⟩ with
  | .ok n c => if c.rest.isEmpty then some n else none
  | .error _ _ => none

end FunctionSlice.Mangled.Itanium
