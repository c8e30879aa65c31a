import FunctionSlice.Mangled.Itanium.Node

/-! C++ names as text. A declarator is written around its name: what stands outside waits on a stack
while the innermost type is written, and whoever is written first takes it from there. Template
parameters are looked up in the templates around; a name whose parameters go in a circle has no text. -/

namespace FunctionSlice.Mangled.Itanium

structure Scope where
  /-- What a constructor is called. -/
  leaf : Option Node
  /-- Template arguments, the innermost template first. -/
  templates : List (List Node)

def Scope.enter (s : Scope) (name : Node) : Scope :=
  ⟨name.leaf? <|> s.leaf, match name.templateArgs? with
    | some args => args :: s.templates
    | none => s.templates⟩

def Scope.param? (s : Scope) (index : Nat) : Option Node := s.templates.findSome? (·[index]?)

structure Page where
  /-- The last character comes first. -/
  text : List Char
  waiting : List Node
  inPack : Bool
  inLambda : Bool

abbrev Print := StateT Page Option

namespace Print

def put (cs : List Char) : Print Unit := modify fun p => { p with text := cs.reverse ++ p.text }

def write (t : String) : Print Unit := put t.toList

def last? : Print (Option Char) := do return (← get).text.head?

def space : Print Unit := do
  if (← last?) == some ' ' then pure () else write " "

def pop? : Print (Option Node) := do
  let p ← get
  match p.waiting with
  | [] => return none
  | n :: r =>
    set { p with waiting := r }
    return some n

/-- Lets a node wait during `body`; if nothing took it, `own` writes it. -/
def wait (n : Node) (body own : Print Unit) : Print Unit := do
  let depth := (← get).waiting.length
  modify fun p => { p with waiting := n :: p.waiting }
  body
  if (← get).waiting.length > depth then
    let _ ← pop?
    own

/-- Runs with nothing waiting. -/
def alone (body : Print Unit) : Print Unit := do
  let outer := (← get).waiting
  modify fun p => { p with waiting := [] }
  body
  modify fun p => { p with waiting := outer }

def commaSeparated (write1 : Node → Print Unit) : List Node → Print Unit
  | [] => pure ()
  | [n] => write1 n
  | n :: r => do
    write1 n
    write ", "
    commaSeparated write1 r

end Print

open Print

/-- The two ways to write a node: by itself, and around what has been written. -/
structure Printer where
  plain : Scope → Node → Print Unit
  around : Scope → Node → Print Unit

def Cv.write (q : Cv) : Print Unit := do
  if q.isConst then
    space
    Print.write "const"
  if q.isVolatile then
    space
    Print.write "volatile"
  if q.isRestrict then
    space
    Print.write "restrict"

def writeRef : Option RefKind → Print Unit
  | none => pure ()
  | some .lvalue => do
    space
    write "&"
  | some .rvalue => do
    space
    write "&&"

section
variable (p : Printer)

/-- Writes all that waits. -/
def writeWaiting (s : Scope) : Nat → Print Unit
  | 0 => pure ()
  | n + 1 => do
    match ← pop? with
    | some w =>
      p.around s w
      writeWaiting s n
    | none => pure ()

def hasCv : Node → Bool
  | .function cv _ _ => !cv.isEmpty
  | _ => false

/-- Writes what waits, function types with qualifiers apart, which keep waiting. -/
def writeWaitingFirst (s : Scope) : Nat → Print Unit
  | 0 => pure ()
  | n + 1 => do
    match ← pop? with
    | some w =>
      if hasCv w then
        writeWaitingFirst s n
        modify fun q => { q with waiting := w :: q.waiting }
      else
        p.around s w
        writeWaitingFirst s n
    | none => pure ()

/-- Whether the declarators outside a parameter list need parentheses, and a blank before these. -/
def parentheses : List Node → Bool × Bool
  | [] => (false, false)
  | .pointer _ :: _ | .lvalueRef _ :: _ | .rvalueRef _ :: _ => (true, false)
  | .qualified .. :: _ | .suffixed .. :: _ | .memberPointer .. :: _ => (true, true)
  | _ :: r => parentheses r

def writeParams (s : Scope) (types : List Node) : Print Unit := do
  let (paren, blank) := parentheses (← get).waiting
  if paren then
    let last ← last?
    if blank || !(last == some '(' || last == some '*') then space
    write "("
  writeWaitingFirst p s (← get).waiting.length
  if paren then write ")"
  write "("
  match types with
  | [t] => if t.isVoid then pure () else p.plain s t
  | _ => commaSeparated (p.plain s) types
  write ")"
  writeWaiting p s (← get).waiting.length

def writeTemplateArgs (s : Scope) (args : List Node) : Print Unit := alone do
  if (← last?) == some '<' then write " "
  write "<"
  commaSeparated (p.plain s) args
  if (← last?) == some '>' then write " "
  write ">"

def writeArray (s : Scope) (dimension : String) : Nat → Bool → Print Unit
  | 0, _ => pure ()
  | n + 1, blank => do
    match ← pop? with
    | none =>
      if blank then space
      write dimension
    | some w =>
      match w with
      | .qualified .. =>
        p.around s w
        writeArray s dimension n blank
      | .array .. =>
        p.around s w
        writeArray s dimension n false
      | _ =>
        space
        write "("
        p.around s w
        writeWaiting p s (← get).waiting.length
        write ")"
        writeArray s dimension n blank

/-- A reference to a reference is one reference, of rvalues only if both are. -/
def collapse : List Node → List Node
  | .lvalueRef _ :: r | .rvalueRef _ :: r => collapse r
  | ws => ws

def collapseRvalues : List Node → List Node
  | .rvalueRef _ :: r => collapseRvalues r
  | ws => ws

def writeLiteral (s : Scope) (ty : Node) (text : List Char) : Print Unit := do
  let value := match text with
    | 'n' :: r => '-' :: r
    | t => t
  let typed (v : List Char) : Print Unit := do
    write "("
    p.plain s ty
    write ")"
    put v
  match ty with
  | .builtin "bool" =>
    match text with
    | ['0'] => write "false"
    | ['1'] => write "true"
    | _ => typed value
  | .builtin "int" => put value
  | .builtin "std::nullptr_t" => write "nullptr"
  | .builtin "float" | .builtin "double" => typed (['['] ++ text ++ [']'])
  | _ => typed value

/-- The parameter types of a function, without the return type that a template has in front. -/
def paramTypes (name : Node) (types : List Node) : List Node :=
  if name.templateArgs?.isSome && !name.hasNoReturn then types.drop 1 else types

def writeAround (s : Scope) : Node → Print Unit
  | .encoding name types =>
    let s := match name.templateArgs? with
      | some args => { s with templates := args :: s.templates }
      | none => s
    writeParams p s (paramTypes name types)
  | .function cv ref _ => do
    cv.write
    writeRef ref
  | .bareFunction types => writeParams p s (types.drop 1)
  | .array dimension _ => do writeArray p s dimension ((← get).waiting.length + 1) true
  | .vector n _ => write (" __vector(" ++ toString n ++ ")")
  | .memberPointer owner _ => do
    if (← last?) != some '(' then space
    p.plain s owner
    write "::*"
  | .qualified cv _ => cv.write
  | .pointer _ => write "*"
  | .lvalueRef _ => do
    modify fun q => { q with waiting := collapse q.waiting }
    write "&"
  | .rvalueRef _ => do
    modify fun q => { q with waiting := collapseRvalues q.waiting }
    match (← get).waiting with
    | .lvalueRef _ :: _ => pure ()
    | _ => write "&&"
  | n => p.plain s n

def writeOperator (s : Scope) : Node → Print Unit
  | .conversion ty => do
    write "operator "
    p.plain s ty
  | .literalOper name => do
    write "operator"
    p.plain s name
    write "::operator \"\""
  | .vendorOper arity name => do
    write "operator"
    p.plain s name
    write "::operator "
    put [arity]
  | .oper symbol spaced => write ((if spaced then "operator " else "operator") ++ symbol)
  | _ => pure ()

def writeLeaf : Node → Print Unit
  | .ident t => put t
  | .wellKnown _ leaf => write leaf
  | n => p.plain ⟨none, []⟩ n

def writeCtor (s : Scope) : Print Unit :=
  match s.leaf with
  | some n => writeLeaf p n
  | none => failure

def writePlain (s : Scope) (n : Node) : Print Unit :=
  match n with
  | .ident t => put t
  | .wellKnown full _ => write full
  | .oper .. | .conversion _ | .literalOper _ | .vendorOper .. => writeOperator p s n
  | .ctor => writeCtor p s
  | .dtor => do
    write "~"
    writeCtor p s
  | .closure params number => do
    write "\x7blambda("
    modify fun q => { q with inLambda := true }
    commaSeparated (p.plain s) params
    modify fun q => { q with inLambda := false }
    write (")#" ++ toString number ++ "\x7d")
  | .unnamed number => write ("\x7bunnamed type#" ++ toString number ++ "\x7d")
  | .tagged name tags => do
    p.plain s name
    tags.forM fun t => do
      write "[abi:"
      p.plain s t
      write "]"
  | .inStd name => do
    write "std::"
    p.plain s name
  | .within outer name => do
    p.plain s outer
    write "::"
    p.plain s name
  | .template name args => do
    p.plain s name
    writeTemplateArgs p s args
  | .nestedName cv ref name => do
    p.plain s name
    if let some w ← pop? then p.around s w
    cv.write
    writeRef ref
  | .localName function name => do
    p.plain s function
    write "::"
    match name with
    | some name => p.plain s name
    | none => write "string literal"
  | .defaultArg function => p.plain s function
  | .builtin t => write t
  | .elaborated keyword name => do
    write keyword
    p.plain s name
  | .pointer ty | .lvalueRef ty | .rvalueRef ty | .qualified _ ty | .array _ ty | .vector _ ty
  | .memberPointer _ ty => wait n (p.plain s ty) (p.around s n)
  | .function _ _ types => wait n (p.plain s (.bareFunction types)) (p.around s n)
  | .bareFunction types =>
    wait n (p.plain s (types.headD (.builtin "void"))) do
      space
      p.around s n
  | .suffixed ty suffix => do
    p.plain s ty
    write suffix
  | .templateParam index => do
    if (← get).inLambda then write ("auto:" ++ toString (index + 1))
    else
      match s.param? index with
      | some arg => p.plain s arg
      | none => failure
  | .expansion ty => do
    p.plain s ty
    if !(← get).inPack then write "..."
  | .vendorType name args ty => do
    p.plain s ty
    write " "
    p.plain s name
    match args with
    | some args => writeTemplateArgs p s args
    | none => pure ()
  | .literal ty text => writeLiteral p s ty text
  | .argPack args => do
    modify fun q => { q with inPack := true }
    commaSeparated (p.plain s) args
  | .encoding name types => alone do
    let s := s.enter name
    if name.templateArgs?.isSome && !name.hasNoReturn then
      p.plain s (types.headD (.builtin "void"))
      write " "
    wait n (p.plain s name) (p.around s n)
  | .special before parts between after => do
    write before
    match parts with
    | [] => pure ()
    | first :: rest =>
      p.plain s first
      rest.forM fun part => do
        write between
        p.plain s part
    write after

def nextPrinter : Printer := ⟨writePlain p, writeAround p⟩

end

/-- Writes names nested less than `n` deep. -/
def printer : Nat → Printer
  | 0 => ⟨fun _ _ => failure, fun _ _ => failure⟩
  | n + 1 => nextPrinter (printer n)

def maxNesting : Nat := 256

def Node.render? (n : Node) : Option (List Char) :=
  match ((printer maxNesting).plain ⟨none, []⟩ n).run ⟨[], [], false, false⟩ with
  | some (_, page) => some page.text.reverse
  | none => none

end FunctionSlice.Mangled.Itanium
