/-! The names and types of C++ as mangled names spell them. A substitution is already replaced by what it
stands for. -/

namespace FunctionSlice.Mangled.Itanium

structure Cv where
  isRestrict : Bool
  isVolatile : Bool
  isConst : Bool

def Cv.isEmpty (q : Cv) : Bool := !q.isRestrict && !q.isVolatile && !q.isConst

inductive RefKind where
  | lvalue
  | rvalue

inductive Node where
  | ident (text : List Char)
  /-- A name of the standard library: in full, and as the name of its constructor. -/
  | wellKnown (full leaf : String)
  | oper (symbol : String) (spaced : Bool)
  | conversion (ty : Node)
  | literalOper (name : Node)
  | vendorOper (arity : Char) (name : Node)
  | ctor
  | dtor
  | closure (params : List Node) (number : Nat)
  | unnamed (number : Nat)
  | tagged (name : Node) (tags : List Node)
  | inStd (name : Node)
  | within (outer name : Node)
  | template (name : Node) (args : List Node)
  /-- A name in a scope, with the qualifiers of the object it is called on. -/
  | nestedName (cv : Cv) (ref : Option RefKind) (name : Node)
  | localName (function : Node) (name : Option Node)
  | defaultArg (function : Node)
  | builtin (text : String)
  | elaborated (keyword : String) (name : Node)
  | pointer (ty : Node)
  | lvalueRef (ty : Node)
  | rvalueRef (ty : Node)
  | suffixed (ty : Node) (suffix : String)
  | qualified (cv : Cv) (ty : Node)
  /-- The first type is the return type. -/
  | function (cv : Cv) (ref : Option RefKind) (types : List Node)
  | bareFunction (types : List Node)
  | array (dimension : String) (ty : Node)
  | vector (size : Nat) (ty : Node)
  | memberPointer (owner ty : Node)
  | templateParam (index : Nat)
  | expansion (ty : Node)
  | vendorType (name : Node) (args : Option (List Node)) (ty : Node)
  | literal (ty : Node) (text : List Char)
  | argPack (args : List Node)
  /-- A function with its parameter types, and its return type first if the name is a template's. -/
  | encoding (name : Node) (types : List Node)
  /-- Parts between fixed words. -/
  | special (before : String) (parts : List Node) (between after : String)

namespace Node

def templateArgs? : Node → Option (List Node)
  | template _ args => some args
  | nestedName _ _ n => n.templateArgs?
  | localName _ (some n) => n.templateArgs?
  | _ => none

/-- The name that a constructor in this scope repeats. -/
def leaf? : Node → Option Node
  | ident t => some (ident t)
  | wellKnown f l => some (wellKnown f l)
  | closure ps n => some (closure ps n)
  | unnamed n => some (unnamed n)
  | tagged n _ => n.leaf?
  | inStd n => n.leaf?
  | within o n => n.leaf? <|> o.leaf?
  | template n _ => n.leaf?
  | nestedName _ _ n => n.leaf?
  | localName _ (some n) => n.leaf?
  | localName f none => f.leaf?
  | defaultArg f => f.leaf?
  | encoding n _ => n.leaf?
  | elaborated _ n => n.leaf?
  | _ => none

/-- Constructors, destructors and conversions have no return type, templates of them included. -/
def hasNoReturn : Node → Bool
  | ctor | dtor | conversion _ => true
  | tagged n _ => n.hasNoReturn
  | inStd n => n.hasNoReturn
  | within _ n => n.hasNoReturn
  | template n _ => n.hasNoReturn
  | nestedName _ _ n => n.hasNoReturn
  | localName _ (some n) => n.hasNoReturn
  | _ => false

def isVoid : Node → Bool
  | builtin t => t == "void"
  | _ => false

end Node

end FunctionSlice.Mangled.Itanium
