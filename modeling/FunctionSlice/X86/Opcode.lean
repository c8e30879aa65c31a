import FunctionSlice.X86.Operand

/-! Opcode maps of the instructions for general registers and some of those for vectors: for each opcode its
name and the places its operands come from. An opcode that is not listed is not known, whether or not it is
an instruction. -/

namespace FunctionSlice.X86

/-- How wide an operand is. -/
inductive Span where
  | b
  | w
  | d
  | q
  /-- The operand size: two, four or eight bytes. -/
  | v
  /-- The size of a code address. -/
  | p
  deriving DecidableEq

inductive Place where
  /-- Register or memory, by the ModRM byte. -/
  | rm (s : Span)
  /-- Register only, by the same bits. -/
  | rmRegister (s : Span)
  /-- Memory only. -/
  | mem (s : Option Span)
  | reg (s : Span)
  /-- The register in the low bits of the opcode. -/
  | low (s : Span)
  | acc (s : Span)
  | xmm
  | xmmRm (size : Nat)
  | mmx
  | mmxRm
  | segReg
  | control
  | debug
  | segment (n : Nat)
  | cl
  | dx
  | one
  /-- An immediate as wide as the operand size, but of four bytes at most. -/
  | immz
  /-- An immediate of the full operand size. -/
  | immv
  | imm8
  | imm16
  /-- A signed byte for an operand of the operand size. -/
  | imm8s
  | near
  | short
  | far
  /-- An address instead of a ModRM byte. -/
  | offset (s : Span)
  /-- The place that a string instruction reads, and the one it writes or compares with. -/
  | source (s : Span)
  | target (s : Span)
  deriving DecidableEq

inductive Name where
  | plain (s : String)
  /-- By operand size. -/
  | sized (word dword qword : String)
  /-- By dialect. -/
  | split (tight spaced : Name)

def Name.text (d : Dialect) (size : Nat) : Name → String
  | plain s => s
  | sized w l q => if size = 2 then w else if size = 8 then q else l
  | split t s =>
    match d with
    | .tight => t.text d size
    | .spaced => s.text d size

/-- What a repeat prefix means to an instruction. -/
inductive Repetition where
  | none
  | move
  | compare
  | return
  deriving DecidableEq

structure Entry where
  name : Name
  places : List Place
  /-- The operand size is eight in 64-bit code. -/
  wide : Bool := false
  lockable : Bool := false
  repetition : Repetition := .none
  /-- A branch whose bounds can be checked. -/
  bounded : Bool := false
  /-- Immediates are shown without sign by the spaced dialect too. -/
  unsigned : Bool := false
  /-- The tight dialect leaves out the size of memory. -/
  sizeless : Bool := false
  /-- The tight dialect leaves out the accumulator. -/
  terse : Bool := false
  /-- The spaced dialect swaps the operands. -/
  swapped : Bool := false
  /-- The spaced dialect shows no operands. -/
  bare : Bool := false
  /-- The ModRM byte belongs to the opcode. -/
  extended : Bool := false
  /-- A return to another segment. -/
  far : Bool := false

namespace Entry

def of (name : String) (places : List Place) : Entry := { name := .plain name, places }

def ofName (name : Name) (places : List Place) : Entry := { name, places }

def asWide (e : Entry) : Entry := { e with wide := true }

def asLockable (e : Entry) : Entry := { e with lockable := true }

def asUnsigned (e : Entry) : Entry := { e with unsigned := true }

def asBounded (e : Entry) : Entry := { e with bounded := true }

def repeating (r : Repetition) (e : Entry) : Entry := { e with repetition := r }

end Entry

open X86.Entry X86.Place X86.Span

def conditions : List String :=
  ["o", "no", "b", "ae", "e", "ne", "be", "a", "s", "ns", "p", "np", "l", "ge", "le", "g"]

def condition (n : Nat) : String := conditions.getD (n % 16) ""

def arithmeticNames : List String := ["add", "or", "adc", "sbb", "and", "sub", "xor", "cmp"]

/-- Number `n` of the eight arithmetic instructions. Logical ones show immediates without sign; the
comparison writes nothing and cannot be locked. -/
def arithmetic (n : Nat) (places : List Place) : Entry :=
  { of (arithmeticNames.getD n "") places with
    lockable := n != 7, unsigned := n == 1 || n == 4 || n == 6 }

def shiftNames : List String := ["rol", "ror", "rcl", "rcr", "shl", "shr", "shl", "sar"]

def shift (n : Nat) (places : List Place) : Entry := of (shiftNames.getD n "") places

/-- The tight dialect says where to instead of by which instruction. -/
def farReturn (places : List Place) : Entry :=
  { ofName (.split (.sized "ret far" "ret far" "data64 ret far") (.sized "retf" "retf" "retfq")) places with
    far := true }

/-- A string instruction by its stem, with the letter of its size. -/
def stringEntry (stem : String) (s : Span) (r : Repetition) (places : List Place) : Entry :=
  let name := if s = b then Name.plain (stem ++ "b") else .sized (stem ++ "w") (stem ++ "d") (stem ++ "q")
  { ofName name places with repetition := r, sizeless := true, terse := true }

def arithmeticMap (n : Nat) : Option Entry :=
  let k := n / 8
  match n % 8 with
  | 0 => some (arithmetic k [rm b, reg b])
  | 1 => some (arithmetic k [rm v, reg v])
  | 2 => some (arithmetic k [reg b, rm b])
  | 3 => some (arithmetic k [reg v, rm v])
  | 4 => some (arithmetic k [acc b, imm8])
  | 5 => some (arithmetic k [acc v, immz])
  | _ => none

/-- Instructions that 64-bit code does not have. -/
def oldMap (n : Nat) : Option Entry :=
  match n with
  | 0x06 => some (of "push" [segment 0])
  | 0x07 => some (of "pop" [segment 0])
  | 0x0e => some (of "push" [segment 1])
  | 0x16 => some (of "push" [segment 2])
  | 0x17 => some (of "pop" [segment 2])
  | 0x1e => some (of "push" [segment 3])
  | 0x1f => some (of "pop" [segment 3])
  | 0x27 => some (of "daa" [])
  | 0x2f => some (of "das" [])
  | 0x37 => some (of "aaa" [])
  | 0x3f => some (of "aas" [])
  | 0x60 => some (ofName (.split (.sized "pusha" "pushad" "") (.sized "pushaw" "pushal" "")) [])
  | 0x61 => some (ofName (.split (.sized "popa" "popad" "") (.sized "popaw" "popal" "")) [])
  | 0x62 => some (of "bound" [reg v, mem (some v)])
  | 0x63 => some (of "arpl" [rm w, reg w])
  | 0x9a => some (ofName (.split (.plain "call") (.plain "lcall")) [far])
  | 0xc4 => some (of "les" [reg v, mem none])
  | 0xc5 => some (of "lds" [reg v, mem none])
  | 0xce => some (of "into" [])
  | 0xd4 => some (of "aam" [imm8])
  | 0xd5 => some (of "aad" [imm8])
  | 0xd6 => some (of "salc" [])
  | 0xea => some (ofName (.split (.plain "jmp") (.plain "ljmp")) [far])
  | _ => if 0x40 ≤ n ∧ n < 0x48 then some (of "inc" [low v])
    else if 0x48 ≤ n ∧ n < 0x50 then some (of "dec" [low v])
    else none

/-- Opcodes that the ModRM byte tells apart, by its middle bits `k`. -/
def groupMap (wide : Bool) (n k : Nat) : Option Entry :=
  match n with
  | 0x80 => some (arithmetic k [rm b, imm8])
  | 0x81 => some (arithmetic k [rm v, immz])
  | 0x82 => if wide then none else some (arithmetic k [rm b, imm8])
  | 0x83 => some (arithmetic k [rm v, imm8s])
  | 0x8f => if k = 0 then some (of "pop" [rm v]).asWide else none
  | 0xc0 => some (shift k [rm b, imm8])
  | 0xc1 => some (shift k [rm v, imm8])
  | 0xc6 => if k = 0 then some (of "mov" [rm b, imm8]).asUnsigned else none
  | 0xc7 => if k = 0 then some (of "mov" [rm v, immz]).asUnsigned else none
  | 0xd0 => some (shift k [rm b, one])
  | 0xd1 => some (shift k [rm v, one])
  | 0xd2 => some (shift k [rm b, cl])
  | 0xd3 => some (shift k [rm v, cl])
  | 0xf6 =>
    match k with
    | 0 | 1 => some (of "test" [rm b, imm8])
    | 2 => some (of "not" [rm b]).asLockable
    | 3 => some (of "neg" [rm b]).asLockable
    | 4 => some (of "mul" [rm b])
    | 5 => some (of "imul" [rm b])
    | 6 => some (of "div" [rm b])
    | _ => some (of "idiv" [rm b])
  | 0xf7 =>
    match k with
    | 0 | 1 => some (of "test" [rm v, immz])
    | 2 => some (of "not" [rm v]).asLockable
    | 3 => some (of "neg" [rm v]).asLockable
    | 4 => some (of "mul" [rm v])
    | 5 => some (of "imul" [rm v])
    | 6 => some (of "div" [rm v])
    | _ => some (of "idiv" [rm v])
  | 0xfe =>
    match k with
    | 0 => some (of "inc" [rm b]).asLockable
    | 1 => some (of "dec" [rm b]).asLockable
    | _ => none
  | 0xff =>
    match k with
    | 0 => some (of "inc" [rm v]).asLockable
    | 1 => some (of "dec" [rm v]).asLockable
    | 2 => some (of "call" [rm p]).asBounded.asWide
    | 3 => some (ofName (.split (.plain "call") (.plain "lcall")) [mem none])
    | 4 => some (of "jmp" [rm p]).asBounded.asWide
    | 5 => some (ofName (.split (.plain "jmp") (.plain "ljmp")) [mem none])
    | 6 => some (of "push" [rm v]).asWide
    | _ => none
  | _ => none

def loopNames (addressSize : Nat) : List String :=
  ["loopne", "loope", "loop", if addressSize = 8 then "jrcxz" else if addressSize = 4 then "jecxz" else "jcxz"]

/-- Opcodes of one byte without groups that both widths have. -/
def plainMap (wide : Bool) (addressSize n : Nat) : Option Entry :=
  match n with
  | 0x68 => some (of "push" [immz]).asWide
  | 0x69 => some (of "imul" [reg v, rm v, immz])
  | 0x6a => some (of "push" [imm8s]).asWide
  | 0x6b => some (of "imul" [reg v, rm v, imm8s])
  | 0x6c => some (stringEntry "ins" b .move [target b, dx])
  | 0x6d => some (stringEntry "ins" v .move [target v, dx])
  | 0x6e => some (stringEntry "outs" b .move [dx, source b])
  | 0x6f => some (stringEntry "outs" v .move [dx, source v])
  | 0x84 => some (of "test" [rm b, reg b])
  | 0x85 => some (of "test" [rm v, reg v])
  | 0x86 => some (of "xchg" [rm b, reg b]).asLockable
  | 0x87 => some (of "xchg" [rm v, reg v]).asLockable
  | 0x88 => some (of "mov" [rm b, reg b])
  | 0x89 => some (of "mov" [rm v, reg v])
  | 0x8a => some (of "mov" [reg b, rm b])
  | 0x8b => some (of "mov" [reg v, rm v])
  | 0x8c => some (of "mov" [rm v, segReg])
  | 0x8d => some (of "lea" [reg v, mem none])
  | 0x8e => some (of "mov" [segReg, rm v])
  | 0x98 => some (ofName (.sized "cbw" "cwde" "cdqe") [])
  | 0x99 => some (ofName (.sized "cwd" "cdq" "cqo") [])
  | 0x9b => some (of "wait" [])
  | 0x9c => some (ofName (.sized "pushf" "pushfd" "pushfq") []).asWide
  | 0x9d => some (ofName (.sized "popf" "popfd" "popfq") []).asWide
  | 0x9e => some (of "sahf" [])
  | 0x9f => some (of "lahf" [])
  | 0xa0 => some (ofName moveName [acc b, offset b])
  | 0xa1 => some (ofName moveName [acc v, offset v])
  | 0xa2 => some (ofName moveName [offset b, acc b])
  | 0xa3 => some (ofName moveName [offset v, acc v])
  | 0xa4 => some (stringEntry "movs" b .move [target b, source b])
  | 0xa5 => some (stringEntry "movs" v .move [target v, source v])
  | 0xa6 => some (stringEntry "cmps" b .compare [source b, target b])
  | 0xa7 => some (stringEntry "cmps" v .compare [source v, target v])
  | 0xa8 => some (of "test" [acc b, imm8])
  | 0xa9 => some (of "test" [acc v, immz])
  | 0xaa => some (stringEntry "stos" b .move [target b, acc b])
  | 0xab => some (stringEntry "stos" v .move [target v, acc v])
  | 0xac => some (stringEntry "lods" b .move [acc b, source b])
  | 0xad => some (stringEntry "lods" v .move [acc v, source v])
  | 0xae => some (stringEntry "scas" b .compare [acc b, target b])
  | 0xaf => some (stringEntry "scas" v .compare [acc v, target v])
  | 0xc2 => some ((of "ret" [imm16]).asWide.asBounded)
  | 0xc3 => some ((of "ret" []).asWide.asBounded.repeating .return)
  | 0xc8 => some (of "enter" [imm16, imm8]).asWide
  | 0xc9 => some (of "leave" []).asWide
  | 0xca => some (farReturn [imm16])
  | 0xcb => some (farReturn [])
  | 0xcc => some (of "int3" [])
  | 0xcd => some (of "int" [imm8])
  | 0xcf => some (ofName (.sized "iret" "iretd" "iretq") [])
  | 0xd7 => some (of "xlatb" [])
  | 0xe4 => some (of "in" [acc b, imm8])
  | 0xe5 => some (of "in" [acc v, imm8])
  | 0xe6 => some (of "out" [imm8, acc b])
  | 0xe7 => some (of "out" [imm8, acc v])
  | 0xe8 => some (of "call" [near]).asWide.asBounded
  | 0xe9 => some (of "jmp" [near]).asWide.asBounded
  | 0xeb => some (of "jmp" [short]).asWide.asBounded
  | 0xec => some (of "in" [acc b, dx])
  | 0xed => some (of "in" [acc v, dx])
  | 0xee => some (of "out" [dx, acc b])
  | 0xef => some (of "out" [dx, acc v])
  | 0xf1 => some (of "int1" [])
  | 0xf4 => some (of "hlt" [])
  | 0xf5 => some (of "cmc" [])
  | 0xf8 => some (of "clc" [])
  | 0xf9 => some (of "stc" [])
  | 0xfa => some (of "cli" [])
  | 0xfb => some (of "sti" [])
  | 0xfc => some (of "cld" [])
  | 0xfd => some (of "std" [])
  | _ =>
    if 0x50 ≤ n ∧ n < 0x58 then some (of "push" [low v]).asWide
    else if 0x58 ≤ n ∧ n < 0x60 then some (of "pop" [low v]).asWide
    else if 0x70 ≤ n ∧ n < 0x80 then some (of ("j" ++ condition n) [short]).asWide.asBounded
    else if 0x90 ≤ n ∧ n < 0x98 then some { of "xchg" [low v, acc v] with swapped := true }
    else if 0xb0 ≤ n ∧ n < 0xb8 then some (of "mov" [low b, imm8]).asUnsigned
    else if 0xb8 ≤ n ∧ n < 0xc0 then
      some (ofName (.split (.plain "mov") (.sized "mov" "mov" "movabs")) [low v, immv]).asUnsigned
    else if 0xe0 ≤ n ∧ n < 0xe4 then some (of ((loopNames addressSize).getD (n - 0xe0) "") [short]).asWide
    else none
where
  /-- A full address in 64-bit code has a name of its own in the spaced dialect. -/
  moveName : Name := .split (.plain "mov") (.plain (if wide then "movabs" else "mov"))

/-- The prefix that chooses among the instructions of one opcode of two bytes. -/
inductive Selector where
  | none
  | operandSize
  | repeated
  | unequal
  deriving DecidableEq

def floatArithmetic : List (Nat × String) :=
  [(0x51, "sqrt"), (0x54, "and"), (0x55, "andn"), (0x56, "or"), (0x57, "xor"), (0x58, "add"),
   (0x59, "mul"), (0x5c, "sub"), (0x5d, "min"), (0x5e, "div"), (0x5f, "max")]

/-- What a selector adds to the name of a floating-point instruction, and the size of its data. -/
def Selector.float : Selector → String × Nat
  | none => ("ps", 16)
  | operandSize => ("pd", 16)
  | repeated => ("ss", 4)
  | unequal => ("sd", 8)

def isLogical (n : Nat) : Bool := 0x54 ≤ n && n ≤ 0x57

/-- Opcodes after `0f` that work on vector registers. -/
def vectorMap (s : Selector) (n : Nat) : Option Entry :=
  let (suffix, size) := s.float
  match n, s with
  | 0x10, .none | 0x10, .operandSize => some (of ("movu" ++ suffix) [xmm, xmmRm 16])
  | 0x11, .none | 0x11, .operandSize => some (of ("movu" ++ suffix) [xmmRm 16, xmm])
  | 0x10, _ => some (of ("mov" ++ suffix) [xmm, xmmRm size])
  | 0x11, _ => some (of ("mov" ++ suffix) [xmmRm size, xmm])
  | 0x28, .none | 0x28, .operandSize => some (of ("mova" ++ suffix) [xmm, xmmRm 16])
  | 0x29, .none | 0x29, .operandSize => some (of ("mova" ++ suffix) [xmmRm 16, xmm])
  | 0x2e, .none => some (of "ucomiss" [xmm, xmmRm 4])
  | 0x2e, .operandSize => some (of "ucomisd" [xmm, xmmRm 8])
  | 0x2f, .none => some (of "comiss" [xmm, xmmRm 4])
  | 0x2f, .operandSize => some (of "comisd" [xmm, xmmRm 8])
  | 0x6e, .operandSize => some (ofName (.sized "movd" "movd" "movq") [xmm, rm v])
  | 0x7e, .operandSize => some (ofName (.sized "movd" "movd" "movq") [rm v, xmm])
  | 0x7e, .repeated => some (of "movq" [xmm, xmmRm 8])
  | 0xd6, .operandSize => some (of "movq" [xmmRm 8, xmm])
  | 0x6f, .operandSize => some (of "movdqa" [xmm, xmmRm 16])
  | 0x6f, .repeated => some (of "movdqu" [xmm, xmmRm 16])
  | 0x6f, .none => some (of "movq" [mmx, mmxRm])
  | 0x7f, .operandSize => some (of "movdqa" [xmmRm 16, xmm])
  | 0x7f, .repeated => some (of "movdqu" [xmmRm 16, xmm])
  | 0x7f, .none => some (of "movq" [mmxRm, mmx])
  | 0xdb, .operandSize => some (of "pand" [xmm, xmmRm 16])
  | 0xdf, .operandSize => some (of "pandn" [xmm, xmmRm 16])
  | 0xeb, .operandSize => some (of "por" [xmm, xmmRm 16])
  | 0xef, .operandSize => some (of "pxor" [xmm, xmmRm 16])
  | 0xdb, .none => some (of "pand" [mmx, mmxRm])
  | 0xdf, .none => some (of "pandn" [mmx, mmxRm])
  | 0xeb, .none => some (of "por" [mmx, mmxRm])
  | 0xef, .none => some (of "pxor" [mmx, mmxRm])
  | _, _ =>
    match floatArithmetic.lookup n with
    | some stem =>
      if isLogical n && (s = .repeated || s = .unequal) then Option.none
      else some (of (stem ++ suffix) [xmm, xmmRm size])
    | Option.none => Option.none

def bitTests : List String := ["bt", "bts", "btr", "btc"]

/-- The test alone writes nothing and cannot be locked. -/
def bitTest (k : Nat) (places : List Place) : Entry :=
  { of (bitTests.getD k "") places with lockable := k != 0 }

/-- A count of bits, or a search where the processor is older than the count. -/
def counted (s : Selector) (count : String) (search : Option String) : Option Entry :=
  if s = .repeated then some (of count [reg v, rm v])
  else search.map fun name => of name [reg v, rm v]

/-- Opcodes after `0f` that the byte behind them, `m`, tells apart. -/
def extendedGroupMap (s : Selector) (n m : Nat) : Option Entry :=
  let k := m / 8 % 8
  match n with
  | 0x0d => if k = 1 then some (of "prefetchw" [mem (some b)]) else none
  | 0x18 => if k < 4 then some (of ("prefetch" ++ ["nta", "t0", "t1", "t2"].getD k "") [mem (some b)])
    else none
  | 0x1e =>
    if s = .repeated && m == 0xfa then some { of "endbr64" [] with extended := true }
    else if s = .repeated && m == 0xfb then some { of "endbr32" [] with extended := true }
    else some { of "nop" [rm v] with sizeless := true }
  | 0xae =>
    if m / 64 = 3 ∧ 5 ≤ k then
      some { of (["lfence", "mfence", "sfence"].getD (k - 5) "") [] with extended := true }
    else none
  | 0xba => if 4 ≤ k then some (bitTest (k - 4) [rm v, imm8]) else none
  | 0xc7 => if k = 1 then
      some (ofName (.sized "cmpxchg8b" "cmpxchg8b" "cmpxchg16b") [mem (some q)]).asLockable else none
  | _ => none

/-- Opcodes after `0f` without groups that work on general registers. -/
def extendedMap (s : Selector) (n : Nat) : Option Entry :=
  match n with
  | 0x05 => some (of "syscall" [])
  | 0x06 => some (of "clts" [])
  | 0x07 => some (ofName (.sized "sysret" "sysret" "sysretq") [])
  | 0x08 => some (of "invd" [])
  | 0x09 => some (of "wbinvd" [])
  | 0x0b => some (of "ud2" [])
  | 0x1f => some { of "nop" [rm v] with sizeless := true }
  | 0x20 => some (of "mov" [rmRegister p, control])
  | 0x21 => some (of "mov" [rmRegister p, debug])
  | 0x22 => some (of "mov" [control, rmRegister p])
  | 0x23 => some (of "mov" [debug, rmRegister p])
  | 0x30 => some (of "wrmsr" [])
  | 0x31 => some (of "rdtsc" [])
  | 0x32 => some (of "rdmsr" [])
  | 0x33 => some (of "rdpmc" [])
  | 0x34 => some (of "sysenter" [])
  | 0x35 => some (ofName (.sized "sysexit" "sysexit" "sysexitq") [])
  | 0xa0 => some (of "push" [segment 4]).asWide
  | 0xa1 => some (of "pop" [segment 4]).asWide
  | 0xa2 => some (of "cpuid" [])
  | 0xa3 => some (bitTest 0 [rm v, reg v])
  | 0xa4 => some (of "shld" [rm v, reg v, imm8])
  | 0xa5 => some (of "shld" [rm v, reg v, cl])
  | 0xa8 => some (of "push" [segment 5]).asWide
  | 0xa9 => some (of "pop" [segment 5]).asWide
  | 0xaa => some (of "rsm" [])
  | 0xab => some (bitTest 1 [rm v, reg v])
  | 0xac => some (of "shrd" [rm v, reg v, imm8])
  | 0xad => some (of "shrd" [rm v, reg v, cl])
  | 0xaf => some (of "imul" [reg v, rm v])
  | 0xb0 => some (of "cmpxchg" [rm b, reg b]).asLockable
  | 0xb1 => some (of "cmpxchg" [rm v, reg v]).asLockable
  | 0xb3 => some (bitTest 2 [rm v, reg v])
  | 0xb6 => some (of "movzx" [reg v, rm b])
  | 0xb7 => some (of "movzx" [reg v, rm w])
  | 0xb8 => counted s "popcnt" none
  | 0xbb => some (bitTest 3 [rm v, reg v])
  | 0xbc => counted s "tzcnt" (some "bsf")
  | 0xbd => counted s "lzcnt" (some "bsr")
  | 0xbe => some (of "movsx" [reg v, rm b])
  | 0xbf => some (of "movsx" [reg v, rm w])
  | 0xc0 => some (of "xadd" [rm b, reg b]).asLockable
  | 0xc1 => some (of "xadd" [rm v, reg v]).asLockable
  | _ =>
    if 0x40 ≤ n ∧ n < 0x50 then some (of ("cmov" ++ condition n) [reg v, rm v])
    else if 0x80 ≤ n ∧ n < 0x90 then some (of ("j" ++ condition n) [near]).asWide.asBounded
    else if 0x90 ≤ n ∧ n < 0xa0 then some (of ("set" ++ condition n) [rm b])
    else if 0xc8 ≤ n ∧ n < 0xd0 then some (of "bswap" [low v])
    else none

def twoByteMap (s : Selector) (n m : Nat) : Option Entry :=
  extendedGroupMap s n m <|> extendedMap s n <|> vectorMap s n

/-- The exchange of the accumulator with itself, which does nothing. -/
def idle (s : Selector) (size : Nat) : Entry :=
  if s = .repeated then of "pause" []
  else if size = 4 then of "nop" []
  else { ofName (.split (.plain "xchg") (.plain "nop")) [low v, acc v] with bare := true }

/-- `m` is the byte after the opcode. -/
def oneByteMap (wide : Bool) (addressSize n m : Nat) : Option Entry :=
  if n < 0x40 ∧ n % 8 < 6 then arithmeticMap n
  else if wide ∧ n = 0x63 then some (of "movsxd" [reg v, rm d])
  else groupMap wide n (m / 8 % 8) <|> plainMap wide addressSize n <|> (if wide then none else oldMap n)

end FunctionSlice.X86
