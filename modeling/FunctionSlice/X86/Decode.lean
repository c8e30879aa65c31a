import FunctionSlice.Image.Binary
import FunctionSlice.X86.Opcode

/-! One instruction from the front of a byte string: prefixes, an opcode, the operands that its entry asks
for. What is decoded does not depend on where the bytes are. -/

namespace FunctionSlice.X86

open Binary

inductive Repeat where
  | equal
  | unequal
  deriving DecidableEq

structure Prefixes where
  operandSize : Bool := false
  addressSize : Bool := false
  lock : Bool := false
  rep : Option Repeat := none
  segment : Option Nat := none
  /-- The low four bits of a REX prefix. -/
  rex : Option Nat := none
  deriving DecidableEq

namespace Prefixes

def rexBit (p : Prefixes) (k : Nat) : Nat := ((p.rex.getD 0).testBit k).toNat

def isWide (p : Prefixes) : Bool := p.rexBit 3 == 1

end Prefixes

/-- The prefixes with one more; nothing if the byte is no prefix. -/
def addPrefix? (w : Width) (p : Prefixes) (n : Nat) : Option Prefixes :=
  if n = 0x66 then some { p with operandSize := true, rex := none }
  else if n = 0x67 then some { p with addressSize := true, rex := none }
  else if n = 0xf0 then some { p with lock := true, rex := none }
  else if n = 0xf2 then some { p with rep := some .unequal, rex := none }
  else if n = 0xf3 then some { p with rep := some .equal, rex := none }
  else if n = 0x26 then some { p with segment := some 0, rex := none }
  else if n = 0x2e then some { p with segment := some 1, rex := none }
  else if n = 0x36 then some { p with segment := some 2, rex := none }
  else if n = 0x3e then some { p with segment := some 3, rex := none }
  else if n = 0x64 then some { p with segment := some 4, rex := none }
  else if n = 0x65 then some { p with segment := some 5, rex := none }
  else if w = .bits64 ∧ 0x40 ≤ n ∧ n < 0x50 then some { p with rex := some (n - 0x40) }
  else none

/-- Legacy and REX prefixes in any order. A REX prefix counts only right before the opcode. -/
def prefixes (w : Width) (p : Prefixes) : Bytes → Prefixes × Bytes
  | [] => (p, [])
  | b :: r =>
    match addPrefix? w p b.toNat with
    | some p => prefixes w p r
    | none => (p, b :: r)

structure Context where
  width : Width
  prefixes : Prefixes
  /-- The opcode byte whose low bits may name a register. -/
  opcode : Nat
  modrm : Nat
  operandSize : Nat

namespace Context

def addressSize (w : Width) (p : Prefixes) : Nat :=
  match w with
  | .bits32 => if p.addressSize then 2 else 4
  | .bits64 => if p.addressSize then 4 else 8

def size (c : Context) : Span → Nat
  | .b => 1
  | .w => 2
  | .d => 4
  | .q => 8
  | .v => c.operandSize
  | .p =>
    match c.width with
    | .bits32 => c.operandSize
    | .bits64 => 8

def general (c : Context) (s : Span) (n : Nat) : Register :=
  match c.size s with
  | 1 => if c.prefixes.rex.isSome then ⟨.byte, n⟩ else ⟨.oldByte, n⟩
  | 2 => ⟨.word, n⟩
  | 8 => ⟨.qword, n⟩
  | _ => ⟨.dword, n⟩

def regBits (c : Context) : Nat := c.modrm / 8 % 8

def regNumber (c : Context) : Nat := c.regBits + 8 * c.prefixes.rexBit 2

def rmNumber (c : Context) : Nat := c.modrm % 8 + 8 * c.prefixes.rexBit 0

def lowNumber (c : Context) : Nat := c.opcode % 8 + 8 * c.prefixes.rexBit 0

def isRegister (c : Context) : Bool := c.modrm / 64 == 3

def address (c : Context) (n : Nat) : Register :=
  match addressSize c.width c.prefixes with
  | 2 => ⟨.word, n⟩
  | 8 => ⟨.qword, n⟩
  | _ => ⟨.dword, n⟩

end Context

def signed (size n : Nat) : Int := 
  if n < 1 <<< (8 * size - 1) then n else (n : Int) - (1 <<< (8 * size) : Nat)

/-- A number at the front, and what follows it. -/
def take? (size : Nat) (bs : Bytes) : Option (Nat × Bytes) :=
  (range? bs 0 size).map fun n => (number .little n, bs.drop size)

def displacement? (size : Nat) (bs : Bytes) : Option (Int × Bytes) :=
  if size = 0 then some (0, bs) else (take? size bs).map fun (n, r) => (signed size n, r)

/-- Base and index of the eight forms with 16-bit addresses. -/
def oldForms : List (Nat × Option Nat) :=
  [(3, some 6), (3, some 7), (5, some 6), (5, some 7), (6, none), (7, none), (5, none), (3, none)]

def oldMemory? (c : Context) (bs : Bytes) : Option (Memory × Bytes) := do
  let mode := c.modrm / 64
  let k := c.modrm % 8
  let absolute := mode == 0 && k == 6
  let (d, r) ← displacement? (if absolute then 2 else if mode = 3 then 0 else mode) bs
  let (base, index) := oldForms.getD k (0, none)
  let register (n : Nat) : Register := ⟨.word, n⟩
  pure (⟨c.prefixes.segment, if absolute then none else some (register base),
    if absolute then none else index.map fun n => (register n, 1), d, false, 2⟩, r)

/-- The memory that the ModRM byte names, and the bytes after it. -/
def memory? (c : Context) (bs : Bytes) : Option (Memory × Bytes) :=
  let addressSize := Context.addressSize c.width c.prefixes
  let mode := c.modrm / 64
  let size := if mode = 1 then 1 else if mode = 2 then 4 else 0
  if addressSize = 2 then oldMemory? c bs
  else if c.modrm % 8 = 4 then do
    let (sib, r) ← take? 1 bs
    let index := sib / 8 % 8 + 8 * c.prefixes.rexBit 1
    let noBase := sib % 8 == 5 && mode == 0
    let (d, r) ← displacement? (if noBase then 4 else size) r
    pure (⟨c.prefixes.segment,
      if noBase then none else some (c.address (sib % 8 + 8 * c.prefixes.rexBit 0)),
      if index = 4 then none else some (c.address index, 1 <<< (sib / 64)), d, false, addressSize⟩, r)
  else
    let noBase := c.modrm % 8 == 5 && mode == 0
    do
      let (d, r) ← displacement? (if noBase then 4 else size) bs
      pure (⟨c.prefixes.segment, if noBase then none else some (c.address c.rmNumber), none, d,
        noBase && c.width = .bits64, addressSize⟩, r)

def Place.usesModrm : Place → Bool
  | .rm _ | .rmRegister _ | .mem _ | .reg _ | .xmm | .xmmRm _ | .mmx | .mmxRm | .segReg | .control
  | .debug => true
  | _ => false

def Entry.usesModrm (e : Entry) : Bool := e.extended || e.places.any (·.usesModrm)

def stringMemory (c : Context) (segment : Option Nat) (n : Nat) : Memory :=
  ⟨segment, some (c.address n), none, 0, false, Context.addressSize c.width c.prefixes⟩

def relativeSize (c : Context) : Nat :=
  match c.width with
  | .bits32 => c.operandSize
  | .bits64 => 8

/-- The operand at a place, given the memory that the ModRM byte names, and the bytes after it. -/
def operand? (c : Context) (m : Option Memory) (bs : Bytes) : Place → Option (Operand × Bytes)
  | .rm s =>
    match m with
    | some m => some (.memory m (c.size s), bs)
    | none => some (.register (c.general s c.rmNumber), bs)
  | .rmRegister s =>
    match m with
    | some _ => none
    | none => some (.register (c.general s c.rmNumber), bs)
  | .mem s => m.map fun m => (.memory m ((s.map c.size).getD 0), bs)
  | .reg s => some (.register (c.general s c.regNumber), bs)
  | .low s => some (.register (c.general s c.lowNumber), bs)
  | .acc s => some (.register (c.general s 0), bs)
  | .xmm => some (.register ⟨.xmm, c.regNumber⟩, bs)
  | .xmmRm size =>
    match m with
    | some m => some (.memory m size, bs)
    | none => some (.register ⟨.xmm, c.rmNumber⟩, bs)
  | .mmx => some (.register ⟨.mm, c.regBits⟩, bs)
  | .mmxRm =>
    match m with
    | some m => some (.memory m 8, bs)
    | none => some (.register ⟨.mm, c.modrm % 8⟩, bs)
  | .segReg => if c.regBits < 6 then some (.register ⟨.segment, c.regBits⟩, bs) else none
  | .control => some (.register ⟨.control, c.regNumber⟩, bs)
  | .debug => some (.register ⟨.debug, c.regNumber⟩, bs)
  | .segment n => some (.register ⟨.segment, n⟩, bs)
  | .cl => some (.register ⟨.oldByte, 1⟩, bs)
  | .dx => some (.register ⟨.word, 2⟩, bs)
  | .one => some (.immediate 1 1, bs)
  | .immz => do
    let size := min c.operandSize 4
    let (n, r) ← take? size bs
    pure (.immediate (if c.operandSize = 8 then signed size n else n) c.operandSize, r)
  | .immv => do
    let (n, r) ← take? c.operandSize bs
    pure (.immediate n c.operandSize, r)
  | .imm8 => do
    let (n, r) ← take? 1 bs
    pure (.immediate n 1, r)
  | .imm16 => do
    let (n, r) ← take? 2 bs
    pure (.immediate n 2, r)
  | .imm8s => do
    let (n, r) ← take? 1 bs
    pure (.immediate (signed 1 n) c.operandSize, r)
  | .near => do
    let size := min (relativeSize c) 4
    let (n, r) ← take? size bs
    pure (.branch (signed size n) false (relativeSize c), r)
  | .short => do
    let (n, r) ← take? 1 bs
    pure (.branch (signed 1 n) true (relativeSize c), r)
  | .far => do
    let (offset, r) ← take? c.operandSize bs
    let (selector, r) ← take? 2 r
    pure (.far selector offset, r)
  | .offset s => do
    let size := Context.addressSize c.width c.prefixes
    let (n, r) ← take? size bs
    pure (.memory ⟨c.prefixes.segment, none, none, n, false, size⟩ (c.size s), r)
  | .source s => some (.memory (stringMemory c c.prefixes.segment 6) (c.size s), bs)
  | .target s => some (.memory (stringMemory c none 7) (c.size s), bs)

def operands? (c : Context) (m : Option Memory) : List Place → Bytes → Option (List Operand × Bytes)
  | [], bs => some ([], bs)
  | p :: ps, bs => do
    let (o, r) ← operand? c m bs p
    let (os, r) ← operands? c m ps r
    pure (o :: os, r)

structure Coded where
  width : Width
  prefixes : Prefixes
  entry : Entry
  operandSize : Nat
  operands : List Operand
  size : Nat

def selector (p : Prefixes) : Selector :=
  match p.rep with
  | some .equal => .repeated
  | some .unequal => .unequal
  | none => if p.operandSize then .operandSize else .none

def operandSizeOf (w : Width) (p : Prefixes) (wide : Bool) : Nat :=
  if p.isWide then 8
  else if p.operandSize then 2
  else if wide ∧ w = .bits64 then 8
  else 4

/-- The entry that an opcode has with the byte behind it, the opcode's last byte, and the byte behind it
if it is a ModRM byte; zero stands for none. -/
def chosen? (entry : Nat → Option Entry) (opcode : Nat) (bs : Bytes) :
    Option ((Entry × Nat × Nat) × Bytes) := do
  let e ← entry (byteAt bs 0)
  if e.usesModrm then (take? 1 bs).map fun (modrm, r) => ((e, opcode, modrm), r)
  else some ((e, opcode, 0), bs)

/-- What the opcode at the front chooses. -/
def opening? (w : Width) (p : Prefixes) : Bytes → Option ((Entry × Nat × Nat) × Bytes)
  | [] => none
  | b :: r =>
    let n := b.toNat
    if n = 0x0f then
      match r with
      | [] => none
      | b :: r => chosen? (twoByteMap (selector p) b.toNat) b.toNat r
    else if n = 0x90 ∧ p.rexBit 0 = 0 then
      chosen? (fun _ => some (idle (selector p) (operandSizeOf w p false))) n r
    else chosen? (oneByteMap (w = .bits64) (Context.addressSize w p) n) n r

/-- The memory that the instruction names, if it names any. -/
def named? (c : Context) (e : Entry) (bs : Bytes) : Option (Option Memory × Bytes) :=
  if e.usesModrm ∧ !c.isRegister then (memory? c bs).map fun (m, r) => (some m, r) else some (none, bs)

/-- What follows the prefixes: the entry, the operand size and the operands. -/
def body? (w : Width) (p : Prefixes) (bs : Bytes) :
    Option ((Entry × Nat × List Operand) × Bytes) := do
  let ((e, opcode, modrm), r) ← opening? w p bs
  let size := operandSizeOf w p e.wide
  let c : Context := ⟨w, p, opcode, modrm, size⟩
  let (m, r) ← named? c e r
  let (os, r) ← operands? c m e.places r
  pure ((e, size, os), r)

def isMemory : Operand → Bool
  | .memory .. => true
  | _ => false

def maxSize : Nat := 15

/-- The instruction at the front, if there is one. -/
def decode? (w : Width) (bs : Bytes) : Option Coded := do
  let (p, r) := prefixes w {} bs
  let ((e, size, os), r) ← body? w p r
  let length := bs.length - r.length
  if length > maxSize then none
  else if p.lock ∧ !(e.lockable && os.head?.any isMemory) then none
  else pure ⟨w, p, e, size, os, length⟩

end FunctionSlice.X86
