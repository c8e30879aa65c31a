import FunctionSlice.Mangled.LegacyPath
import FunctionSlice.Text.Hex

/-! The newer scheme for paths, a grammar with generic arguments, types, constants and references back
into the symbol. A symbol is read and shown at once: the first malformed place is shown as such, and
what would follow it as a question mark. A symbol is accepted when reading it, with nothing shown and
no reference followed, meets no malformed place. -/

namespace FunctionSlice.Mangled.V0Path

inductive Broken where
  | invalid
  | tooDeep

def Broken.text : Broken → String
  | invalid => "\x7binvalid syntax\x7d"
  | tooDeep => "\x7brecursion limit reached\x7d"

structure Cursor where
  rest : List Char
  depth : Nat

structure State where
  symbol : List Char
  cursor : Except Broken Cursor
  muted : Bool
  /-- Lifetimes bound around this place. -/
  bound : Nat
  /-- What is shown so far, last character first. -/
  shown : List Char

abbrev Show := StateM State

abbrev Read (α : Type) := Cursor → Except Broken (α × Cursor)

def maxDepth : Nat := 500

namespace Read

def next : Read Char := fun c =>
  match c.rest with
  | [] => .error .invalid
  | x :: r => .ok (x, { c with rest := r })

def eat (x : Char) : Cursor → Bool × Cursor := fun c =>
  match c.rest with
  | y :: r => if x == y then (true, { c with rest := r }) else (false, c)
  | [] => (false, c)

def deeper : Read Unit := fun c =>
  if c.depth + 1 > maxDepth then .error .tooDeep else .ok ((), { c with depth := c.depth + 1 })

def digit62? (c : Char) : Option Nat :=
  if c.isDigit then some (c.toNat - 48)
  else if c.isLower then some (c.toNat - 87)
  else if c.isUpper then some (c.toNat - 29)
  else none

/-- A number in base 62 ended by an underscore; the underscore alone is zero. -/
def integer62 : Read Nat := fun c =>
  let ds := c.rest.takeWhile (· != '_')
  match c.rest.dropWhile (· != '_'), ds.mapM digit62? with
  | _ :: r, some vs =>
    let n := if ds.isEmpty then 0 else vs.foldl (fun n d => n * 62 + d) 0 + 1
    if n < 0x1_0000_0000_0000_0000 then .ok (n, { c with rest := r }) else .error .invalid
  | _, _ => .error .invalid

def optInteger62 (tag : Char) : Read Nat := fun c =>
  match eat tag c with
  | (false, c) => .ok (0, c)
  | (true, c) => do
    let (n, c) ← integer62 c
    if n + 1 < 0x1_0000_0000_0000_0000 then .ok (n + 1, c) else .error .invalid

def disambiguator : Read Nat := optInteger62 's'

/-- An upper-case namespace is shown, a lower-case one is not. -/
def namespaceTag : Read (Option Char) := fun c => do
  let (x, c) ← next c
  if x.isUpper then .ok (some x, c) else if x.isLower then .ok (none, c) else .error .invalid

def hexNibbles : Read (List Char) := fun c =>
  let isNibble (x : Char) : Bool := x.isDigit || ('a' ≤ x && x ≤ 'f')
  match c.rest.dropWhile isNibble with
  | '_' :: r => .ok (c.rest.takeWhile isNibble, { c with rest := r })
  | _ => .error .invalid

end Read

/-- An identifier: its ASCII part and, for other characters, a Punycode part. -/
structure Ident where
  ascii : List Char
  puny : List Char

namespace Ident

def isEmpty (i : Ident) : Bool := i.ascii.isEmpty && i.puny.isEmpty

def splitLast (cs : List Char) : List Char × List Char :=
  if cs.contains '_' then
    ((cs.reverse.dropWhile (· != '_')).tail.reverse, (cs.reverse.takeWhile (· != '_')).reverse)
  else ([], cs)

def read : Read Ident := fun c =>
  let (puny, c) := Read.eat 'u' c
  match c.rest with
  | d :: r =>
    if !d.isDigit then .error .invalid
    else
      let (n, r) :=
        if d == '0' then (0, r)
        else (LegacyPath.number (d :: r.takeWhile Char.isDigit), r.dropWhile Char.isDigit)
      let r := match r with
        | '_' :: r => r
        | r => r
      if n > r.length then .error .invalid
      else
        let text := r.take n
        let c := { c with rest := r.drop n }
        if puny then
          let (ascii, code) := splitLast text
          if code.isEmpty then .error .invalid else .ok (⟨ascii, code⟩, c)
        else .ok (⟨text, []⟩, c)
  | [] => .error .invalid

structure Punycode where
  bias : Nat
  damp : Nat
  place : Nat
  code : Nat
  out : List Char

/-- One generalised variable-length integer: its value and the digits after it. -/
def punyDelta : List Char → Nat → Nat → Nat → Nat → Option (Nat × List Char)
  | [], _, _, _, _ => none
  | d :: r, bias, k, w, delta =>
    let k := k + 36
    let t := min (max (k - bias) 1) 26
    let digit :=
      if d.isLower then some (d.toNat - 97) else if d.isDigit then some (d.toNat - 22) else none
    match digit with
    | none => none
    | some v =>
      let delta := delta + v * w
      if v < t then some (delta, r) else punyDelta r bias k (w * (36 - t)) delta

def adapt (fuel delta k : Nat) : Nat :=
  match fuel with
  | 0 => k + 36 * delta / (delta + 38)
  | n + 1 => if delta > 35 * 26 / 2 then adapt n (delta / 35) (k + 36) else k + 36 * delta / (delta + 38)

/-- Each step inserts one character; there are no more steps than digits. -/
def punyLoop : Nat → List Char → Punycode → Option (List Char)
  | _, [], p => some p.out
  | 0, _, _ => none
  | n + 1, cs, p => do
    let (delta, rest) ← punyDelta cs p.bias 0 1 0
    let len := p.out.length + 1
    let place := p.place + delta
    let code := p.code + place / len
    let pos := place % len
    if !code.isValidChar then none
    let d := delta / p.damp
    let bias := adapt 64 (d + d / len) 0
    punyLoop n rest ⟨bias, 2, pos + 1, code, p.out.take pos ++ Char.ofNat code :: p.out.drop pos⟩

def puny? (i : Ident) : Option (List Char) :=
  if i.puny.isEmpty then none
  else do
    let out ← punyLoop i.puny.length i.puny ⟨72, 700, 0, 0x80, i.ascii⟩
    if out.length ≤ 128 then some out else none

def text (i : Ident) : List Char :=
  match i.puny? with
  | some cs => cs
  | none =>
    if i.puny.isEmpty then i.ascii
    else
      "punycode\x7b".toList ++ (if i.ascii.isEmpty then [] else i.ascii ++ ['-']) ++ i.puny ++
        "\x7d".toList

end Ident

def put (cs : List Char) : Show Unit :=
  modify fun s => if s.muted then s else { s with shown := cs.reverse ++ s.shown }

def say (t : String) : Show Unit := put t.toList

/-- Reads and goes on with what was read; a malformed place is shown once. -/
def reading {α : Type} (p : Read α) (k : α → Show Unit) : Show Unit := do
  match (← get).cursor with
  | .error _ => say "?"
  | .ok c =>
    match p c with
    | .error e =>
      say e.text
      modify fun s => { s with cursor := .error e }
    | .ok (a, c) =>
      modify fun s => { s with cursor := .ok c }
      k a

def invalid : Show Unit := do
  say Broken.invalid.text
  modify fun s => { s with cursor := .error .invalid }

def eat (x : Char) : Show Bool := do
  match (← get).cursor with
  | .error _ => pure false
  | .ok c =>
    let (found, c) := Read.eat x c
    modify fun s => { s with cursor := .ok c }
    pure found

def leave : Show Unit :=
  modify fun s => { s with cursor := s.cursor.map fun c => { c with depth := c.depth - 1 } }

def mute (p : Show Unit) : Show Unit := do
  let muted := (← get).muted
  modify fun s => { s with muted := true }
  p
  modify fun s => { s with muted := muted }

/-- The place that a reference means, which must lie before the reference. -/
def referTo (symbol : List Char) : Read Cursor := fun c => do
  let here := symbol.length - c.rest.length - 1
  let (i, c) ← Read.integer62 c
  if i < here then
    let (_, deep) ← Read.deeper c
    pure (⟨symbol.drop i, deep.depth⟩, c)
  else .error .invalid

/-- A reference is followed only when something is shown. -/
def backReference (p : Show Unit) : Show Unit := do
  let s ← get
  reading (referTo s.symbol) fun target => do
    if !s.muted then
      let back := (← get).cursor
      modify fun s => { s with cursor := .ok target }
      p
      modify fun s => { s with cursor := back }

def basicType? : Char → Option String
  | 'b' => some "bool"
  | 'c' => some "char"
  | 'e' => some "str"
  | 'u' => some "()"
  | 'a' => some "i8"
  | 's' => some "i16"
  | 'l' => some "i32"
  | 'x' => some "i64"
  | 'n' => some "i128"
  | 'i' => some "isize"
  | 'h' => some "u8"
  | 't' => some "u16"
  | 'm' => some "u32"
  | 'y' => some "u64"
  | 'o' => some "u128"
  | 'j' => some "usize"
  | 'f' => some "f32"
  | 'd' => some "f64"
  | 'z' => some "!"
  | 'p' => some "_"
  | 'v' => some "..."
  | _ => none

/-- Bound lifetimes are lettered from the outermost binder on. -/
def lifetime (index : Nat) : Show Unit := do
  if !(← get).muted then
    if index == 0 then say "'_"
    else
      let bound := (← get).bound
      if index ≤ bound then
        let depth := bound - index
        if depth < 26 then put ['\'', Char.ofNat (97 + depth)]
        else say ("'_" ++ toString depth)
      else invalid

def inBinder (p : Show Unit) : Show Unit :=
  reading (Read.optInteger62 'G') fun count => do
    if (← get).muted then p
    else
      if count > 0 then
        say "for<"
        for i in List.range count do
          if i > 0 then say ", "
          modify fun s => { s with bound := s.bound + 1 }
          lifetime 1
        say "> "
      p
      modify fun s => { s with bound := s.bound - count }

/-- What a separated list is made of. -/
inductive Item where
  | generic
  | type
  | value
  | bounds
  | field

def hexValue (ds : List Char) : Nat := (Text.hexNumber? (1 <<< (4 * (ds.length + 1))) ds).getD 0

def unsignedLiteral : Show Unit :=
  reading Read.hexNibbles fun ds =>
    let digits := ds.dropWhile (· == '0')
    if digits.length ≤ 16 then say (toString (hexValue digits)) else put ("0x".toList ++ ds)

def quotedChar (c : Char) : List Char :=
  if c == '\'' then "'\\''".toList
  else if c == '\\' then "'\\\\'".toList
  else if c == '\n' then "'\\n'".toList
  else if c == '\r' then "'\\r'".toList
  else if c == '\t' then "'\\t'".toList
  else if c.toNat == 0 then "'\\0'".toList
  else if LegacyPath.isControl c.toNat then
    "'\\u\x7b".toList ++ Text.hexDigits c.toNat ++ "\x7d'".toList
  else ['\'', c, '\'']

mutual

def path : Nat → Bool → Show Unit
  | 0, _ => invalid
  | n + 1, inValue =>
    reading Read.deeper fun _ => reading Read.next fun tag => do
      match tag with
      | 'C' => reading Read.disambiguator fun _ => reading Ident.read fun name => do
          put name.text
          leave
      | 'N' => reading Read.namespaceTag fun space => do
          path n inValue
          if (← get).cursor matches .error _ then say "::"
          reading Read.disambiguator fun dis => reading Ident.read fun name => do
            match space with
            | some c =>
              say "::\x7b"
              if c == 'C' then say "closure" else if c == 'S' then say "shim" else put [c]
              if !name.isEmpty then
                say ":"
                put name.text
              say "#"
              say (toString dis)
              say "\x7d"
            | none =>
              if !name.isEmpty then
                say "::"
                put name.text
            leave
      | 'M' => reading Read.disambiguator fun _ => do
          mute (path n false)
          say "<"
          type n
          say ">"
          leave
      | 'X' => reading Read.disambiguator fun _ => do
          mute (path n false)
          say "<"
          type n
          say " as "
          path n false
          say ">"
          leave
      | 'Y' => do
          say "<"
          type n
          say " as "
          path n false
          say ">"
          leave
      | 'I' => do
          path n inValue
          if inValue then say "::"
          say "<"
          let _ ← items n .generic ", " 0
          say ">"
          leave
      | 'B' => do
          backReference (path n inValue)
          leave
      | _ => invalid

def type : Nat → Show Unit
  | 0 => invalid
  | n + 1 =>
    reading Read.next fun tag =>
      match basicType? tag with
      | some t => say t
      | none => reading Read.deeper fun _ => do
          match tag with
          | 'R' | 'Q' => do
            say "&"
            let tail : Show Unit := do
              if tag == 'Q' then say "mut "
              type n
              leave
            if ← eat 'L' then
              reading Read.integer62 fun lt => do
                if lt != 0 then
                  lifetime lt
                  say " "
                tail
            else tail
          | 'P' => do
            say "*const "
            type n
            leave
          | 'O' => do
            say "*mut "
            type n
            leave
          | 'A' => do
            say "["
            type n
            say "; "
            value n true
            say "]"
            leave
          | 'S' => do
            say "["
            type n
            say "]"
            leave
          | 'T' => do
            say "("
            let count ← items n .type ", " 0
            if count == 1 then say ","
            say ")"
            leave
          | 'F' => do
            inBinder do
              let isUnsafe ← eat 'U'
              let rest : Show Unit := do
                say "fn("
                let _ ← items n .type ", " 0
                say ")"
                if !(← eat 'u') then
                  say " -> "
                  type n
              let head (abi : Option (List Char)) : Show Unit := do
                if isUnsafe then say "unsafe "
                match abi with
                | some a =>
                  say "extern \""
                  put (a.map fun c => if c == '_' then '-' else c)
                  say "\" "
                | none => pure ()
                rest
              if ← eat 'K' then
                if ← eat 'C' then head (some ['C'])
                else reading Ident.read fun abi =>
                  if abi.ascii.isEmpty || !abi.puny.isEmpty then invalid else head (some abi.ascii)
              else head none
            leave
          | 'D' => do
            say "dyn "
            inBinder do
              let _ ← items n .bounds " + " 0
            if ← eat 'L' then
              reading Read.integer62 fun lt => do
                if lt != 0 then
                  say " + "
                  lifetime lt
                leave
            else invalid
          | 'B' => do
            backReference (type n)
            leave
          | _ => do
            modify fun s => { s with cursor := s.cursor.map fun c => { c with rest := tag :: c.rest } }
            path n false
            leave

def value : Nat → Bool → Show Unit
  | 0, _ => invalid
  | n + 1, inValue =>
    reading Read.next fun tag => reading Read.deeper fun _ => do
      let braced (p : Show Unit) : Show Unit := do
        if !inValue then say "\x7b"
        p
        if !inValue then say "\x7d"
      match tag with
      | 'p' => do
        say "_"
        leave
      | 'h' | 't' | 'm' | 'y' | 'o' | 'j' => do
        unsignedLiteral
        leave
      | 'a' | 's' | 'l' | 'x' | 'n' | 'i' => do
        if ← eat 'n' then say "-"
        unsignedLiteral
        leave
      | 'b' => reading Read.hexNibbles fun ds => do
          match hexValue ds with
          | 0 => say "false"
          | 1 => say "true"
          | _ => invalid
          leave
      | 'c' => reading Read.hexNibbles fun ds => do
          let v := hexValue ds
          if v.isValidChar then put (quotedChar (Char.ofNat v)) else invalid
          leave
      | 'R' | 'Q' => do
        braced do
          say "&"
          if tag == 'Q' then say "mut "
          value n true
        leave
      | 'A' => do
        braced do
          say "["
          let _ ← items n .value ", " 0
          say "]"
        leave
      | 'T' => do
        braced do
          say "("
          let count ← items n .value ", " 0
          if count == 1 then say ","
          say ")"
        leave
      | 'V' => do
        braced do
          path n true
          reading Read.next fun kind => do
            match kind with
            | 'U' => pure ()
            | 'T' =>
              say "("
              let _ ← items n .value ", " 0
              say ")"
            | 'S' =>
              say " \x7b "
              let _ ← items n .field ", " 0
              say " \x7d"
            | _ => invalid
        leave
      | 'B' => do
        backReference (value n inValue)
        leave
      | _ => invalid

def item : Nat → Item → Show Unit
  | 0, _ => invalid
  | n + 1, .generic => do
    if ← eat 'L' then reading Read.integer62 lifetime
    else if ← eat 'K' then value n false
    else type n
  | n + 1, .type => type n
  | n + 1, .value => value n true
  | n + 1, .bounds => bounds n
  | n + 1, .field =>
    reading Read.disambiguator fun _ => reading Ident.read fun name => do
      put name.text
      say ": "
      value n true

/-- A trait with the generic arguments and the associated types bound in it. -/
def bounds : Nat → Show Unit
  | 0 => invalid
  | n + 1 => do
    let opened ← openPath n
    let opened ← assignments n opened
    if opened then say ">"

def assignments : Nat → Bool → Show Bool
  | 0, opened => pure opened
  | n + 1, opened => do
    if ← eat 'p' then
      if opened then say ", " else say "<"
      reading Ident.read fun name => do
        put name.text
        say " = "
        type n
      assignments n true
    else pure opened

/-- A path whose generic arguments, if it has any, are left open. -/
def openPath : Nat → Show Bool
  | 0 => do
    invalid
    pure false
  | n + 1 => do
    if ← eat 'B' then
      let before := (← get).shown.length
      backReference do
        let opened ← openPath n
        if opened then put [Char.ofNat 0]
      let s ← get
      match s.shown with
      | c :: r =>
        if s.shown.length > before && c.toNat == 0 then
          set { s with shown := r }
          pure true
        else pure false
      | [] => pure false
    else if ← eat 'I' then
      path n false
      say "<"
      let _ ← items n .generic ", " 0
      pure true
    else
      path n false
      pure false

/-- The items up to the closing `E`, and how many they are. -/
def items : Nat → Item → String → Nat → Show Nat
  | 0, _, _, count => pure count
  | n + 1, k, sep, count => do
    if (← get).cursor matches .error _ then pure count
    else if ← eat 'E' then pure count
    else
      if count > 0 then say sep
      item n k
      items n k sep (count + 1)

end

def prefixed? : List Char → Option (List Char)
  | '_' :: 'R' :: c :: r => some (c :: r)
  | 'R' :: c :: r => some (c :: r)
  | '_' :: '_' :: 'R' :: c :: r => some (c :: r)
  | _ => none

def start (symbol : List Char) (rest : List Char) (muted : Bool) : State :=
  ⟨symbol, .ok ⟨rest, 0⟩, muted, 0, []⟩

/-- Enough for every nesting that is allowed and every list that fits into the symbol. -/
def fuel (symbol : List Char) : Nat := 4 * maxDepth + 4 * symbol.length

/-- The text after one well-formed path. -/
def afterPath? (symbol rest : List Char) : Option (List Char) :=
  match ((path (fuel symbol) false).run (start symbol rest true)).2.cursor with
  | .ok c => some c.rest
  | .error _ => none

def demangle? (cs : List Char) : Option (List Char × List Char) := do
  let symbol ← prefixed? cs
  if !(symbol.headD ' ').isUpper || !symbol.all LegacyPath.isAscii then none
  let rest ← afterPath? symbol symbol
  let rest ← if (rest.headD ' ').isUpper then afterPath? symbol rest else some rest
  let shown := ((path (fuel symbol) true).run (start symbol symbol false)).2.shown
  pure (shown.reverse, rest)

end FunctionSlice.Mangled.V0Path
