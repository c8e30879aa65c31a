import FunctionSlice.Event
import FunctionSlice.Fault

/-! Bounded reads. A source is its bytes and a label for the log; open, it also has the place where its next
byte comes from. A read goes to the place of its window and calls for bytes until it has them all or a call
brings none: it gives exactly the bytes of its window or reports how many there were. It asks for a buffer
of the size of its window first, and one of more than `maxBuffer` bytes ends the program; `read` is what
it gives as long as there is room, `read?` tells when there cannot be. -/

namespace FunctionSlice

inductive Entry where
  | file (content : Bytes)
  | directory

/-- What each path leads to. -/
abbrev Storage := String → Except SystemError Entry

structure Source where
  label : String
  content : Bytes
  /-- The greatest offset that can be sought, if there is one. -/
  seekLimit : Option Word

namespace Source

def maxFileOffset : Word := 0x7fffffffffffffff

def ofBytes (label : String) (content : Bytes) : Source := ⟨label, content, none⟩

def ofPath (disk : Storage) (path : String) : Logged ReadFault Source :=
  match disk path with
  | .error e => Logged.fail (.system e)
  | .ok .directory => Logged.fail (.notAFile path)
  | .ok (.file content) => do
    Logged.emit (.opened path content.length)
    return ⟨path, content, some maxFileOffset⟩

def canSeek (s : Source) (offset : Word) : Bool := s.seekLimit.all (offset ≤ ·)

/-- What is made of the bytes that were there for a window. -/
def deliver (s : Source) (w : Window) (bytes : Bytes) : Logged ReadFault Bytes :=
  if bytes.length < w.length.toNat then do
    Logged.emit (.shortRead s.label w.fileOffset w.length.toNat bytes.length)
    Logged.fail (.truncated w.fileOffset w.length.toNat bytes.length)
  else do
    Logged.emit (.read s.label w.fileOffset bytes.length)
    return bytes

end Source

/-- An open source. -/
structure Handle where
  source : Source
  /-- Where the next byte comes from. -/
  position : Nat
  /-- How many calls for bytes there were. -/
  calls : Nat
  /-- The most bytes that each call brings. As long as there are any it brings one at least. -/
  pace : Nat → Nat

namespace Handle

/-- At the start of a source that brings whatever it is asked for. -/
def ofSource (s : Source) : Handle := ⟨s, 0, 0, fun _ => s.content.length⟩

/-- Goes to an offset, if it can be sought. -/
def seek? (h : Handle) (offset : Word) : Option Handle :=
  if h.source.canSeek offset then some { h with position := offset.toNat } else none

/-- One call for up to `want` bytes. -/
def pull (h : Handle) (want : Nat) : Bytes × Handle :=
  let bytes := (h.source.content.drop h.position).take (min want (max 1 (h.pace h.calls)))
  (bytes, { h with position := h.position + bytes.length, calls := h.calls + 1 })

/-- Calls for bytes until there are `want` of them or a call brings none. -/
def drain (h : Handle) (want : Nat) : Bytes × Handle :=
  if want = 0 then ([], h)
  else
    match h.pull want with
    | ([], h) => ([], h)
    | (b :: bs, h) =>
      let (rest, h) := h.drain (want - (bs.length + 1))
      (b :: bs ++ rest, h)
  termination_by want
  decreasing_by omega

/-- What a read gives, and the handle after it. One that fails to come to its place leaves it as it was. -/
def read (h : Handle) (w : Window) : Logged ReadFault Bytes × Handle :=
  match h.seek? w.fileOffset with
  | none => (Logged.fail (.system .invalidSeek), h)
  | some h =>
    let (bytes, after) := h.drain w.length.toNat
    (h.source.deliver w bytes, after)

end Handle

namespace Source

def read (s : Source) (w : Window) : Logged ReadFault Bytes := ((Handle.ofSource s).read w).1

/-- Opens a file for one read. -/
def readAt (disk : Storage) (path : String) (w : Window) : Logged ReadFault Bytes := do
  (← ofPath disk path).read w

/-- The most bytes that a buffer can have. -/
def maxBuffer : Word := 0x7fffffffffffffff

/-- The read comes to its place and asks for more than a buffer can have. -/
def overflows (s : Source) (w : Window) : Bool := s.canSeek w.fileOffset && maxBuffer < w.length

def overflowsAt (disk : Storage) (path : String) (w : Window) : Bool :=
  match (ofPath disk path).outcome with
  | .ok s => s.overflows w
  | .error _ => false

/-- The read, unless the program ends in it. -/
def read? (s : Source) (w : Window) : Option (Logged ReadFault Bytes) :=
  if s.overflows w then none else some (s.read w)

def readAt? (disk : Storage) (path : String) (w : Window) : Option (Logged ReadFault Bytes) :=
  if overflowsAt disk path w then none else some (readAt disk path w)

end Source

namespace Handle

def read? (h : Handle) (w : Window) : Option (Logged ReadFault Bytes × Handle) :=
  if h.source.overflows w then none else some (h.read w)

/-- Read after read through one handle, unless the program ends in one of them. -/
def reads? (h : Handle) : List Window → Option (List (Logged ReadFault Bytes))
  | [] => some []
  | w :: ws => do
    let (answer, h) ← h.read? w
    let answers ← h.reads? ws
    pure (answer :: answers)

end Handle

end FunctionSlice
