import FunctionSlice.Listing
import FunctionSlice.Mapping
import FunctionSlice.Resolve
import FunctionSlice.Source

/-! One function out of a module: load the module, resolve the query, map the address, read the window,
decode it and cut it at its return. The first step that fails decides the outcome, and the steps after
it are not taken. A window that no buffer can hold ends the program instead. -/

namespace FunctionSlice

structure Decoded where
  instructions : List Instruction
  /-- Where decoding stopped at bytes that are no instruction, if the decoder says so. -/
  stoppedAt : Option Nat

structure Decoder where
  name : String
  decode : Width → Word → Bytes → Decoded

abbrev Loader := String → Logged Fault (Module × SymbolSource)

/-- What a run has in hand when it comes to decoding. -/
structure Fetched where
  origin : Module
  window : Window
  bytes : Bytes

/-- The module and the window in it that a query leads to. -/
def locate (load : Loader) (c : Config) (path : String) (q : Query) :
    Logged Fault (Module × Window) := do
  let (m, symbols) ← load path
  let rva ← resolve symbols q
  let w ← m.window c.codeSection rva c.maxWindow
  return (m, w)

def fetch (load : Loader) (disk : Storage) (c : Config) (path : String) (q : Query) :
    Logged Fault Fetched := do
  let (m, w) ← locate load c path q
  let bytes ← (Source.readAt disk m.path w).mapError ReadFault.toFault
  return ⟨m, w, bytes⟩

/-- What a decoder is asked: the instructions in bytes of which the first is at `start`. -/
structure Request where
  width : Width
  start : Word
  bytes : Bytes

def Fetched.request (f : Fetched) (b : AddressBase) : Request :=
  ⟨f.origin.width, b.start f.origin.imageBase f.window.rva, f.bytes⟩

def Decoder.answer (decoder : Decoder) (r : Request) : Decoded :=
  decoder.decode r.width r.start r.bytes

/-- The listing of what was decoded at the start of a window. -/
def Listing.of (m : Module) (p : Policy) (w : Window) (decoded : List Instruction) : Listing :=
  let (kept, warning) := trim decoded p
  ⟨w.rva, m.width, m.imageBase, w, kept, warning⟩

def Decoded.events (d : Decoded) : List Event := d.stoppedAt.toList.map .stopped

def Fetched.listing (f : Fetched) (decoder : Decoder) (c : Config) : Logged Fault Listing := do
  let decoded := decoder.answer (f.request c.addressBase)
  Logged.emitAll decoded.events
  Logged.emit (.decoded decoder.name decoded.instructions.length f.window f.window.reachesEnd)
  if decoded.instructions.isEmpty then Logged.fail (.undecodable f.window.rva f.window.length)
  else
    Logged.emitAll (trimEvents decoded.instructions c.policy)
    return Listing.of f.origin c.policy f.window decoded.instructions

/-- The stages of a run, if there is a buffer for whatever the window asks for. -/
def slice (load : Loader) (decoder : Decoder) (disk : Storage) (c : Config) (path : String)
    (q : Query) : Logged Fault Listing := do
  Logged.emit (.slicing path q)
  let f ← fetch load disk c path q
  f.listing decoder c

/-- The run comes to a window that no buffer can hold. -/
def overflows (load : Loader) (disk : Storage) (c : Config) (path : String) (q : Query) : Bool :=
  match (locate load c path q).outcome with
  | .ok (m, w) => Source.overflowsAt disk m.path w
  | .error _ => false

/-- The run. The program ends in it where no buffer can hold the window. -/
def slice? (load : Loader) (decoder : Decoder) (disk : Storage) (c : Config) (path : String)
    (q : Query) : Option (Logged Fault Listing) :=
  if overflows load disk c path q then none else some (slice load decoder disk c path q)

end FunctionSlice
