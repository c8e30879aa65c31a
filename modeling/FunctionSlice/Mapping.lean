import FunctionSlice.Event
import FunctionSlice.Fault

/-! The window of a function: from its address to the end of the section's raw bytes, and no longer than
the read cap. An address with no raw byte behind it, or with an offset beyond 64 bits, has no window. -/

namespace FunctionSlice

def Section.window? (s : Section) (rva cap : Word) : Option Window := do
  let delta ← Word.sub? rva s.virtualAddress
  let remaining ← Word.sub? s.rawSize delta
  if remaining = 0 then none
  let offset ← Word.add? s.rawOffset delta
  pure ⟨rva, offset, min remaining cap, remaining⟩

def Section.window (s : Section) (rva cap : Word) : Logged Fault Window :=
  match s.window? rva cap with
  | some w => do
    Logged.emit (.mapped s.name w)
    return w
  | none => do
    Logged.emit (.outside rva s)
    Logged.fail (.outsideSection rva s.name)

def Module.window (m : Module) (code : String) (rva cap : Word) : Logged Fault Window :=
  match m.section? code with
  | some s => s.window rva cap
  | none => Logged.fail (.noSection code)

end FunctionSlice
