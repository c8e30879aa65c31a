import FunctionSlice.Image.Coff
import FunctionSlice.Image.Elf
import FunctionSlice.Image.MachO
import FunctionSlice.Image.Pe
import FunctionSlice.Slice

/-! Modules from files: the first bytes tell the format. -/

namespace FunctionSlice

open Binary

/-- How a file that starts with these bytes is read; an error if it cannot be. -/
def Image.parse (data : Bytes) : Except String Image := do
  let magic ← need (range? data 0 16) "Could not read file magic"
  match magic with
  | 0x7f :: 0x45 :: 0x4c :: 0x46 :: 1 :: _ => Elf.parse .bits32 data
  | 0x7f :: 0x45 :: 0x4c :: 0x46 :: 2 :: _ => Elf.parse .bits64 data
  | 0xfe :: 0xed :: 0xfa :: 0xce :: _ => MachO.parse .bits32 .big data
  | 0xce :: 0xfa :: 0xed :: 0xfe :: _ => MachO.parse .bits32 .little data
  | 0xfe :: 0xed :: 0xfa :: 0xcf :: _ => MachO.parse .bits64 .big data
  | 0xcf :: 0xfa :: 0xed :: 0xfe :: _ => MachO.parse .bits64 .little data
  | 0x4d :: 0x5a :: _ =>
    match Pe.width? data with
    | some w => Pe.parse w data
    | none => throw "Unknown MS-DOS file"
  | 0 :: 0 :: 0xff :: 0xff :: 2 :: 0 :: _ => throw "Unknown anon object file"
  | _ =>
    if Coff.isObjectMachine (u16 magic 0) then Coff.parse data
    else if isKnown magic then throw "Unsupported file format"
    else throw "Unknown file magic"
where
  /-- Formats that are told apart and not read: archives, import stubs, files for several machines,
  shared caches and web assembly. -/
  isKnown : Bytes → Bool
    | 0x21 :: 0x3c :: 0x61 :: 0x72 :: 0x63 :: 0x68 :: 0x3e :: 0x0a :: _ => true
    | 0x21 :: 0x3c :: 0x74 :: 0x68 :: 0x69 :: 0x6e :: 0x3e :: 0x0a :: _ => true
    | 0x64 :: 0x79 :: 0x6c :: 0x64 :: 0x5f :: 0x76 :: 0x31 :: 0x20 :: _ => true
    | 0xca :: 0xfe :: 0xba :: 0xbe :: _ => true
    | 0xca :: 0xfe :: 0xba :: 0xbf :: _ => true
    | 0 :: 0 :: 0xff :: 0xff :: 0 :: 0 :: _ => true
    | 0 :: 0x61 :: 0x73 :: 0x6d :: _ :: _ :: 0 :: 0 :: _ => true
    | _ => false

def parseModule (path : String) (data : Bytes) : Logged Fault (Module × SymbolTable) :=
  match Image.parse data with
  | .ok o => o.load path
  | .error cause => Logged.fail (.badFormat cause)

def loadModule (disk : Storage) (path : String) : Logged Fault (Module × SymbolTable) :=
  match disk path with
  | .error e => Logged.fail (.system e)
  | .ok .directory => Logged.fail (.badInput (path ++ " is not a regular file"))
  | .ok (.file content) => do
    Logged.emit (.loading path content.length)
    if content.isEmpty then Logged.fail (.badFormat "empty file") else parseModule path content

def objectLoader (disk : Storage) : Loader := fun path => do
  let (m, t) ← loadModule disk path
  return (m, t.lookup)

end FunctionSlice
