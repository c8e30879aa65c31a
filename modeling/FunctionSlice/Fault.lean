import FunctionSlice.Text.Hex

/-! Everything that can go wrong while a function is looked up, read and decoded, by cause; the
wording is a function of the cause. -/

namespace FunctionSlice

inductive SystemError where
  | missing
  | notADirectory
  | invalidSeek
  | other (text : String)
  deriving DecidableEq

def SystemError.message : SystemError → String
  | missing => "No such file or directory (os error 2)"
  | notADirectory => "Not a directory (os error 20)"
  | invalidSeek => "Invalid argument (os error 22)"
  | other text => text

inductive Fault where
  /-- A name stands for no symbol or for several. -/
  | notUnique (query : String) (hits : Nat)
  /-- The file ends inside the window. -/
  | truncated (offset : Word) (requested read : Nat)
  /-- The window does not start with an instruction. -/
  | undecodable (rva : Word) (length : Word)
  | outsideSection (rva : Word) (name : String)
  | noSection (name : String)
  | badFormat (cause : String)
  | foreignMachine (name : String)
  | noDecoder (cause : String)
  | badMask (cause : String)
  | badConfig (cause : String)
  | badInput (cause : String)
  | system (cause : SystemError)
  deriving DecidableEq

def Fault.message : Fault → String
  | notUnique q n =>
    "Symbol query '" ++ q ++ "' matched " ++ toString n ++ " symbols (expected exactly one)"
  | truncated o n r =>
    "Truncated read at offset " ++ Text.hex o ++ ": requested " ++ toString n ++ " bytes, got " ++
      toString r
  | undecodable rva n => "Undecodable code at RVA " ++ Text.hex rva ++ " (" ++ toString n.toNat ++ " bytes)"
  | outsideSection rva name => "RVA " ++ Text.hex rva ++ " is outside section " ++ name
  | noSection name => "Section not found: " ++ name
  | badFormat c => "Invalid binary format: " ++ c
  | foreignMachine n => "Unsupported architecture: " ++ n
  | noDecoder c => "Unsupported backend: " ++ c
  | badMask c => "Invalid symbol mask: " ++ c
  | badConfig c => "Invalid configuration: " ++ c
  | badInput c => "Invalid input: " ++ c
  | system e => "I/O error: " ++ e.message

/-- What a bounded read reports to a caller that reads a window by itself. -/
inductive ReadFault where
  | truncated (offset : Word) (requested read : Nat)
  | notAFile (path : String)
  | system (cause : SystemError)
  deriving DecidableEq

namespace ReadFault

def message : ReadFault → String
  | truncated o n r =>
    "Read at offset " ++ Text.hex o ++ " returned " ++ toString r ++ " bytes, fewer than the " ++
      toString n ++ " requested."
  | notAFile path => path ++ " is not a regular file."
  | system _ => "An underlying I/O error occurred."

def toFault : ReadFault → Fault
  | truncated o n r => .truncated o n r
  | notAFile path => .badInput (path ++ " is not a regular file")
  | system e => .system e

end ReadFault

end FunctionSlice
