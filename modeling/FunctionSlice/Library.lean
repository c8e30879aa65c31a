import FunctionSlice.Sweep

/-! Readers that are made of an instruction library. A library tells of the instruction at the front of
some bytes how long it is and how it is written. The tight one writes a return to another segment in words
of which the last is no return, so its reader has one word in their place. -/

namespace FunctionSlice

/-- What a library tells of an instruction. -/
structure Finding where
  size : Nat
  /-- It is a return to another segment. -/
  far : Bool
  /-- Such a return pops eight bytes at a time. -/
  wide : Bool
  /-- The prefixes that are shown, and the name. -/
  words : String
  operands : String

/-- An instruction library, asked about bytes and where they are. Of bytes that are no instruction it tells
nothing. -/
abbrev Library := Width → Word → Bytes → Option Finding

namespace Finding

/-- What a return to another segment is called in place of the tight library's words. -/
def farReturn? (f : Finding) : Option String :=
  if f.far then some (if f.wide then "retfq" else "retf") else none

def mnemonic (f : Finding) : Dialect → String
  | .tight => f.farReturn?.getD f.words
  | .spaced => f.words

def reading (f : Finding) (d : Dialect) : Reading := ⟨f.size, f.mnemonic d, f.operands⟩

end Finding

namespace Library

/-- The reader of single instructions that the library of a dialect gives. -/
def reader (find : Library) (d : Dialect) : Reader :=
  fun w address bs => (find w address bs).map (·.reading d)

def decoderName : Dialect → String
  | .tight => "iced-x86"
  | .spaced => "capstone"

/-- Only the tight dialect says where it stopped. -/
def decoder (find : Library) (d : Dialect) : Decoder :=
  (find.reader d).decoder (decoderName d) (d = .tight)

end Library

end FunctionSlice
