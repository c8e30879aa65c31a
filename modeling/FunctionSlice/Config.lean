import FunctionSlice.Fault
import FunctionSlice.Word

/-! What a caller may choose: how much to read, in which section to look, how a return at the very
start counts, which dialect the instructions are written in and which addresses they carry. -/

namespace FunctionSlice

/-- Under `legacy` a return as the first instruction counts as no return at all; under `strict` it
ends the function. -/
inductive Policy where
  | legacy
  | strict
  deriving DecidableEq

/-- How instructions are written: `tight` joins operands by a comma and writes `0Ch`, `spaced` puts a
blank after the comma and writes `0xc`. -/
inductive Dialect where
  | tight
  | spaced
  deriving DecidableEq

inductive AddressBase where
  | relative
  | absolute
  deriving DecidableEq

structure Config where
  maxWindow : Word := 512
  codeSection : String := ".text"
  policy : Policy := .legacy
  dialect : Dialect := .tight
  addressBase : AddressBase := .relative
  deriving DecidableEq

inductive ConfigDefect where
  | emptyWindow
  | unnamedSection
  deriving DecidableEq

namespace ConfigDefect

def message : ConfigDefect → String
  | emptyWindow => "max_window must be greater than zero"
  | unnamedSection => "code_section must not be empty"

end ConfigDefect

namespace Config

def check (c : Config) : Except ConfigDefect Unit :=
  if c.maxWindow = 0 then .error .emptyWindow
  else if c.codeSection.isEmpty then .error .unnamedSection
  else .ok ()

/-- The configuration itself, unless it cannot be worked with. -/
def validated (c : Config) : Except Fault Config :=
  match c.check with
  | .ok () => .ok c
  | .error d => .error (.badConfig d.message)

end Config

/-- The address of the first instruction of a function at `rva`. -/
def AddressBase.start (b : AddressBase) (imageBase rva : Word) : Word :=
  match b with
  | relative => rva
  | absolute => imageBase + rva

end FunctionSlice
