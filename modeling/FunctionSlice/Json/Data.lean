import FunctionSlice.Fault
import FunctionSlice.Json.Read
import FunctionSlice.Listing
import FunctionSlice.Query
import FunctionSlice.Symbol

/-! The data of this library as JSON. What is written of a value is read back as the same value. -/

namespace FunctionSlice

open Json (Value)

namespace Json

def word (expected : String) : Read Value := natural 0x1_0000_0000_0000_0000 expected

def byte : Read Value := natural 256 "u8"

def aString : Read Value := text "a string"

namespace Value

def word? (v : Value) : Option Word := v.number?.map UInt64.ofNat

def ofWord (w : Word) : Value := number w.toNat

end Value

/-- Reads a value of a type through its JSON form. -/
structure Codec (α : Type) where
  reader : Read Value
  decode : Value → Option α
  encode : α → Value

/-- The value that a text writes, or why there is none. -/
def Codec.parse {α : Type} (c : Codec α) (s : String) : Except String α := do
  match c.decode (← Json.parse c.reader s) with
  | some a => return a
  | none => throw ""

def Codec.write {α : Type} (c : Codec α) (a : α) : String := (c.encode a).compactText

/-- The value of the first name among pairs. -/
def named {α : Type} [DecidableEq α] (table : List (String × α)) (a : α) : String :=
  ((table.find? (·.2 = a)).map (·.1)).getD ""

def choiceCodec {α : Type} [DecidableEq α] (table : List (String × α)) : Codec α where
  reader := choice (table.map (·.1))
  decode v := v.text?.bind (List.lookup · table)
  encode a := .text (named table a)

end Json

open Json

def Width.names : List (String × Width) := [("Bits32", .bits32), ("Bits64", .bits64)]

def Width.codec : Codec Width := choiceCodec Width.names

def Policy.names : List (String × Policy) := [("legacy", .legacy), ("strict", .strict)]

def Policy.codec : Codec Policy := choiceCodec Policy.names

def Dialect.names : List (String × Dialect) := [("iced", .tight), ("capstone", .spaced)]

def Dialect.codec : Codec Dialect := choiceCodec Dialect.names

def AddressBase.names : List (String × AddressBase) := [("rva", .relative), ("va", .absolute)]

def AddressBase.codec : Codec AddressBase := choiceCodec AddressBase.names

def Query.codec : Codec Query where
  reader := tagged [("ByName", aString), ("ByAddress", word "u64")]
  decode
    | .object [("ByName", .text s)] => some (.byName s)
    | .object [("ByAddress", .number n)] => some (.byAddress (UInt64.ofNat n))
    | _ => none
  encode
    | .byName s => .object [("ByName", .text s)]
    | .byAddress a => .object [("ByAddress", .ofWord a)]

def Section.codec : Codec Section where
  reader := Record.read ⟨"Section", [("name", aString), ("virtual_address", word "u64"),
    ("size_of_raw_data", word "u64"), ("pointer_to_raw_data", word "u64")], false⟩
  decode v := do
    let name ← (← v.member? "name").text?
    let address ← (← v.member? "virtual_address").word?
    let size ← (← v.member? "size_of_raw_data").word?
    let offset ← (← v.member? "pointer_to_raw_data").word?
    pure ⟨name, address, size, offset⟩
  encode s := .object [("name", .text s.name), ("virtual_address", .ofWord s.virtualAddress),
    ("size_of_raw_data", .ofWord s.rawSize), ("pointer_to_raw_data", .ofWord s.rawOffset)]

def Module.codec : Codec Module where
  reader := Record.read ⟨"Module", [("path", text "path string"), ("bitness", Width.codec.reader),
    ("image_base", word "u64"), ("sections", list Section.codec.reader)], false⟩
  decode v := do
    let path ← (← v.member? "path").text?
    let width ← Width.codec.decode (← v.member? "bitness")
    let base ← (← v.member? "image_base").word?
    let sections ← (← (← v.member? "sections").items?).mapM Section.codec.decode
    pure ⟨path, width, base, sections⟩
  encode m := .object [("path", .text m.path), ("bitness", Width.codec.encode m.width),
    ("image_base", .ofWord m.imageBase), ("sections", .list (m.sections.map Section.codec.encode))]

def Window.codec : Codec Window where
  reader := Record.read ⟨"ByteWindow", [("rva", word "u64"), ("file_offset", word "u64"),
    ("len", word "usize"), ("bytes_remaining", word "u64")], false⟩
  decode v := do
    let rva ← (← v.member? "rva").word?
    let offset ← (← v.member? "file_offset").word?
    let length ← (← v.member? "len").word?
    let remaining ← (← v.member? "bytes_remaining").word?
    pure ⟨rva, offset, length, remaining⟩
  encode w := .object [("rva", .ofWord w.rva), ("file_offset", .ofWord w.fileOffset),
    ("len", .ofWord w.length), ("bytes_remaining", .ofWord w.remaining)]

def bytesValue (bs : Bytes) : Value := .list (bs.map fun b => .number b.toNat)

def Instruction.codec : Codec Instruction where
  reader := Record.read ⟨"InstructionRecord", [("address", word "u64"), ("size", word "usize"),
    ("mnemonic", aString), ("operands", aString), ("bytes", list byte)], false⟩
  decode v := do
    let address ← (← v.member? "address").word?
    let size ← (← v.member? "size").number?
    let mnemonic ← (← v.member? "mnemonic").text?
    let operands ← (← v.member? "operands").text?
    let bytes ← (← (← v.member? "bytes").items?).mapM fun b => b.number?.map UInt8.ofNat
    pure ⟨address, size, mnemonic, operands, bytes⟩
  encode i := .object [("address", .ofWord i.address), ("size", .number i.size),
    ("mnemonic", .text i.mnemonic), ("operands", .text i.operands), ("bytes", bytesValue i.bytes)]

def Symbol.codec : Codec Symbol where
  reader := Record.read ⟨"SymbolRecord", [("name", aString), ("rva", word "u64")], false⟩
  decode v := do
    let name ← (← v.member? "name").text?
    let rva ← (← v.member? "rva").word?
    pure ⟨name, rva⟩
  encode s := .object [("name", .text s.name), ("rva", .ofWord s.rva)]

/-- Fields that are missing have their defaults. -/
def Config.codec : Codec Config where
  reader := Record.read ⟨"SliceConfig", [("max_window", word "usize"), ("code_section", aString),
    ("boundary", Policy.codec.reader), ("backend", Dialect.codec.reader),
    ("address_base", AddressBase.codec.reader)], true⟩
  decode v := do
    let d : Config := {}
    pure ⟨((v.member? "max_window").bind Value.word?).getD d.maxWindow,
      ((v.member? "code_section").bind Value.text?).getD d.codeSection,
      ((v.member? "boundary").bind Policy.codec.decode).getD d.policy,
      ((v.member? "backend").bind Dialect.codec.decode).getD d.dialect,
      ((v.member? "address_base").bind AddressBase.codec.decode).getD d.addressBase⟩
  encode c := .object [("max_window", .ofWord c.maxWindow), ("code_section", .text c.codeSection),
    ("boundary", Policy.codec.encode c.policy), ("backend", Dialect.codec.encode c.dialect),
    ("address_base", AddressBase.codec.encode c.addressBase)]

def Config.write (c : Config) : String := (Config.codec.encode c).indentedText

/-- The configuration that a text writes, if it can be worked with. -/
def Config.parse (s : String) : Except Fault Config :=
  match Config.codec.parse s with
  | .ok c => c.validated
  | .error message => .error (.badConfig message)

def Warning.value : Warning → Value
  | .truncated n => .object [("TruncatedFunction", .object [("decoded", .number n)])]

def Listing.value (l : Listing) : Value :=
  .object [("rva", .ofWord l.rva), ("bitness", Width.codec.encode l.width),
    ("image_base", .ofWord l.imageBase), ("window", Window.codec.encode l.window),
    ("instructions", .list (l.instructions.map Instruction.codec.encode)),
    ("warning", (l.warning.map Warning.value).getD .null)]

end FunctionSlice
