import FunctionSlice.Proofs.Image

/-! What a file says of its symbols is a row of entries. The table keeps those that are of use, in the order
of the file, each where it is first met; the others are in nobody's way. -/

namespace FunctionSlice.Image

variable {o : Image} {base address : Word} {name : String} {x : Symbol} {d : Definition}

/-- The entry as a symbol, at its distance from the base. -/
def relative (base : Word) (e : String × Word) : Symbol := ⟨e.1, e.2 - base⟩

/-- The definitions that have a readable name, and the exports. -/
def entries (o : Image) : List (String × Word) :=
  ((o.statics ++ o.dynamics).filter (·.defined)).filterMap (fun d => d.name.map (·, d.address)) ++
    (o.exports.getD []).map fun (e : Bytes × Word) => (Text.utf8Lossy e.1, e.2)

/-- A dynamic symbol is exported again under the same name and stays where it was met first. What is undefined
or unnamed, or below the base, is passed over. -/
example :
    (Image.mk .elf .x64 0x1000 [] [⟨some "f", 0x1010, true⟩, ⟨some "u", 0x1020, false⟩, ⟨none, 0x1030, true⟩]
      [⟨some "low", 0x800, true⟩, ⟨some "", 0x1040, true⟩, ⟨some "g", 0x1050, true⟩]
      (some [("h".toUTF8.toList, 0x1060), ("f".toUTF8.toList, 0x1010), ("f".toUTF8.toList, 0x1070)])).table.symbols =
      [⟨"f", 0x10⟩, ⟨"g", 0x50⟩, ⟨"h", 0x60⟩, ⟨"f", 0x70⟩] := by
  decide +kernel

end FunctionSlice.Image
