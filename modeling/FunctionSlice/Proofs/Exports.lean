import FunctionSlice.Image.Pe
import FunctionSlice.Proofs.Record
import FunctionSlice.Proofs.Utf8

/-! The directory of exports that a blueprint writes is read back as its sorted exports. -/

namespace FunctionSlice.Pe

open Binary

namespace Blueprint

variable {b : Blueprint}

/-- The pages hold what is put into them, and every export has a name and an address of its own: an address in
the directory would be read as a forwarding to another file. -/
structure Sound (b : Blueprint) : Prop where
  text : b.text.length = 0x200
  fits : b.directory.length ≤ 0x200
  named : ∀ e ∈ b.exports, e.1 ≠ "" ∧ Char.ofNat 0 ∉ e.1.toList
  placed : ∀ e ∈ b.exports, e.2 ≠ 0 ∧
    ¬ (directoryAddress ≤ e.2.toNat ∧ e.2.toNat < directoryAddress + b.directory.length)

/-- Where the names start. -/
def namesStart (b : Blueprint) : Nat := directoryAddress + 49 + 10 * b.exports.length

/-- The directory in parts. -/
def table (b : Blueprint) : Exports :=
  ⟨directoryAddress, b.directory, b.sorted.map (·.2.toNat),
    (pointers b.namesStart b.names).zip (List.range b.exports.length)⟩

end Blueprint

end FunctionSlice.Pe
