import FunctionSlice.Proofs.Image
import FunctionSlice.Proofs.Mapping
import FunctionSlice.Proofs.Namesakes

/-! Symbols and sections are placed by the same base, so that it cancels: the bytes of a symbol lie as far
into the file as its address lies into its section. -/

namespace FunctionSlice

variable {base : Word} {p : Placement} {ps : List Placement} {s : Section} {name : String}

namespace Placement

/-- What a section without a range has: no bytes. -/
def extent (p : Placement) : Word × Word := p.range.getD (0, 0)

theorem section?_eq_some_iff :
    p.section? base = some s ↔ base.toNat + s.virtualAddress.toNat = p.address.toNat ∧
      s.name = p.name.getD "" ∧ s.rawOffset = p.extent.1 ∧ s.rawSize = p.extent.2 := by
  obtain ⟨n, va, size, offset⟩ := s
  simp only [section?, extent, Option.bind_eq_bind, Option.bind_eq_some_iff, Word.sub?_eq_some_iff,
    Option.pure_def, Option.some.injEq, Section.mk.injEq]
  constructor
  · rintro ⟨rva, hr, hn, rfl, hs, ho⟩
    exact ⟨hr, hn.symm, ho.symm, hs.symm⟩
  · rintro ⟨hr, hn, ho, hs⟩
    exact ⟨va, hr, hn.symm, rfl, hs.symm, ho.symm⟩

end Placement

namespace SymbolTable

end SymbolTable

end FunctionSlice
