import FunctionSlice.Load

/-! Every file that is no portable executable has its sections placed by one base. -/

namespace FunctionSlice

theorem bind_eq_ok_iff {ε α β : Type} {x : Except ε α} {f : α → Except ε β} {b : β} :
    (x >>= f) = .ok b ↔ ∃ a, x = .ok a ∧ f a = .ok b := by
  cases x with
  | ok a => simp [bind, Except.bind]
  | error e => simp [bind, Except.bind]

namespace Image

variable {o : Image} {bs : Bytes} {w : Width}

/-- The image is made of placements. -/
def IsPlaced (o : Image) : Prop :=
  ∃ ps, o = placed o.container o.machine o.base ps o.statics o.dynamics o.exports

theorem isPlaced_elf (h : Elf.parse w bs = .ok o) : o.IsPlaced := by
  unfold Elf.parse at h
  obtain ⟨header, -, h⟩ := bind_eq_ok_iff.1 h
  obtain ⟨-, -, h⟩ := bind_eq_ok_iff.1 h
  obtain ⟨hs, -, h⟩ := bind_eq_ok_iff.1 h
  obtain ⟨names, -, h⟩ := bind_eq_ok_iff.1 h
  obtain ⟨statics, -, h⟩ := bind_eq_ok_iff.1 h
  obtain ⟨dynamics, -, h⟩ := bind_eq_ok_iff.1 h
  cases h
  exact ⟨_, rfl⟩

theorem isPlaced_coff (h : Coff.parse bs = .ok o) : o.IsPlaced := by
  unfold Coff.parse at h
  obtain ⟨header, -, h⟩ := bind_eq_ok_iff.1 h
  obtain ⟨hs, -, h⟩ := bind_eq_ok_iff.1 h
  obtain ⟨t, -, h⟩ := bind_eq_ok_iff.1 h
  cases h
  exact ⟨_, rfl⟩

theorem isPlaced_machO {e : Binary.Endian} (h : MachO.parse w e bs = .ok o) : o.IsPlaced := by
  unfold MachO.parse at h
  obtain ⟨header, -, h⟩ := bind_eq_ok_iff.1 h
  obtain ⟨t, -, h⟩ := bind_eq_ok_iff.1 h
  cases h
  exact ⟨_, rfl⟩

theorem container_eq_pe (h : Pe.parse w bs = .ok o) : o.container = .pe := by
  unfold Pe.parse at h
  obtain ⟨offset, -, h⟩ := bind_eq_ok_iff.1 h
  obtain ⟨headers, -, h⟩ := bind_eq_ok_iff.1 h
  obtain ⟨-, -, h⟩ := bind_eq_ok_iff.1 h
  obtain ⟨rest, -, h⟩ := bind_eq_ok_iff.1 h
  obtain ⟨directories, -, h⟩ := bind_eq_ok_iff.1 h
  obtain ⟨hs, -, h⟩ := bind_eq_ok_iff.1 h
  cases h
  rfl

/-- Whatever format the first bytes tell. -/
theorem isPlaced_of_parse (h : Image.parse bs = .ok o) (hc : o.container ≠ .pe) : o.IsPlaced := by
  unfold Image.parse at h
  obtain ⟨magic, -, h⟩ := bind_eq_ok_iff.1 h
  split at h
  · exact isPlaced_elf h
  · exact isPlaced_elf h
  · exact isPlaced_machO h
  · exact isPlaced_machO h
  · exact isPlaced_machO h
  · exact isPlaced_machO h
  · split at h
    · exact absurd (container_eq_pe h) hc
    · cases h
  · cases h
  · split at h
    · exact isPlaced_coff h
    · split at h <;> cases h

end Image

end FunctionSlice
