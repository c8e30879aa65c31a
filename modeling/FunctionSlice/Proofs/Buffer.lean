import FunctionSlice.Load
import FunctionSlice.Proofs.Fetch
import FunctionSlice.X86.Decoder

/-! The buffer of a read. A run has an outcome unless it asks for a buffer that cannot be, and whether it
does is a matter of the section's header and the read cap alone: the one is what the file says, the other
what the caller says, and neither is bounded. -/

namespace FunctionSlice

/-- From the address on, the section and the cap leave a window that can be sought and that no buffer
holds. -/
structure Section.Oversized (s : Section) (rva cap : Word) : Prop where
  above : s.virtualAddress.toNat ≤ rva.toNat
  seekable : s.rawOffset.toNat + (rva.toNat - s.virtualAddress.toNat) ≤ 0x7fff_ffff_ffff_ffff
  tooLong : 0x7fff_ffff_ffff_ffff <
    min cap.toNat (s.rawSize.toNat - (rva.toNat - s.virtualAddress.toNat))

namespace Section

variable {s : Section} {rva cap : Word} {w : Window}

theorem Maps.oversized_iff (h : s.Maps rva cap w) :
    s.Oversized rva cap ↔ w.fileOffset.toNat ≤ 0x7fff_ffff_ffff_ffff ∧
      0x7fff_ffff_ffff_ffff < w.length.toNat := by
  have hl := h.length
  rw [h.remaining] at hl
  constructor
  · rintro ⟨-, hs, ht⟩
    rw [h.offset, hl]
    exact ⟨hs, ht⟩
  · rintro ⟨hs, ht⟩
    rw [h.offset] at hs
    rw [hl] at ht
    exact ⟨h.above, hs, ht⟩

/-- An oversized window is a window: the address has raw bytes, and their place is a 64-bit number. -/
theorem Oversized.exists_maps (h : s.Oversized rva cap) : ∃ w, s.Maps rva cap w := by
  obtain ⟨ha, hs, ht⟩ := h
  refine Section.exists_maps ?_ cap
  unfold Misses
  omega

end Section

variable {load : Loader} {decoder : Decoder} {disk : Storage} {c : Config} {path : String} {q : Query}

theorem overflows_iff_lands :
    overflows load disk c path q ↔
      ∃ m w, Lands load c path q m w ∧ Source.overflowsAt disk m.path w := by
  unfold overflows
  cases h : (locate load c path q).outcome with
  | error e =>
    simp only [← locate_ok_iff, h]
    simp
  | ok found =>
    obtain ⟨m, w⟩ := found
    simp only [← locate_ok_iff, h, Except.ok.injEq, Prod.mk.injEq]
    constructor
    · intro ho
      exact ⟨m, w, ⟨rfl, rfl⟩, ho⟩
    · rintro ⟨m, w, ⟨rfl, rfl⟩, ho⟩
      exact ho

theorem overflows_iff_oversized :
    overflows load disk c path q ↔
      ∃ m rva s file, Arrives load path q m rva ∧ m.HasFirst c.codeSection s ∧
        disk m.path = .ok (.file file) ∧ s.Oversized rva c.maxWindow := by
  rw [overflows_iff_lands]
  simp only [Source.overflowsAt_iff]
  constructor
  · rintro ⟨m, w, ⟨rva, s, ha, hs, hm⟩, file, hf, ho⟩
    exact ⟨m, rva, s, file, ha, hs, hf, hm.oversized_iff.2 ho⟩
  · rintro ⟨m, rva, s, file, ha, hs, hf, ho⟩
    obtain ⟨w, hm⟩ := ho.exists_maps
    exact ⟨m, w, ⟨rva, s, ha, hs, hm⟩, file, hf, hm.oversized_iff.1 ho⟩

theorem slice?_of_overflows (h : overflows load disk c path q) :
    slice? load decoder disk c path q = none := if_pos h

theorem slice?_of_not_overflows (h : ¬ overflows load disk c path q) :
    slice? load decoder disk c path q = some (slice load decoder disk c path q) := if_neg h

theorem slice?_eq_none_iff :
    slice? load decoder disk c path q = none ↔ overflows load disk c path q := by
  simp [slice?]

theorem slice?_eq_some_iff {run : Logged Fault Listing} :
    slice? load decoder disk c path q = some run ↔
      ¬ overflows load disk c path q ∧ slice load decoder disk c path q = run := by
  simp [slice?]

/-- A run that comes to a window of a file is the one that can overflow. -/
theorem Lands.overflows_iff {file : Bytes} {m : Module} {w : Window} (hf : Backed load disk path file)
    (h : Lands load c path q m w) :
    overflows load disk c path q ↔ w.fileOffset.toNat ≤ 0x7fff_ffff_ffff_ffff ∧
      0x7fff_ffff_ffff_ffff < w.length.toNat := by
  unfold overflows
  rw [locate_ok_iff.2 h]
  change Source.overflowsAt disk m.path w ↔ _
  rw [Source.overflowsAt_iff]
  constructor
  · rintro ⟨file, -, hw⟩
    exact hw
  · intro hw
    exact ⟨file, h.backed hf, hw⟩

theorem slice?_of_not_oversized
    (h : ∀ m rva s, Arrives load path q m rva → m.HasFirst c.codeSection s →
      ¬ s.Oversized rva c.maxWindow) :
    slice? load decoder disk c path q = some (slice load decoder disk c path q) := by
  apply slice?_of_not_overflows
  rw [overflows_iff_oversized]
  rintro ⟨m, rva, s, file, ha, hs, -, ho⟩
  exact h m rva s ha hs ho

/-- A cap that a buffer can have is enough, whatever the file says. -/
theorem slice?_of_cap (h : c.maxWindow.toNat ≤ 0x7fff_ffff_ffff_ffff) :
    slice? load decoder disk c path q = some (slice load decoder disk c path q) := by
  refine slice?_of_not_oversized fun m rva s _ _ ho => ?_
  have := ho.tooLong
  omega

/-- And so is a file whose sections are no larger, whatever the cap. -/
theorem slice?_of_sections (h : ∀ m symbols, (load path).outcome = .ok (m, symbols) →
      ∀ s ∈ m.sections, s.rawSize.toNat ≤ 0x7fff_ffff_ffff_ffff) :
    slice? load decoder disk c path q = some (slice load decoder disk c path q) := by
  refine slice?_of_not_oversized fun m rva s ha hs ho => ?_
  obtain ⟨symbols, hl, -⟩ := ha
  obtain ⟨before, after, hsections, -⟩ := hs
  have hsize := h m symbols hl s (by rw [hsections]; simp)
  have := ho.tooLong
  omega

/-- A run ends without an outcome exactly if its query leads to a window of a file that can be sought and
is longer than any buffer; every other run has the outcome of its stages. -/
theorem slice?_none_iff_oversized (load : Loader) (decoder : Decoder) (disk : Storage) (c : Config)
    (path : String) (q : Query) :
    (slice? load decoder disk c path q = none ↔
      ∃ m rva s file, Arrives load path q m rva ∧ m.HasFirst c.codeSection s ∧
        disk m.path = .ok (.file file) ∧ s.Oversized rva c.maxWindow) ∧
    ∀ r, slice? load decoder disk c path q = some r ↔
      r = slice load decoder disk c path q ∧ slice? load decoder disk c path q ≠ none := by
  simp only [← overflows_iff_oversized, slice?_eq_none_iff, slice?_eq_some_iff, ne_eq, true_and]
  exact fun r => and_comm.trans (and_congr_left fun _ => eq_comm)

/-- An object file that declares a code section of 2^64 - 1 bytes. -/
def boastful : Bytes :=
  [0x7f, 0x45, 0x4c, 0x46, 2, 1, 1, 0] ++ List.replicate 8 0 ++ [2, 0, 0x3e, 0, 1, 0, 0, 0] ++
    List.replicate 16 0 ++ [0x40, 0, 0, 0, 0, 0, 0, 0] ++
    [0, 0, 0, 0, 0x40, 0, 0, 0, 0, 0, 0x40, 0, 3, 0, 2, 0] ++
    -- the empty section, the code and the names of the sections
    List.replicate 64 0 ++
    [1, 0, 0, 0, 1, 0, 0, 0, 6, 0, 0, 0, 0, 0, 0, 0] ++ List.replicate 16 0 ++ List.replicate 8 0xff ++
    List.replicate 8 0 ++ [1, 0, 0, 0, 0, 0, 0, 0] ++ List.replicate 8 0 ++
    [7, 0, 0, 0, 3, 0, 0, 0] ++ List.replicate 16 0 ++ [0, 1, 0, 0, 0, 0, 0, 0] ++
    [0x11, 0, 0, 0, 0, 0, 0, 0] ++ List.replicate 8 0 ++ [1, 0, 0, 0, 0, 0, 0, 0] ++
    List.replicate 8 0 ++
    0 :: ".text".toUTF8.toList ++ 0 :: ".shstrtab".toUTF8.toList ++ [0]

/-- Under the widest cap a look at its first byte ends the program. -/
theorem slice?_boastful :
    let disk : Storage := fun _ => .ok (.file boastful)
    let c : Config := { maxWindow := 0xffffffffffffffff }
    c.check = .ok () ∧
      slice? (objectLoader disk) (X86.decoder c.dialect) disk c "m.elf" (.byAddress 0) = none := by
  decide +kernel

end FunctionSlice
