import FunctionSlice.Proofs.Handle

/-! A bounded read gives the bytes of its window or says how many of them there are. Nothing but the
window and the content of the source decides which. -/

namespace FunctionSlice

/-- The bytes of a file that a window covers. -/
def Window.cut (w : Window) (file : Bytes) : Bytes :=
  (file.drop w.fileOffset.toNat).take w.length.toNat

theorem Window.length_cut {w : Window} {file : Bytes}
    (h : w.fileOffset.toNat + w.length.toNat ≤ file.length) :
    (w.cut file).length = w.length.toNat := by
  rw [cut, List.length_take, List.length_drop]
  omega

namespace Source

variable {s : Source} {w : Window}

/-- The content of the source covers the window. An empty window is covered wherever it is. -/
def Covers (s : Source) (w : Window) : Prop :=
  w.length.toNat = 0 ∨ w.fileOffset.toNat + w.length.toNat ≤ s.content.length

theorem length_slice (s : Source) (w : Window) :
    (s.slice w.fileOffset w.length).length =
      min w.length.toNat (s.content.length - w.fileOffset.toNat) := by
  rw [slice, List.length_take, List.length_drop]

theorem length_slice_of_covers (h : s.Covers w) :
    (s.slice w.fileOffset w.length).length = w.length.toNat := by
  rw [length_slice]
  unfold Covers at h
  omega

theorem length_slice_of_not_covers (h : ¬ s.Covers w) :
    (s.slice w.fileOffset w.length).length = s.content.length - w.fileOffset.toNat ∧
      s.content.length - w.fileOffset.toNat < w.length.toNat := by
  rw [length_slice]
  unfold Covers at h
  omega

theorem read_of_covers (hs : s.canSeek w.fileOffset) (h : s.Covers w) :
    (s.read w).outcome = .ok (s.slice w.fileOffset w.length) := by
  have hl := length_slice_of_covers h
  simp [read_eq, deliver, hs, hl]

theorem read_of_not_covers (hs : s.canSeek w.fileOffset) (h : ¬ s.Covers w) :
    (s.read w).outcome =
      .error (.truncated w.fileOffset w.length.toNat (s.content.length - w.fileOffset.toNat)) := by
  obtain ⟨hl, hlt⟩ := length_slice_of_not_covers h
  simp [read_eq, deliver, hs, hl, hlt]

theorem read_of_not_canSeek (hs : ¬ s.canSeek w.fileOffset) :
    (s.read w).outcome = .error (.system .invalidSeek) := by
  simp [read_eq, hs]

/-- A file cannot be sought beyond the greatest signed offset. -/
theorem canSeek_file {path : String} {content : Bytes} {offset : Word} :
    canSeek ⟨path, content, some maxFileOffset⟩ offset ↔ offset.toNat ≤ 0x7fff_ffff_ffff_ffff := by
  simp [canSeek, UInt64.le_iff_toNat_le, maxFileOffset]

theorem overflows_iff :
    s.overflows w ↔ s.canSeek w.fileOffset ∧ 0x7fff_ffff_ffff_ffff < w.length.toNat := by
  simp [overflows, UInt64.lt_iff_toNat_lt, maxBuffer]

variable {disk : Storage} {path : String} {content : Bytes}

theorem overflowsAt_iff :
    overflowsAt disk path w ↔ ∃ file, disk path = .ok (.file file) ∧
      w.fileOffset.toNat ≤ 0x7fff_ffff_ffff_ffff ∧ 0x7fff_ffff_ffff_ffff < w.length.toNat := by
  unfold overflowsAt ofPath
  cases hd : disk path with
  | error e => simp
  | ok entry =>
    cases entry with
    | directory => simp
    | file content => simp [overflows_iff, canSeek_file]

theorem readAt_outcome (hf : disk path = .ok (.file content)) :
    (readAt disk path w).outcome = (read ⟨path, content, some maxFileOffset⟩ w).outcome := by
  have ho : (ofPath disk path).outcome = .ok ⟨path, content, some maxFileOffset⟩ := by
    simp [ofPath, hf]
  exact Logged.outcome_bind_ok ho _

theorem exists_file_of_readAt {bytes : Bytes} (h : (readAt disk path w).outcome = .ok bytes) :
    ∃ content, disk path = .ok (.file content) := by
  obtain ⟨s, hs, -⟩ := Logged.outcome_bind_eq_ok.1 h
  unfold ofPath at hs
  cases hd : disk path with
  | error e => simp [hd] at hs
  | ok entry =>
    cases entry with
    | file content => exact ⟨content, rfl⟩
    | directory => simp [hd] at hs

theorem readAt_of_unseekable (hf : disk path = .ok (.file content))
    (hs : 0x7fff_ffff_ffff_ffff < w.fileOffset.toNat) :
    (readAt disk path w).outcome = .error (.system .invalidSeek) := by
  rw [readAt_outcome hf]
  exact read_of_not_canSeek fun h => by
    have := canSeek_file.1 h
    omega

theorem readAt_of_covered (hf : disk path = .ok (.file content))
    (hs : w.fileOffset.toNat ≤ 0x7fff_ffff_ffff_ffff)
    (h : w.fileOffset.toNat + w.length.toNat ≤ content.length) :
    (readAt disk path w).outcome = .ok (w.cut content) := by
  rw [readAt_outcome hf]
  exact read_of_covers (canSeek_file.2 hs) (.inr h)

theorem readAt_of_not_covered (hf : disk path = .ok (.file content))
    (hs : w.fileOffset.toNat ≤ 0x7fff_ffff_ffff_ffff) (hw : w.length ≠ 0)
    (h : content.length < w.fileOffset.toNat + w.length.toNat) :
    (readAt disk path w).outcome =
      .error (.truncated w.fileOffset w.length.toNat (content.length - w.fileOffset.toNat)) := by
  rw [readAt_outcome hf]
  have hl := Word.toNat_ne_zero hw
  refine read_of_not_covers (canSeek_file.2 hs) fun hc => ?_
  rcases hc with hc | hc
  · exact hl hc
  · have : w.fileOffset.toNat + w.length.toNat ≤ content.length := hc
    omega

end Source

end FunctionSlice
