import FunctionSlice.Proofs.Source

/-! Reads through one handle do not know of each other. A read leaves the handle at the end of its bytes,
at the end of the source or where it was, and the next one goes to its own place from wherever that is. -/

namespace FunctionSlice

/-- What a window of `content` asks for: its bytes, or how many of them there are. -/
def Window.answer (w : Window) (content : Bytes) : Except ReadFault Bytes :=
  if w.length.toNat = 0 ∨ w.fileOffset.toNat + w.length.toNat ≤ content.length then .ok (w.cut content)
  else
    .error (.truncated w.fileOffset w.length.toNat
      (content.length - min w.fileOffset.toNat content.length))

/-- The same of a file, in which no place beyond the greatest signed offset can be sought. -/
def Window.fileAnswer (w : Window) (content : Bytes) : Except ReadFault Bytes :=
  if 0x7fff_ffff_ffff_ffff < w.fileOffset.toNat then .error (.system .invalidSeek)
  else w.answer content

namespace Source

variable {s : Source} {w : Window}

theorem read_outcome_of_canSeek (hs : s.canSeek w.fileOffset) :
    (s.read w).outcome = w.answer s.content := by
  unfold Window.answer
  split
  · rename_i hc
    exact read_of_covers hs hc
  · rename_i hc
    have hleft : s.content.length - min w.fileOffset.toNat s.content.length =
        s.content.length - w.fileOffset.toNat := by omega
    rw [hleft]
    exact read_of_not_covers hs hc

theorem read_ofBytes (label : String) (content : Bytes) (w : Window) :
    ((ofBytes label content).read w).outcome = w.answer content :=
  read_outcome_of_canSeek rfl

theorem read_file (path : String) (content : Bytes) (w : Window) :
    (read ⟨path, content, some maxFileOffset⟩ w).outcome = w.fileAnswer content := by
  unfold Window.fileAnswer
  by_cases hs : 0x7fff_ffff_ffff_ffff < w.fileOffset.toNat
  · rw [if_pos hs]
    refine read_of_not_canSeek fun hc => ?_
    have := canSeek_file.1 hc
    omega
  · rw [if_neg hs]
    exact read_outcome_of_canSeek (canSeek_file.2 (by omega))

end Source

namespace Handle

variable {w : Window} {ws : List Window}

/-- The step: whatever the handle went through, a read answers as a new handle does, and the handle stays
one of the same source. -/
theorem read?_eq (h : Handle) (hw : w.length.toNat ≤ 0x7fff_ffff_ffff_ffff) :
    h.read? w = some (h.source.read w, (h.read w).2) := by
  have ho : ¬ h.source.overflows w := by
    rw [Source.overflows_iff]
    omega
  rw [read?, if_neg ho, Source.read_eq, ← read_fst]

theorem reads?_eq (h : Handle) (hw : ∀ w ∈ ws, w.length.toNat ≤ 0x7fff_ffff_ffff_ffff) :
    h.reads? ws = some (ws.map h.source.read) := by
  induction ws generalizing h with
  | nil => rfl
  | cons w ws ih =>
    have hstep := h.read?_eq (hw w List.mem_cons_self)
    have hrest := ih (h.read w).2 fun v hv => hw v (List.mem_cons_of_mem w hv)
    rw [read_source] at hrest
    rw [reads?, hstep, List.map_cons]
    simp only [Option.bind_eq_bind, Option.bind_some, hrest]
    rfl

end Handle

/-- Every read through a handle is answered as a new handle answers it, wherever the handle stands, whatever
was read before and however few bytes a call brings; and the answer is that of the window alone. -/
theorem reads_of_any_history (content : Bytes) (ws : List Window)
    (hw : ∀ w ∈ ws, w.length.toNat ≤ 0x7fff_ffff_ffff_ffff) :
    (∀ label,
      let s := Source.ofBytes label content
      (∀ position calls pace,
        Handle.reads? ⟨s, position, calls, pace⟩ ws = some (ws.map s.read)) ∧
      ∀ w ∈ ws, (s.read w).outcome = w.answer content) ∧
    ∀ disk path, disk path = .ok (.file content) →
      ∃ s, (Source.ofPath disk path).outcome = .ok s ∧
        (∀ position calls pace,
          Handle.reads? ⟨s, position, calls, pace⟩ ws = some (ws.map s.read)) ∧
        ∀ w ∈ ws, (s.read w).outcome = w.fileAnswer content ∧
          (Source.readAt? disk path w).map (·.outcome) = some (w.fileAnswer content) := by
  constructor
  · intro label s
    exact ⟨fun position calls pace => Handle.reads?_eq _ hw, fun w _ => Source.read_ofBytes label content w⟩
  · intro disk path hf
    refine ⟨⟨path, content, some Source.maxFileOffset⟩, ?_, ?_, ?_⟩
    · simp [Source.ofPath, hf]
    · exact fun position calls pace => Handle.reads?_eq _ hw
    · intro w hmem
      have hr := Source.read_file path content w
      have ho : ¬ Source.overflowsAt disk path w := by
        rw [Source.overflowsAt_iff]
        rintro ⟨file, -, -, hl⟩
        have := hw w hmem
        omega
      refine ⟨hr, ?_⟩
      rw [Source.readAt?, if_neg ho, Option.map_some, Source.readAt_outcome hf, hr]

/-- A seek that fails, a read that comes short and one behind the end leave the handle in three places, and
the last read has its bytes all the same, one call for each of them. -/
theorem reads_of_any_history_failing :
    let content : Bytes := [0x68, 0x65, 0x6c, 0x6c, 0x6f]
    let ws : List Window := [⟨0, 0x8000000000000000, 0, 0⟩, ⟨0, 3, 10, 10⟩, ⟨0, 100, 4, 4⟩, ⟨0, 1, 3, 3⟩]
    let disk : Storage := fun _ => .ok (.file content)
    (∀ w ∈ ws, w.length.toNat ≤ 0x7fff_ffff_ffff_ffff) ∧ disk "m.bin" = .ok (.file content) ∧
      ∃ s, (Source.ofPath disk "m.bin").outcome = .ok s ∧
        (Handle.reads? ⟨s, 2, 7, fun _ => 1⟩ ws).map (·.map (·.outcome)) =
          some [.error (.system .invalidSeek), .error (.truncated 3 10 2), .error (.truncated 100 4 0),
            .ok [0x65, 0x6c, 0x6c]] := by
  intro content ws disk
  have hw : ∀ w ∈ ws, w.length.toNat ≤ 0x7fff_ffff_ffff_ffff := by decide
  obtain ⟨s, hs, hreads, hanswers⟩ := (reads_of_any_history content ws hw).2 disk "m.bin" rfl
  refine ⟨hw, rfl, s, hs, ?_⟩
  rw [hreads, Option.map_some, List.map_map]
  have hmap : ws.map ((·.outcome) ∘ s.read) = ws.map (·.fileAnswer content) :=
    List.map_congr_left fun w hmem => (hanswers w hmem).1
  rw [hmap]
  decide

end FunctionSlice
