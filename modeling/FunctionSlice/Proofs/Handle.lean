import FunctionSlice.Source

/-! A read through an open handle has the bytes from the place of its window on, however few of them each
call brings and wherever the handle stood before. -/

namespace FunctionSlice

/-- The bytes from `offset` on, as many as there are up to `length`. -/
def Source.slice (s : Source) (offset length : Word) : Bytes :=
  (s.content.drop offset.toNat).take length.toNat

namespace Handle

variable {h h' : Handle} {want : Nat} {bs : Bytes} {w : Window}

/-- What is left of the source. -/
def left (h : Handle) : Bytes := h.source.content.drop h.position

/-- A call brings a front of what is left and goes on behind it. -/
theorem pull_front (hp : h.pull want = (bs, h')) :
    bs <+: h.left ∧ bs.length ≤ want ∧ h'.left = h.left.drop bs.length ∧ h'.source = h.source := by
  obtain ⟨rfl, rfl⟩ := Prod.mk.inj hp
  refine ⟨List.take_prefix _ _, ?_, ?_, rfl⟩
  · exact Nat.le_trans (List.length_take_le _ _) (Nat.min_le_left _ _)
  · simp only [left, List.drop_drop]

/-- A call that brings nothing has nothing left to bring. -/
theorem left_of_pull_nil (hw : want ≠ 0) (hp : h.pull want = ([], h')) : h.left = [] := by
  have hb := (Prod.mk.inj hp).1
  rcases List.take_eq_nil_iff.1 hb with hn | hn
  · omega
  · exact hn

/-- Calls together bring what a single one would that brings all it is asked for. -/
theorem drain_fst (h : Handle) (want : Nat) : (h.drain want).1 = h.left.take want := by
  fun_induction drain h want with
  | case1 h => rfl
  | case2 h want hw h' hp => rw [left_of_pull_nil hw hp, List.take_nil]
  | case3 h want hw b bs h' hp rest h'' hd ih =>
    obtain ⟨hb, hle, hl, -⟩ := pull_front hp
    rw [hd, hl] at ih
    have hrest : rest = (h.left.drop (b :: bs).length).take (want - (b :: bs).length) := ih
    have hwant : want = (b :: bs).length + (want - (b :: bs).length) := by omega
    rw [hrest, hwant, List.take_add, ← List.prefix_iff_eq_take.1 hb, Nat.add_sub_cancel_left]

theorem drain_source (h : Handle) (want : Nat) : (h.drain want).2.source = h.source := by
  fun_induction drain h want with
  | case1 h => rfl
  | case2 h want hw h' hp => exact (pull_front hp).2.2.2
  | case3 h want hw b bs h' hp rest h'' hd ih =>
    rw [hd] at ih
    exact ih.trans (pull_front hp).2.2.2

theorem read_source (h : Handle) (w : Window) : (h.read w).2.source = h.source := by
  unfold read seek?
  split
  · rfl
  · rename_i k hk
    split at hk
    · cases hk
      exact drain_source _ _
    · cases hk

/-- The answer is a matter of the source and the window. -/
theorem read_fst (h : Handle) (w : Window) :
    (h.read w).1 =
      if h.source.canSeek w.fileOffset then h.source.deliver w (h.source.slice w.fileOffset w.length)
      else Logged.fail (.system .invalidSeek) := by
  unfold read seek?
  by_cases hs : h.source.canSeek w.fileOffset
  · rw [if_pos hs, if_pos hs]
    simp only [drain_fst]
    rfl
  · rw [if_neg hs, if_neg hs]

end Handle

theorem Source.read_eq (s : Source) (w : Window) :
    s.read w =
      if s.canSeek w.fileOffset then s.deliver w (s.slice w.fileOffset w.length)
      else Logged.fail (.system .invalidSeek) :=
  (Handle.ofSource s).read_fst w

end FunctionSlice
