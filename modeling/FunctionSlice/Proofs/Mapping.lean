import FunctionSlice.Mapping

/-! The window of an address agrees with exact arithmetic: every sum and difference that is taken in 64
bits is one of natural numbers, or there is no window. Of a module's sections it depends on the first of
its name alone. -/

namespace FunctionSlice

/-- The window `w` of an address, computed in natural numbers. -/
structure Section.Maps (s : Section) (rva cap : Word) (w : Window) : Prop where
  start : w.rva = rva
  above : s.virtualAddress.toNat ≤ rva.toNat
  backed : rva.toNat - s.virtualAddress.toNat < s.rawSize.toNat
  offset : w.fileOffset.toNat = s.rawOffset.toNat + (rva.toNat - s.virtualAddress.toNat)
  remaining : w.remaining.toNat = s.rawSize.toNat - (rva.toNat - s.virtualAddress.toNat)
  length : w.length.toNat = min cap.toNat w.remaining.toNat

/-- No raw byte is behind the address, or the byte's place in the file is no 64-bit number. -/
def Section.Misses (s : Section) (rva : Word) : Prop :=
  rva.toNat < s.virtualAddress.toNat ∨ s.rawSize.toNat ≤ rva.toNat - s.virtualAddress.toNat ∨
    0x1_0000_0000_0000_0000 ≤ s.rawOffset.toNat + (rva.toNat - s.virtualAddress.toNat)

namespace Section

variable {s : Section} {rva cap : Word} {w : Window}

theorem maps_of_window? (h : s.window? rva cap = some w) : s.Maps rva cap w := by
  simp only [window?, Option.bind_eq_bind, Option.bind_eq_some_iff, Word.sub?_eq_some_iff,
    Option.pure_def] at h
  obtain ⟨delta, hd, left, hl, h⟩ := h
  split at h
  · simp at h
  · rename_i hz
    have hz := Word.toNat_ne_zero hz
    obtain ⟨offset, ho, hw⟩ := Option.bind_eq_some_iff.1 h
    rw [Word.add?_eq_some_iff] at ho
    cases hw
    exact ⟨rfl, by omega, by omega, by simp only; omega, by simp only; omega,
      by rw [Word.toNat_min, Nat.min_comm]⟩

theorem window?_of_maps (h : s.Maps rva cap w) : s.window? rva cap = some w := by
  obtain ⟨hs, ha, hb, ho, hr, hl⟩ := h
  obtain ⟨wr, offset, length, left⟩ := w
  simp only at hs ho hr hl
  subst wr
  have hlt := rva.toNat_lt
  have hd : (UInt64.ofNat (rva.toNat - s.virtualAddress.toNat)).toNat =
      rva.toNat - s.virtualAddress.toNat := Word.toNat_ofNat (by omega)
  have hlen : min left cap = length := by
    rw [← UInt64.toNat_inj, Word.toNat_min, hl, Nat.min_comm]
  have hz : left ≠ 0 := by
    rintro rfl
    simp only [UInt64.toNat_zero] at hr
    omega
  simp only [window?, Option.bind_eq_bind, Option.bind_eq_some_iff, Word.sub?_eq_some_iff,
    Option.pure_def]
  refine ⟨UInt64.ofNat (rva.toNat - s.virtualAddress.toNat), by omega, left, by omega, ?_⟩
  rw [if_neg hz, Option.bind_eq_some_iff]
  exact ⟨offset, Word.add?_eq_some_iff.2 (by omega), by rw [hlen]⟩

theorem window?_eq_some_iff : s.window? rva cap = some w ↔ s.Maps rva cap w :=
  ⟨maps_of_window?, window?_of_maps⟩

theorem Maps.not_misses (h : s.Maps rva cap w) : ¬ s.Misses rva := by
  obtain ⟨-, ha, hb, ho, -, -⟩ := h
  have := w.fileOffset.toNat_lt
  unfold Misses
  omega

theorem Maps.length_ne_zero (h : s.Maps rva cap w) (hc : cap ≠ 0) : w.length ≠ 0 := by
  have hcap := Word.toNat_ne_zero hc
  obtain ⟨-, -, hb, -, hr, hl⟩ := h
  intro hz
  rw [hz, UInt64.toNat_zero] at hl
  omega

/-- Outside the three ways to miss there is a window. -/
theorem exists_maps (h : ¬ s.Misses rva) (cap : Word) : ∃ w, s.Maps rva cap w := by
  unfold Misses at h
  have := s.rawSize.toNat_lt
  have hc := cap.toNat_lt
  let delta := rva.toNat - s.virtualAddress.toNat
  refine ⟨⟨rva, UInt64.ofNat (s.rawOffset.toNat + delta),
    UInt64.ofNat (min cap.toNat (s.rawSize.toNat - delta)), UInt64.ofNat (s.rawSize.toNat - delta)⟩,
    rfl, by omega, by omega, ?_, ?_, ?_⟩
  · exact Word.toNat_ofNat (by omega)
  · exact Word.toNat_ofNat (by omega)
  · rw [Word.toNat_ofNat (by omega), Word.toNat_ofNat (by omega)]

theorem window?_eq_none_iff (cap : Word) : s.window? rva cap = none ↔ s.Misses rva := by
  constructor
  · intro h
    refine Classical.not_not.1 fun hm => ?_
    obtain ⟨w, hw⟩ := exists_maps hm cap
    rw [window?_of_maps hw] at h
    cases h
  · intro h
    cases hw : s.window? rva cap with
    | none => rfl
    | some w => exact absurd h (maps_of_window? hw).not_misses

theorem contains_iff : s.contains rva ↔
    s.virtualAddress.toNat ≤ rva.toNat ∧
      rva.toNat - s.virtualAddress.toNat < s.rawSize.toNat := by
  rw [contains, Bool.and_eq_true, decide_eq_true_iff, decide_eq_true_iff, UInt64.le_iff_toNat_le]
  refine and_congr_right fun h => ?_
  rw [UInt64.lt_iff_toNat_lt, UInt64.toNat_sub_of_le _ _ (UInt64.le_iff_toNat_le.2 h)]

theorem not_misses_iff : ¬ s.Misses rva ↔ s.contains rva ∧
    s.rawOffset.toNat + (rva.toNat - s.virtualAddress.toNat) < 0x1_0000_0000_0000_0000 := by
  rw [contains_iff]
  unfold Misses
  omega

/-- The window ends with the section if and only if the cap leaves room for it. -/
theorem Maps.reachesEnd_iff (h : s.Maps rva cap w) :
    w.reachesEnd ↔ w.remaining.toNat ≤ cap.toNat := by
  have hl := h.length
  rw [Window.reachesEnd, beq_iff_eq, ← UInt64.toNat_inj]
  omega

end Section

/-- The first of the module's sections that is called so. -/
def Module.HasFirst (m : Module) (name : String) (s : Section) : Prop :=
  ∃ before after, m.sections = before ++ s :: after ∧ s.name = name ∧ ∀ t ∈ before, t.name ≠ name

namespace Module

variable {m : Module} {name : String} {s : Section}

theorem section?_eq_some_iff : m.section? name = some s ↔ m.HasFirst name s := by
  unfold section? HasFirst
  rw [List.find?_eq_some_iff_append]
  constructor
  · rintro ⟨hs, before, after, hm, hb⟩
    exact ⟨before, after, hm, by simpa using hs, fun t ht => by simpa using hb t ht⟩
  · rintro ⟨before, after, hm, hs, hb⟩
    exact ⟨by simpa using hs, before, after, hm, fun t ht => by simpa using hb t ht⟩

theorem section?_eq_none_iff : m.section? name = none ↔ ∀ s ∈ m.sections, s.name ≠ name := by
  simp [section?]

theorem HasFirst.name_eq (h : m.HasFirst name s) : s.name = name := by
  obtain ⟨-, -, -, hs, -⟩ := h
  exact hs

theorem HasFirst.unique {t : Section} (hs : m.HasFirst name s) (ht : m.HasFirst name t) : t = s := by
  rw [← section?_eq_some_iff] at hs ht
  rw [hs] at ht
  exact (Option.some.inj ht).symm

variable {rva cap : Word}

theorem window_ok_iff {w : Window} :
    (m.window name rva cap).outcome = .ok w ↔ ∃ s, m.HasFirst name s ∧ s.Maps rva cap w := by
  simp only [← section?_eq_some_iff, ← Section.window?_eq_some_iff]
  unfold window
  cases m.section? name with
  | none => simp
  | some s => cases hw : s.window? rva cap <;> simp [Section.window, hw]

theorem window_error_iff {e : Fault} :
    (m.window name rva cap).outcome = .error e ↔
      (∀ s ∈ m.sections, s.name ≠ name) ∧ e = .noSection name ∨
        ∃ s, m.HasFirst name s ∧ s.Misses rva ∧ e = .outsideSection rva name := by
  simp only [← section?_eq_none_iff, ← Section.window?_eq_none_iff cap]
  constructor
  · intro h
    unfold window at h
    cases hs : m.section? name with
    | none =>
      simp only [hs, Logged.outcome_fail, Except.error.injEq] at h
      exact .inl ⟨rfl, h.symm⟩
    | some s =>
      have hf := section?_eq_some_iff.1 hs
      cases hw : s.window? rva cap with
      | some w => simp [hs, Section.window, hw] at h
      | none =>
        simp only [hs, Section.window, hw, Logged.outcome_emit_bind, Logged.outcome_fail,
          Except.error.injEq] at h
        exact .inr ⟨s, hf, hw, by rw [← h, hf.name_eq]⟩
  · rintro (⟨hs, rfl⟩ | ⟨s, hf, hw, rfl⟩)
    · simp [window, hs]
    · simp [window, section?_eq_some_iff.2 hf, Section.window, hw, hf.name_eq]

end Module

/-- The sections `ts` are the sections `ss` and some more: such of other names anywhere, and any at all
behind the first that is called `name`. -/
inductive Inserted (name : String) : List Section → List Section → Prop
  | nil : Inserted name [] []
  | keep (s : Section) {ss ts : List Section} : s.name ≠ name → Inserted name ss ts →
      Inserted name (s :: ss) (s :: ts)
  | other (t : Section) {ss ts : List Section} : t.name ≠ name → Inserted name ss ts →
      Inserted name ss (t :: ts)
  | behind (s : Section) {ss ts : List Section} : s.name = name → ss.Sublist ts →
      Inserted name (s :: ss) (s :: ts)

theorem Inserted.find?_eq {name : String} {ss ts : List Section} (h : Inserted name ss ts) :
    ts.find? (·.name = name) = ss.find? (·.name = name) := by
  induction h with
  | nil => rfl
  | keep s hs _ ih => rw [List.find?_cons_of_neg (by simpa), List.find?_cons_of_neg (by simpa), ih]
  | other t ht _ ih => rw [List.find?_cons_of_neg (by simpa), ih]
  | behind s hs _ => rw [List.find?_cons_of_pos (by simpa), List.find?_cons_of_pos (by simpa)]

theorem Module.window_inserted {m : Module} {name : String} {ts : List Section}
    (h : Inserted name m.sections ts) (rva cap : Word) :
    ({ m with sections := ts } : Module).window name rva cap = m.window name rva cap := by
  unfold window section?
  rw [h.find?_eq]

/-- There is a window exactly where the section has a byte with a 64-bit place in the file; elsewhere the
address and the section are to blame. In exact integers the window lies in the section's part of the file,
as far from its start as the address from the section's. Sections that are put in do not change it. -/
theorem window_exact (m : Module) (code : String) (rva cap : Word) (s : Section)
    (hs : m.HasFirst code s) (hcap : cap ≠ 0) :
    let run := (m.window code rva cap).outcome
    ((∃ w, run = .ok w) ↔ s.contains rva ∧
      s.rawOffset.toNat + (rva.toNat - s.virtualAddress.toNat) < 0x1_0000_0000_0000_0000) ∧
    (∀ e, run = .error e → e = .outsideSection rva s.name) ∧
    (∀ w, run = .ok w → w.rva = rva ∧
      (w.fileOffset.toNat - s.rawOffset.toNat : Int) = rva.toNat - s.virtualAddress.toNat ∧
      (w.remaining.toNat : Int) = s.virtualAddress.toNat + s.rawSize.toNat - rva.toNat ∧
      w.length.toNat = min cap.toNat w.remaining.toNat ∧ 1 ≤ w.length.toNat ∧
      s.rawOffset.toNat ≤ w.fileOffset.toNat ∧
      w.fileOffset.toNat + w.length.toNat ≤ s.rawOffset.toNat + s.rawSize.toNat ∧
      (w.reachesEnd ↔ w.remaining.toNat ≤ cap.toNat)) ∧
    ∀ ts, Inserted code m.sections ts →
      ({ m with sections := ts } : Module).window code rva cap = m.window code rva cap := by
  intro run
  refine ⟨?_, ?_, ?_, fun ts h => Module.window_inserted h rva cap⟩
  · rw [← Section.not_misses_iff]
    constructor
    · rintro ⟨w, hw⟩
      obtain ⟨t, ht, hm⟩ := Module.window_ok_iff.1 hw
      obtain rfl := hs.unique ht
      exact hm.not_misses
    · intro h
      obtain ⟨w, hw⟩ := Section.exists_maps h cap
      exact ⟨w, Module.window_ok_iff.2 ⟨s, hs, hw⟩⟩
  · intro e he
    rcases Module.window_error_iff.1 he with ⟨hnone, -⟩ | ⟨t, -, -, rfl⟩
    · obtain ⟨before, after, hsections, hname, -⟩ := hs
      exact absurd hname (hnone s (by rw [hsections]; simp))
    · rw [hs.name_eq]
  · intro w hw
    obtain ⟨t, ht, hm⟩ := Module.window_ok_iff.1 hw
    obtain rfl := hs.unique ht
    have hpos := Word.toNat_ne_zero (hm.length_ne_zero hcap)
    obtain ⟨hstart, habove, hbacked, hoffset, hremaining, hlength⟩ := id hm
    exact ⟨hstart, by omega, by omega, hlength, by omega, by omega, by omega, hm.reachesEnd_iff⟩

/-- The section's addresses and its part of the file end beyond 64 bits. The last byte with a 64-bit place in
the file has a window, whatever sections are put in, and the byte behind it has none. -/
theorem window_exact_last_place :
    let s : Section := ⟨".text", 0xfffffffffffff000, 0xffffffffffffffff, 0xfffffffffffffff0⟩
    let m : Module := ⟨"m.bin", .bits64, 0, [s, ⟨".text", 0, 1, 0⟩]⟩
    let ts : List Section := [⟨".data", 0, 1, 0⟩, s, ⟨".bss", 0, 0, 0⟩, ⟨".text", 0, 1, 0⟩]
    m.HasFirst ".text" s ∧ (512 : Word) ≠ 0 ∧ Inserted ".text" m.sections ts ∧
      (({ m with sections := ts } : Module).window ".text" 0xfffffffffffff00f 512).outcome =
        .ok ⟨0xfffffffffffff00f, 0xffffffffffffffff, 512, 0xfffffffffffffff0⟩ ∧
      s.contains 0xfffffffffffff010 ∧
      ¬ ∃ w, (m.window ".text" 0xfffffffffffff010 512).outcome = .ok w := by
  intro s m ts
  have hs : m.HasFirst ".text" s := ⟨[], [⟨".text", 0, 1, 0⟩], rfl, rfl, nofun⟩
  have hts : Inserted ".text" m.sections ts :=
    .other _ (by decide) (.behind s rfl (.cons _ (.refl _)))
  have hlast : (m.window ".text" 0xfffffffffffff00f 512).outcome =
      .ok ⟨0xfffffffffffff00f, 0xffffffffffffffff, 512, 0xfffffffffffffff0⟩ := by
    decide +kernel
  obtain ⟨-, -, -, hsame⟩ := window_exact m ".text" 0xfffffffffffff00f 512 s hs (by decide)
  obtain ⟨hnext, -⟩ := window_exact m ".text" 0xfffffffffffff010 512 s hs (by decide)
  exact ⟨hs, by decide, hts, by rw [hsame ts hts, hlast], by decide, mt hnext.1 (by decide)⟩

end FunctionSlice
