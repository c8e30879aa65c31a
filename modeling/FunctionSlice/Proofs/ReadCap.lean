import FunctionSlice.Proofs.Buffer
import FunctionSlice.Proofs.Locality
import FunctionSlice.Proofs.Trim

/-! Two runs that differ in the read cap. Stage by stage the run with the wider cap fails the same way,
or gets as far with at least as much, or its window leaves the file; unless no buffer holds its window. -/

namespace FunctionSlice

/-- The second outcome is the first one with more to it, or it breaks off in a way that `cut` allows. -/
inductive Outgrown {ε α : Type} (cut : ε → Prop) (R : α → α → Prop) :
    Except ε α → Except ε α → Prop
  | more {a b : α} : R a b → Outgrown cut R (.ok a) (.ok b)
  | cut {x : Except ε α} {e : ε} : cut e → Outgrown cut R x (.error e)
  | same (e : ε) : Outgrown cut R (.error e) (.error e)

namespace Outgrown

variable {ε ε' α β : Type} {cut : ε → Prop} {R : α → α → Prop} {S : β → β → Prop}

theorem bind {x y : Except ε α} {f g : α → Except ε β} (h : Outgrown cut R x y)
    (hf : ∀ a b, R a b → Outgrown cut S (f a) (g b)) : Outgrown cut S (x.bind f) (y.bind g) := by
  cases h with
  | more hr => exact hf _ _ hr
  | cut hc => exact .cut hc
  | same e => exact .same e

/-- What both runs do alike. -/
theorem bind_left {x : Except ε α} {f g : α → Except ε β} (hf : ∀ a, Outgrown cut S (f a) (g a)) :
    Outgrown cut S (x.bind f) (x.bind g) := by
  cases x with
  | error e => exact .same e
  | ok a => exact hf a

theorem mapError {x y : Except ε α} {cut' : ε' → Prop} {f : ε → ε'} (hc : ∀ e, cut e → cut' (f e))
    (h : Outgrown cut R x y) : Outgrown cut' R (x.mapError f) (y.mapError f) := by
  cases h with
  | more hr => exact .more hr
  | cut h => exact .cut (hc _ h)
  | same e => exact .same (f e)

theorem of_ok {a : α} {y : Except ε α} (h : Outgrown cut R (.ok a) y) :
    (∃ b, y = .ok b ∧ R a b) ∨ ∃ e, y = .error e ∧ cut e := by
  cases h with
  | more hr => exact .inl ⟨_, rfl, hr⟩
  | cut hc => exact .inr ⟨_, rfl, hc⟩

theorem of_cut {e : ε} {y : Except ε α} (h : Outgrown cut R (.error e) y) (he : cut e) :
    ∃ e', y = .error e' ∧ cut e' := by
  cases h with
  | cut hc => exact ⟨_, rfl, hc⟩
  | same => exact ⟨e, rfl, he⟩

end Outgrown

/-- The window `v` is the front of the window `w`. -/
structure Window.Within (v w : Window) : Prop where
  rva : v.rva = w.rva
  fileOffset : v.fileOffset = w.fileOffset
  remaining : v.remaining = w.remaining
  length : v.length.toNat ≤ w.length.toNat

def Fault.IsTruncation (e : Fault) : Prop := ∃ offset requested read, e = .truncated offset requested read

def ReadFault.IsTruncation (e : ReadFault) : Prop :=
  ∃ offset requested read, e = .truncated offset requested read

theorem ReadFault.IsTruncation.toFault {e : ReadFault} (h : e.IsTruncation) :
    e.toFault.IsTruncation := by
  obtain ⟨offset, requested, read, rfl⟩ := h
  exact ⟨offset, requested, read, rfl⟩

variable {rva cap wide : Word}

theorem Section.Maps.within {s : Section} {v w : Window} (hcap : cap ≤ wide)
    (hv : s.Maps rva cap v) (hw : s.Maps rva wide w) : v.Within w := by
  have hcap := UInt64.le_iff_toNat_le.1 hcap
  have hr : v.remaining = w.remaining := UInt64.toNat_inj.1 (hv.remaining.trans hw.remaining.symm)
  refine ⟨hv.start.trans hw.start.symm, UInt64.toNat_inj.1 (hv.offset.trans hw.offset.symm), hr, ?_⟩
  have hl := hv.length
  have hl' := hw.length
  rw [hr] at hl
  omega

theorem Module.window_outgrown (m : Module) (name : String) (rva : Word) (hcap : cap ≤ wide) :
    Outgrown Fault.IsTruncation Window.Within (m.window name rva cap).outcome
      (m.window name rva wide).outcome := by
  cases hw : (m.window name rva wide).outcome with
  | error e =>
    have hv : (m.window name rva cap).outcome = .error e :=
      Module.window_error_iff.2 (Module.window_error_iff.1 hw)
    rw [hv]
    exact .same e
  | ok w =>
    obtain ⟨s, hs, hm⟩ := Module.window_ok_iff.1 hw
    obtain ⟨v, hv⟩ := Section.exists_maps hm.not_misses cap
    rw [Module.window_ok_iff.2 ⟨s, hs, hv⟩]
    exact .more (hv.within hcap hm)

theorem Source.slice_prefix (s : Source) (offset : Word) {n k : Word} (h : n.toNat ≤ k.toNat) :
    s.slice offset n <+: s.slice offset k := by
  unfold slice
  rw [← Nat.min_eq_left h, ← List.take_take]
  exact List.take_prefix _ _

theorem Source.read_outgrown (s : Source) {v w : Window} (h : v.Within w) :
    Outgrown ReadFault.IsTruncation (· <+: ·) (s.read v).outcome (s.read w).outcome := by
  by_cases hs : s.canSeek w.fileOffset
  · have hs' : s.canSeek v.fileOffset := by rwa [h.fileOffset]
    by_cases hw : s.Covers w
    · have hv : s.Covers v := by
        have := h.length
        unfold Covers at hw ⊢
        rw [h.fileOffset]
        omega
      rw [read_of_covers hs hw, read_of_covers hs' hv, h.fileOffset]
      exact .more (s.slice_prefix w.fileOffset h.length)
    · rw [read_of_not_covers hs hw]
      exact .cut ⟨_, _, _, rfl⟩
  · have hs' : ¬ s.canSeek v.fileOffset := by rwa [h.fileOffset]
    rw [read_of_not_canSeek hs, read_of_not_canSeek hs']
    exact .same _

theorem Source.readAt_outgrown (disk : Storage) (path : String) {v w : Window} (h : v.Within w) :
    Outgrown ReadFault.IsTruncation (· <+: ·) (readAt disk path v).outcome
      (readAt disk path w).outcome := by
  simp only [readAt, Logged.outcome_bind]
  exact Outgrown.bind_left fun s => s.read_outgrown h

structure Fetched.Within (f g : Fetched) : Prop where
  origin : f.origin = g.origin
  window : f.window.Within g.window
  bytes : f.bytes <+: g.bytes

theorem fetch_outgrown (load : Loader) (disk : Storage) (c : Config) (path : String) (q : Query)
    (hcap : c.maxWindow ≤ wide) :
    Outgrown Fault.IsTruncation Fetched.Within (fetch load disk c path q).outcome
      (fetch load disk { c with maxWindow := wide } path q).outcome := by
  simp only [fetch_eq, Logged.outcome_bind]
  refine Outgrown.bind_left fun loaded => Outgrown.bind_left fun rva => ?_
  obtain ⟨m, symbols⟩ := loaded
  refine Outgrown.bind (m.window_outgrown c.codeSection rva hcap) fun v w h => ?_
  refine Outgrown.bind (Outgrown.mapError (fun _ => ReadFault.IsTruncation.toFault)
    (Source.readAt_outgrown disk m.path h)) fun b b' hb => ?_
  exact .more ⟨rfl, h, hb⟩

/-- The listing `l` is what is seen of `l'` through a shorter window. -/
structure Listing.Grows (l l' : Listing) : Prop where
  rva : l'.rva = l.rva
  width : l'.width = l.width
  imageBase : l'.imageBase = l.imageBase
  window : l.window.Within l'.window
  instructions : l.instructions <+: l'.instructions
  ended : l.warning = none → l'.instructions = l.instructions ∧ l'.warning = l.warning

theorem Fetched.Within.instructions {decoder : Decoder} {f g : Fetched} (hd : decoder.Extends)
    (h : f.Within g) (b : AddressBase) :
    (decoder.answer (f.request b)).instructions <+: (decoder.answer (g.request b)).instructions := by
  obtain ⟨t, ht⟩ := h.bytes
  unfold Decoder.answer request
  rw [h.origin, h.window.rva, ← ht]
  exact hd _ _ f.bytes t

theorem Listing.grows_of {m : Module} {p : Policy} {v w : Window} {xs ys : List Instruction}
    (hw : v.Within w) (hxy : xs <+: ys) : (Listing.of m p v xs).Grows (Listing.of m p w ys) := by
  refine ⟨hw.rva.symm, rfl, rfl, hw, trim_mono hxy, fun h => ?_⟩
  obtain ⟨zs, rfl⟩ := hxy
  have ht : trim (xs ++ zs) p = trim xs p := trim_append_of_ended h
  exact Prod.ext_iff.1 ht

theorem Fetched.Within.listing {decoder : Decoder} {f g : Fetched} {l : Listing} {c : Config}
    (hd : decoder.Extends) (h : f.Within g) (hl : (f.listing decoder c).outcome = .ok l) :
    ∃ l', (g.listing decoder { c with maxWindow := wide }).outcome = .ok l' ∧ l.Grows l' := by
  have hp := h.instructions hd c.addressBase
  by_cases hne : (decoder.answer (f.request c.addressBase)).instructions = []
  · rw [f.listing_of_nil hne] at hl
    cases hl
  · rw [f.listing_of_ne_nil hne] at hl
    cases hl
    refine ⟨_, g.listing_of_ne_nil fun hg => hne ?_, ?_⟩
    · rw [hg] at hp
      exact List.prefix_nil.1 hp
    · rw [h.origin]
      exact Listing.grows_of h.window hp

variable {load : Loader} {decoder : Decoder} {disk : Storage} {c : Config} {path : String} {q : Query}

theorem slice_ok_widened {l : Listing} (hd : decoder.Extends) (hcap : c.maxWindow ≤ wide)
    (hl : (slice load decoder disk c path q).outcome = .ok l) :
    (∃ l', (slice load decoder disk { c with maxWindow := wide } path q).outcome = .ok l' ∧
      l.Grows l') ∨
    ∃ e, (slice load decoder disk { c with maxWindow := wide } path q).outcome = .error e ∧
      e.IsTruncation := by
  have hf := fetch_outgrown load disk c path q hcap
  cases hn : (fetch load disk c path q).outcome with
  | error e =>
    rw [slice_of_fetch_error hn] at hl
    cases hl
  | ok f =>
    rw [slice_of_fetch_ok hn] at hl
    rw [hn] at hf
    rcases hf.of_ok with ⟨g, hg, hfg⟩ | ⟨e, he, ht⟩
    · rw [slice_of_fetch_ok hg]
      exact .inl (hfg.listing hd hl)
    · exact .inr ⟨e, slice_of_fetch_error he, ht⟩

/-- Nothing is truncated once the window is read. -/
theorem fetch_of_slice_truncated {e : Fault} (ht : e.IsTruncation)
    (he : (slice load decoder disk c path q).outcome = .error e) :
    (fetch load disk c path q).outcome = .error e := by
  cases hn : (fetch load disk c path q).outcome with
  | error d =>
    rw [slice_of_fetch_error hn] at he
    cases he
    rfl
  | ok f =>
    rw [slice_of_fetch_ok hn] at he
    obtain ⟨offset, requested, read, rfl⟩ := ht
    by_cases hne : (decoder.answer (f.request c.addressBase)).instructions = []
    · rw [f.listing_of_nil hne] at he
      cases he
    · rw [f.listing_of_ne_nil hne] at he
      cases he

theorem slice_truncated_widened {e : Fault} (hcap : c.maxWindow ≤ wide) (ht : e.IsTruncation)
    (he : (slice load decoder disk c path q).outcome = .error e) :
    ∃ e', (slice load decoder disk { c with maxWindow := wide } path q).outcome = .error e' ∧
      e'.IsTruncation := by
  have hf := fetch_outgrown load disk c path q hcap
  rw [fetch_of_slice_truncated ht he] at hf
  obtain ⟨d, hw, hd⟩ := hf.of_cut ht
  exact ⟨d, slice_of_fetch_error hw, hd⟩

/-- A window that no buffer holds is none the shorter for a wider cap. -/
theorem overflows_widened (hcap : c.maxWindow ≤ wide) (h : overflows load disk c path q) :
    overflows load disk { c with maxWindow := wide } path q := by
  obtain ⟨m, rva, s, file, ha, hs, hf, ho⟩ := overflows_iff_oversized.1 h
  have hcap := UInt64.le_iff_toNat_le.1 hcap
  refine overflows_iff_oversized.2 ⟨m, rva, s, file, ha, hs, hf, ho.above, ho.seekable, ?_⟩
  have := ho.tooLong
  change _ < min wide.toNat _
  omega

theorem outcome_eq_some_iff {r : Except Fault Listing} :
    (slice? load decoder disk c path q).map (·.outcome) = some r ↔
      ¬ overflows load disk c path q ∧ (slice load decoder disk c path q).outcome = r := by
  simp [slice?_eq_some_iff, and_assoc]

/-- A run with a wider cap gives the same listing or a longer one, unless its window leaves the file. It
stops at the file's end wherever the run with the narrower cap does. Either holds as far as the run has an
outcome: without one under the narrower cap it has none under the wider, and with a wider cap that a buffer
can have it has one under both. -/
theorem slice?_widened (load : Loader) (decoder : Decoder) (disk : Storage) (c : Config) (wide : Word)
    (path : String) (q : Query)
    (hd : (∃ (read : Reader) (name : String) (tells : Bool),
      read.Local ∧ decoder = read.decoder name tells) ∨ decoder.Extends)
    (hcap : c.maxWindow ≤ wide) :
    let narrow := (slice? load decoder disk c path q).map (·.outcome)
    let wider := (slice? load decoder disk { c with maxWindow := wide } path q).map (·.outcome)
    (∀ l l', narrow = some (.ok l) → wider = some (.ok l') → l.Grows l') ∧
      (∀ l e, narrow = some (.ok l) → wider = some (.error e) → e.IsTruncation) ∧
      (∀ e r, narrow = some (.error e) → e.IsTruncation → wider = some r →
        ∃ e', r = .error e' ∧ e'.IsTruncation) ∧
      (narrow = none → wider = none) ∧
      (wide.toNat ≤ 0x7fff_ffff_ffff_ffff → narrow.isSome ∧ wider.isSome) := by
  intro narrow wider
  have hd : decoder.Extends := by
    rcases hd with ⟨read, name, tells, hl, rfl⟩ | hd
    · exact Reader.decoder_extends hl name tells
    · exact hd
  refine ⟨?_, ?_, ?_, ?_, ?_⟩
  · intro l l' hl hl'
    rcases slice_ok_widened hd hcap (outcome_eq_some_iff.1 hl).2 with ⟨m, hm, hg⟩ | ⟨e, he, -⟩
    · cases (outcome_eq_some_iff.1 hl').2.symm.trans hm
      exact hg
    · cases (outcome_eq_some_iff.1 hl').2.symm.trans he
  · intro l e hl he
    rcases slice_ok_widened hd hcap (outcome_eq_some_iff.1 hl).2 with ⟨m, hm, -⟩ | ⟨d, hd, ht⟩
    · cases (outcome_eq_some_iff.1 he).2.symm.trans hm
    · cases (outcome_eq_some_iff.1 he).2.symm.trans hd
      exact ht
  · intro e r he ht hr
    obtain ⟨e', he', ht'⟩ := slice_truncated_widened hcap ht (outcome_eq_some_iff.1 he).2
    exact ⟨e', (outcome_eq_some_iff.1 hr).2.symm.trans he', ht'⟩
  · intro hn
    have ho : overflows load disk c path q := by
      refine Classical.byContradiction fun ho => ?_
      cases hn.symm.trans (outcome_eq_some_iff.2 ⟨ho, rfl⟩)
    exact Option.map_eq_none_iff.2 (slice?_of_overflows (overflows_widened hcap ho))
  · intro hw
    have hn : c.maxWindow.toNat ≤ 0x7fff_ffff_ffff_ffff :=
      Nat.le_trans (UInt64.le_iff_toNat_le.1 hcap) hw
    exact ⟨by rw [Option.isSome_map, slice?_of_cap hn, Option.isSome_some],
      by rw [Option.isSome_map, slice?_of_cap hw, Option.isSome_some]⟩

/-- A module of five bytes of code. -/
def fiveBytes : Loader := fun path =>
  pure (⟨path, .bits64, 0x140000000, [⟨".text", 0x1000, 5, 0⟩]⟩, fun _ => [])

/-- The narrower cap cuts the second instruction in half. -/
theorem slice?_widened_halved :
    let disk : Storage := fun _ => .ok (.file [0x55, 0x48, 0x89, 0xe5, 0xc3])
    let c : Config := { maxWindow := 3 }
    let run := fun c =>
      (slice? fiveBytes (X86.decoder .tight) disk c "m.bin" (.byAddress 0x1000)).map (·.outcome)
    ∃ l l', c.maxWindow ≤ 512 ∧ (X86.reader .tight).Local ∧ run c = some (.ok l) ∧
      run { c with maxWindow := 512 } = some (.ok l') ∧
      l.instructions.map (·.mnemonic) = ["push"] ∧
      l'.instructions.map (·.mnemonic) = ["push", "mov", "ret"] ∧ l.Grows l' := by
  intro disk c run
  have hcap : c.maxWindow ≤ 512 := by decide
  have hlocal := X86.reader_local .tight
  have hl : run c = some (.ok ⟨0x1000, .bits64, 0x140000000, ⟨0x1000, 0, 3, 5⟩,
      [⟨0x1000, 1, "push", "rbp", [0x55]⟩], some (.truncated 1)⟩) := by
    decide +kernel
  have hl' : run { c with maxWindow := 512 } = some (.ok ⟨0x1000, .bits64, 0x140000000,
      ⟨0x1000, 0, 5, 5⟩, [⟨0x1000, 1, "push", "rbp", [0x55]⟩,
        ⟨0x1001, 3, "mov", "rbp,rsp", [0x48, 0x89, 0xe5]⟩, ⟨0x1004, 1, "ret", "", [0xc3]⟩], none⟩) := by
    decide +kernel
  have hg := (slice?_widened fiveBytes (X86.decoder .tight) disk c 512 "m.bin" (.byAddress 0x1000)
    (.inl ⟨_, _, _, hlocal, rfl⟩) hcap).1 _ _ hl hl'
  exact ⟨_, _, hcap, hlocal, hl, hl', rfl, rfl, hg⟩

/-- The narrower cap tells that the file is too short, and the widest has no outcome. -/
theorem boastful_widened :
    let disk : Storage := fun _ => .ok (.file boastful)
    let c : Config := {}
    let wide : Word := 0xffffffffffffffff
    let run := fun c : Config => (slice? (objectLoader disk) (X86.decoder .tight) disk c "m.elf"
      (.byAddress 0)).map (·.outcome)
    c.check = .ok () ∧ ({ c with maxWindow := wide } : Config).check = .ok () ∧ c.maxWindow ≤ wide ∧
      (X86.decoder .tight).Extends ∧ run c = some (.error (.truncated 0 512 273)) ∧
      run { c with maxWindow := wide } = none := by
  intro disk c wide run
  exact ⟨rfl, rfl, by decide, X86.decoder_extends .tight, by decide +kernel, by decide +kernel⟩

end FunctionSlice
