import FunctionSlice.Proofs.Mapping
import FunctionSlice.Proofs.Source
import FunctionSlice.Slice

/-! What a run has in hand before it decodes, and how it can fail up to there. The bytes are settled
before the decoder, the boundary policy or the addresses to show come in. -/

namespace FunctionSlice

/-- The loader gives the module, and the query stands for the address. -/
def Arrives (load : Loader) (path : String) (q : Query) (m : Module) (rva : Word) : Prop :=
  ∃ symbols, (load path).outcome = .ok (m, symbols) ∧ (resolve symbols q).outcome = .ok rva

/-- The address has the window `w` in the first section of the configured name. -/
def Lands (load : Loader) (c : Config) (path : String) (q : Query) (m : Module) (w : Window) : Prop :=
  ∃ rva s, Arrives load path q m rva ∧ m.HasFirst c.codeSection s ∧ s.Maps rva c.maxWindow w

variable {load : Loader} {disk : Storage} {c : Config} {path : String} {q : Query}

theorem Lands.window_ok {m : Module} {w : Window} :
    Lands load c path q m w ↔
      ∃ rva, Arrives load path q m rva ∧ (m.window c.codeSection rva c.maxWindow).outcome = .ok w := by
  simp only [Module.window_ok_iff]
  constructor
  · rintro ⟨rva, s, ha, hs⟩
    exact ⟨rva, ha, s, hs⟩
  · rintro ⟨rva, ha, s, hs⟩
    exact ⟨rva, s, ha, hs⟩

/-- The steps up to the read in one row. -/
theorem fetch_eq (load : Loader) (disk : Storage) (c : Config) (path : String) (q : Query) :
    fetch load disk c path q = do
      let (m, symbols) ← load path
      let rva ← resolve symbols q
      let w ← m.window c.codeSection rva c.maxWindow
      let bytes ← (Source.readAt disk m.path w).mapError ReadFault.toFault
      return ⟨m, w, bytes⟩ := by
  simp only [fetch, locate, Logged.bind_assoc, Logged.pure_bind]

theorem locate_ok_iff {m : Module} {w : Window} :
    (locate load c path q).outcome = .ok (m, w) ↔ Lands load c path q m w := by
  rw [Lands.window_ok]
  simp only [locate, Arrives, Logged.outcome_bind_eq_ok, Logged.outcome_pure, Except.ok.injEq]
  constructor
  · rintro ⟨⟨m, symbols⟩, hl, rva, hr, w, hw, he⟩
    cases he
    exact ⟨rva, ⟨symbols, hl, hr⟩, hw⟩
  · rintro ⟨rva, ⟨symbols, hl, hr⟩, hw⟩
    exact ⟨⟨m, symbols⟩, hl, rva, hr, w, hw, rfl⟩

theorem fetch_ok_iff {f : Fetched} :
    (fetch load disk c path q).outcome = .ok f ↔
      Lands load c path q f.origin f.window ∧
        (Source.readAt disk f.origin.path f.window).outcome = .ok f.bytes := by
  rw [Lands.window_ok]
  simp only [fetch_eq, Arrives, Logged.outcome_bind_eq_ok, Logged.outcome_mapError_eq_ok,
    Logged.outcome_pure, Except.ok.injEq]
  constructor
  · rintro ⟨⟨m, symbols⟩, hl, rva, hr, w, hw, bytes, hb, rfl⟩
    exact ⟨⟨rva, ⟨symbols, hl, hr⟩, hw⟩, hb⟩
  · rintro ⟨⟨rva, ⟨symbols, hl, hr⟩, hw⟩, hb⟩
    exact ⟨⟨f.origin, symbols⟩, hl, rva, hr, f.window, hw, f.bytes, hb, rfl⟩

theorem locate_error_iff {e : Fault} :
    (locate load c path q).outcome = .error e ↔
      (load path).outcome = .error e ∨
      (∃ m symbols, (load path).outcome = .ok (m, symbols) ∧ (resolve symbols q).outcome = .error e) ∨
      ∃ m rva, Arrives load path q m rva ∧
        (m.window c.codeSection rva c.maxWindow).outcome = .error e := by
  simp only [locate, Arrives, Logged.outcome_bind_eq_error, Logged.outcome_pure, reduceCtorEq, and_false,
    exists_false, or_false]
  constructor
  · rintro (h | ⟨⟨m, symbols⟩, hl, h | ⟨rva, hr, h⟩⟩)
    · exact .inl h
    · exact .inr (.inl ⟨m, symbols, hl, h⟩)
    · exact .inr (.inr ⟨m, rva, ⟨symbols, hl, hr⟩, h⟩)
  · rintro (h | ⟨m, symbols, hl, h⟩ | ⟨m, rva, ⟨symbols, hl, hr⟩, h⟩)
    · exact .inl h
    · exact .inr ⟨⟨m, symbols⟩, hl, .inl h⟩
    · exact .inr ⟨⟨m, symbols⟩, hl, .inr ⟨rva, hr, h⟩⟩

theorem fetch_error_iff {e : Fault} :
    (fetch load disk c path q).outcome = .error e ↔
      (locate load c path q).outcome = .error e ∨
      ∃ m w cause, Lands load c path q m w ∧
        (Source.readAt disk m.path w).outcome = .error cause ∧ cause.toFault = e := by
  simp only [fetch, ← locate_ok_iff, Logged.outcome_bind_eq_error, Logged.outcome_mapError_eq_error,
    Logged.outcome_pure, reduceCtorEq, and_false, exists_false, or_false]
  constructor
  · rintro (h | ⟨⟨m, w⟩, hw, cause, hc, he⟩)
    · exact .inl h
    · exact .inr ⟨m, w, cause, hw, hc, he⟩
  · rintro (h | ⟨m, w, cause, hw, hc, he⟩)
    · exact .inl h
    · exact .inr ⟨⟨m, w⟩, hw, cause, hc, he⟩

/-- The run comes to decoding, with the bytes of the file that the window covers. -/
structure Reads (load : Loader) (c : Config) (path : String) (q : Query) (file : Bytes)
    (f : Fetched) : Prop where
  lands : Lands load c path q f.origin f.window
  seekable : f.window.fileOffset.toNat ≤ 0x7fff_ffff_ffff_ffff
  covered : f.window.fileOffset.toNat + f.window.length.toNat ≤ file.length
  bytes : f.bytes = f.window.cut file

variable {file : Bytes} {m : Module} {w : Window}

theorem Config.maxWindow_ne_zero (hc : c.check = .ok ()) : c.maxWindow ≠ 0 := by
  intro hz
  simp [check, hz] at hc

theorem Lands.length_ne_zero (hc : c.check = .ok ()) (h : Lands load c path q m w) :
    w.length ≠ 0 := by
  obtain ⟨rva, s, -, -, hm⟩ := h
  exact hm.length_ne_zero (Config.maxWindow_ne_zero hc)

/-- The module that the loader gives is backed by a file with this content. -/
def Backed (load : Loader) (disk : Storage) (path : String) (file : Bytes) : Prop :=
  ∀ m symbols, (load path).outcome = .ok (m, symbols) → disk m.path = .ok (.file file)

theorem Lands.backed (hf : Backed load disk path file) (h : Lands load c path q m w) :
    disk m.path = .ok (.file file) := by
  obtain ⟨rva, s, ⟨symbols, hl, -⟩, -⟩ := h
  exact hf m symbols hl

theorem fetch_ok_iff_reads {f : Fetched} (hc : c.check = .ok ())
    (hf : Backed load disk path file) :
    (fetch load disk c path q).outcome = .ok f ↔ Reads load c path q file f := by
  rw [fetch_ok_iff]
  constructor
  · rintro ⟨hw, hr⟩
    have hfile := hw.backed hf
    by_cases hs : f.window.fileOffset.toNat ≤ 0x7fff_ffff_ffff_ffff
    · by_cases ht : f.window.fileOffset.toNat + f.window.length.toNat ≤ file.length
      · rw [Source.readAt_of_covered hfile hs ht] at hr
        exact ⟨hw, hs, ht, (Except.ok.inj hr).symm⟩
      · rw [Source.readAt_of_not_covered hfile hs (hw.length_ne_zero hc) (by omega)] at hr
        cases hr
    · rw [Source.readAt_of_unseekable hfile (by omega)] at hr
      cases hr
  · rintro ⟨hw, hs, ht, hb⟩
    exact ⟨hw, by rw [hb, Source.readAt_of_covered (hw.backed hf) hs ht]⟩

/-- Whatever was fetched comes from a file. -/
theorem exists_reads {f : Fetched} (hc : c.check = .ok ())
    (h : (fetch load disk c path q).outcome = .ok f) :
    ∃ file, disk f.origin.path = .ok (.file file) ∧ Reads load c path q file f := by
  obtain ⟨hw, hr⟩ := fetch_ok_iff.1 h
  obtain ⟨file, hfile⟩ := Source.exists_file_of_readAt hr
  obtain ⟨rva, s, ⟨symbols, hl, -⟩, -⟩ := hw
  have hf : Backed load disk path file := by
    intro m t hm
    rw [hl] at hm
    cases hm
    exact hfile
  exact ⟨file, hfile, (fetch_ok_iff_reads hc hf).1 h⟩

theorem Fetched.listing_of_nil (f : Fetched) {decoder : Decoder}
    (h : (decoder.answer (f.request c.addressBase)).instructions = []) :
    (f.listing decoder c).outcome = .error (.undecodable f.window.rva f.window.length) := by
  simp [listing, h]

theorem Fetched.listing_of_ne_nil (f : Fetched) {decoder : Decoder}
    (h : (decoder.answer (f.request c.addressBase)).instructions ≠ []) :
    (f.listing decoder c).outcome = .ok
      (Listing.of f.origin c.policy f.window
        (decoder.answer (f.request c.addressBase)).instructions) := by
  simp [listing, h]

variable {decoder : Decoder}

theorem slice_of_fetch_error {e : Fault} (h : (fetch load disk c path q).outcome = .error e) :
    (slice load decoder disk c path q).outcome = .error e := by
  rw [slice, Logged.outcome_emit_bind, Logged.outcome_bind_error h]

theorem slice_of_fetch_ok {f : Fetched} (h : (fetch load disk c path q).outcome = .ok f) :
    (slice load decoder disk c path q).outcome = (f.listing decoder c).outcome := by
  rw [slice, Logged.outcome_emit_bind, Logged.outcome_bind_ok h]

/-- A run comes to a listing only over a window that was read and a decoder that found something. -/
theorem slice_ok_iff {l : Listing} :
    (slice load decoder disk c path q).outcome = .ok l ↔
      ∃ f, (fetch load disk c path q).outcome = .ok f ∧
        (decoder.answer (f.request c.addressBase)).instructions ≠ [] ∧
        l = Listing.of f.origin c.policy f.window
          (decoder.answer (f.request c.addressBase)).instructions := by
  cases h : (fetch load disk c path q).outcome with
  | error e => simp [slice_of_fetch_error h]
  | ok f =>
    rw [slice_of_fetch_ok h]
    by_cases hd : (decoder.answer (f.request c.addressBase)).instructions = []
    · simp [f.listing_of_nil hd, hd]
    · rw [f.listing_of_ne_nil hd]
      constructor
      · intro hl
        cases hl
        exact ⟨f, rfl, hd, rfl⟩
      · rintro ⟨g, hg, -, rfl⟩
        cases hg
        rfl

end FunctionSlice
