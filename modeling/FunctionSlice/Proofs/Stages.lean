import FunctionSlice.Proofs.Buffer
import FunctionSlice.Proofs.Trim

/-! A run in exact arithmetic. `Staged` has one rule for each way a run can end, in the order of the
stages, and says what the decoder is asked on the way. Every run ends by exactly one of them. By one of
them it ends without an outcome: its window is longer than any buffer. -/

namespace FunctionSlice

/-- A buffer can have the length of the window. -/
def Window.IsHeld (w : Window) : Prop := w.length.toNat ≤ 0x7fff_ffff_ffff_ffff

/-- How a run ends, and what it asks of the decoder; `file` is the content of the module's file. -/
inductive Staged (load : Loader) (decoder : Decoder) (c : Config) (path : String) (q : Query)
    (file : Bytes) : Option Request → Option (Except Fault Listing) → Prop
  | notLoaded (e : Fault) : (load path).outcome = .error e →
      Staged load decoder c path q file none (some (.error e))
  | notResolved (m : Module) (symbols : SymbolSource) (e : Fault) :
      (load path).outcome = .ok (m, symbols) → (resolve symbols q).outcome = .error e →
      Staged load decoder c path q file none (some (.error e))
  | noSection (m : Module) (rva : Word) : Arrives load path q m rva →
      (∀ s ∈ m.sections, s.name ≠ c.codeSection) →
      Staged load decoder c path q file none (some (.error (.noSection c.codeSection)))
  | outside (m : Module) (rva : Word) (s : Section) : Arrives load path q m rva →
      m.HasFirst c.codeSection s → s.Misses rva →
      Staged load decoder c path q file none (some (.error (.outsideSection rva c.codeSection)))
  | unseekable (m : Module) (w : Window) : Lands load c path q m w →
      0x7fff_ffff_ffff_ffff < w.fileOffset.toNat →
      Staged load decoder c path q file none (some (.error (.system .invalidSeek)))
  | oversized (m : Module) (w : Window) : Lands load c path q m w →
      w.fileOffset.toNat ≤ 0x7fff_ffff_ffff_ffff → ¬ w.IsHeld →
      Staged load decoder c path q file none none
  | truncated (m : Module) (w : Window) : Lands load c path q m w →
      w.fileOffset.toNat ≤ 0x7fff_ffff_ffff_ffff → w.IsHeld →
      file.length < w.fileOffset.toNat + w.length.toNat →
      Staged load decoder c path q file none
        (some (.error (.truncated w.fileOffset w.length.toNat (file.length - w.fileOffset.toNat))))
  | undecodable (f : Fetched) : Reads load c path q file f → f.window.IsHeld →
      (decoder.answer (f.request c.addressBase)).instructions = [] →
      Staged load decoder c path q file (some (f.request c.addressBase))
        (some (.error (.undecodable f.window.rva f.window.length)))
  | ended (f : Fetched) (kept : List Instruction) : Reads load c path q file f → f.window.IsHeld →
      Ended c.policy (decoder.answer (f.request c.addressBase)).instructions kept →
      Staged load decoder c path q file (some (f.request c.addressBase))
        (some (.ok ⟨f.window.rva, f.origin.width, f.origin.imageBase, f.window, kept, none⟩))
  | unended (f : Fetched) (decoded : List Instruction) : Reads load c path q file f →
      f.window.IsHeld → (decoder.answer (f.request c.addressBase)).instructions = decoded →
      decoded ≠ [] → (∀ kept, ¬ Ended c.policy decoded kept) →
      Staged load decoder c path q file (some (f.request c.addressBase))
        (some (.ok ⟨f.window.rva, f.origin.width, f.origin.imageBase, f.window, decoded,
          some (.truncated decoded.length)⟩))

section

variable {load : Loader} {decoder : Decoder} {disk : Storage} {c : Config} {path : String} {q : Query}
  {file : Bytes}

/-- What a run asks of the decoder, if it comes to that. -/
def asked (load : Loader) (disk : Storage) (c : Config) (path : String) (q : Query) : Option Request :=
  if overflows load disk c path q then none
  else
    match (fetch load disk c path q).outcome with
    | .ok f => some (f.request c.addressBase)
    | .error _ => none

/-- The run asks `a` of the decoder and ends in `r`. -/
def Ends (load : Loader) (decoder : Decoder) (disk : Storage) (c : Config) (path : String) (q : Query)
    (a : Option Request) (r : Option (Except Fault Listing)) : Prop :=
  a = asked load disk c path q ∧ r = (slice? load decoder disk c path q).map (·.outcome)

theorem ends_of_overflows (h : overflows load disk c path q) :
    Ends load decoder disk c path q none none := by
  rw [Ends, asked, if_pos h, slice?_of_overflows h]
  exact ⟨rfl, rfl⟩

theorem ends_of_fetch_ok {f : Fetched} (ho : ¬ overflows load disk c path q)
    (h : (fetch load disk c path q).outcome = .ok f) :
    Ends load decoder disk c path q (some (f.request c.addressBase))
      (some (f.listing decoder c).outcome) := by
  rw [Ends, asked, if_neg ho, h, slice?_of_not_overflows ho, Option.map_some, slice_of_fetch_ok h]
  exact ⟨rfl, rfl⟩

/-- A rule that asks nothing of the decoder is one that fails before it. -/
theorem ends_of_fetch_error {e : Fault} (ho : ¬ overflows load disk c path q)
    (h : (fetch load disk c path q).outcome = .error e) :
    Ends load decoder disk c path q none (some (.error e)) := by
  rw [Ends, asked, if_neg ho, h, slice?_of_not_overflows ho, Option.map_some, slice_of_fetch_error h]
  exact ⟨rfl, rfl⟩

/-- A run that comes to no window fails before it asks for a buffer. -/
theorem ends_of_locate_error {e : Fault} (h : (locate load c path q).outcome = .error e) :
    Ends load decoder disk c path q none (some (.error e)) := by
  refine ends_of_fetch_error ?_ ?_
  · rw [overflows, h]
    exact Bool.false_ne_true
  · rw [fetch, Logged.outcome_bind_error h]

theorem Lands.not_overflows {m : Module} {w : Window} (hf : Backed load disk path file)
    (h : Lands load c path q m w) (hw : w.IsHeld) : ¬ overflows load disk c path q := by
  rw [h.overflows_iff hf]
  exact fun ho => absurd ho.2 (Nat.not_lt.2 hw)

theorem Staged.ends {a : Option Request} {r : Option (Except Fault Listing)} (hc : c.check = .ok ())
    (hf : Backed load disk path file) (h : Staged load decoder c path q file a r) :
    Ends load decoder disk c path q a r := by
  cases h with
  | notLoaded e hl => exact ends_of_locate_error (locate_error_iff.2 (.inl hl))
  | notResolved m symbols e hl hr =>
    exact ends_of_locate_error (locate_error_iff.2 (.inr (.inl ⟨m, symbols, hl, hr⟩)))
  | noSection m rva ha hs =>
    exact ends_of_locate_error (locate_error_iff.2 (.inr (.inr
      ⟨m, rva, ha, Module.window_error_iff.2 (.inl ⟨hs, rfl⟩)⟩)))
  | outside m rva s ha hs hm =>
    exact ends_of_locate_error (locate_error_iff.2 (.inr (.inr
      ⟨m, rva, ha, Module.window_error_iff.2 (.inr ⟨s, hs, hm, rfl⟩)⟩)))
  | unseekable m w hw hs =>
    have ho : ¬ overflows load disk c path q := by
      rw [hw.overflows_iff hf]
      omega
    exact ends_of_fetch_error ho (fetch_error_iff.2 (.inr
      ⟨m, w, _, hw, Source.readAt_of_unseekable (hw.backed hf) hs, rfl⟩))
  | oversized m w hw hs hn =>
    exact ends_of_overflows ((hw.overflows_iff hf).2 ⟨hs, Nat.not_le.1 hn⟩)
  | truncated m w hw hs hh ht =>
    exact ends_of_fetch_error (hw.not_overflows hf hh) (fetch_error_iff.2 (.inr
      ⟨m, w, _, hw, Source.readAt_of_not_covered (hw.backed hf) hs (hw.length_ne_zero hc) ht,
        rfl⟩))
  | undecodable f hr hh hd =>
    rw [← f.listing_of_nil hd]
    exact ends_of_fetch_ok (hr.lands.not_overflows hf hh) ((fetch_ok_iff_reads hc hf).2 hr)
  | ended f kept hr hh he =>
    have hl := f.listing_of_ne_nil he.ne_nil
    rw [Listing.of, trim_of_ended he] at hl
    rw [← hl]
    exact ends_of_fetch_ok (hr.lands.not_overflows hf hh) ((fetch_ok_iff_reads hc hf).2 hr)
  | unended f decoded hr hh hd hne he =>
    subst hd
    have hl := f.listing_of_ne_nil hne
    rw [Listing.of, trim_of_not_ended he] at hl
    rw [← hl]
    exact ends_of_fetch_ok (hr.lands.not_overflows hf hh) ((fetch_ok_iff_reads hc hf).2 hr)

/-- Some rule always applies. -/
theorem exists_staged : ∃ a r, Staged load decoder c path q file a r := by
  cases h : (locate load c path q).outcome with
  | error e =>
    rcases locate_error_iff.1 h with hl | ⟨m, symbols, hl, hr⟩ | ⟨m, rva, ha, hw⟩
    · exact ⟨_, _, .notLoaded e hl⟩
    · exact ⟨_, _, .notResolved m symbols e hl hr⟩
    · rcases Module.window_error_iff.1 hw with ⟨hs, rfl⟩ | ⟨s, hs, hm, rfl⟩
      · exact ⟨_, _, .noSection m rva ha hs⟩
      · exact ⟨_, _, .outside m rva s ha hs hm⟩
  | ok found =>
    obtain ⟨m, w⟩ := found
    have hw := locate_ok_iff.1 h
    by_cases hs : w.fileOffset.toNat ≤ 0x7fff_ffff_ffff_ffff
    case neg => exact ⟨_, _, .unseekable m w hw (by omega)⟩
    by_cases hh : w.IsHeld
    case neg => exact ⟨_, _, .oversized m w hw hs hh⟩
    by_cases ht : w.fileOffset.toNat + w.length.toNat ≤ file.length
    case neg => exact ⟨_, _, .truncated m w hw hs hh (by omega)⟩
    let f : Fetched := ⟨m, w, w.cut file⟩
    have hr : Reads load c path q file f := ⟨hw, hs, ht, rfl⟩
    by_cases hd : (decoder.answer (f.request c.addressBase)).instructions = []
    · exact ⟨_, _, .undecodable f hr hh hd⟩
    · rcases ended_or_not c.policy (decoder.answer (f.request c.addressBase)).instructions with
        ⟨kept, he⟩ | he
      · exact ⟨_, _, .ended f kept hr hh he⟩
      · exact ⟨_, _, .unended f _ hr hh rfl hd he⟩

theorem staged_iff_ends {a : Option Request} {r : Option (Except Fault Listing)}
    (hc : c.check = .ok ()) (hf : Backed load disk path file) :
    Staged load decoder c path q file a r ↔ Ends load decoder disk c path q a r := by
  refine ⟨Staged.ends hc hf, ?_⟩
  rintro ⟨rfl, rfl⟩
  obtain ⟨a, r, h⟩ : ∃ a r, Staged load decoder c path q file a r := exists_staged
  obtain ⟨rfl, rfl⟩ := h.ends hc hf
  exact h

/-- The decoder counts only by its name and by what it answers to the one request. -/
theorem slice?_congr {other : Decoder} (hn : other.name = decoder.name)
    (h : ∀ r ∈ asked load disk c path q, other.answer r = decoder.answer r) :
    slice? load other disk c path q = slice? load decoder disk c path q := by
  by_cases ho : overflows load disk c path q
  · rw [slice?_of_overflows ho, slice?_of_overflows ho]
  rw [slice?_of_not_overflows ho, slice?_of_not_overflows ho]
  unfold slice
  refine congrArg some (Logged.bind_congr_ok fun _ _ => Logged.bind_congr_ok fun f hfetch => ?_)
  have hr := h (f.request c.addressBase) (by rw [asked, if_neg ho, hfetch]; rfl)
  simp only [Fetched.listing, hr, hn]

end

def Event.isDecoding : Event → Bool
  | .decoded .. => true
  | _ => false

/-- How many times a computation reports that a decoder was at work. -/
def Logged.decodings {ε α : Type} (x : Logged ε α) : Nat := x.events.countP Event.isDecoding

namespace Logged

variable {ε α β : Type}

theorem decodings_bind_ok {x : Logged ε α} {a : α} (h : x.outcome = .ok a) (f : α → Logged ε β) :
    (x >>= f).decodings = x.decodings + (f a).decodings := by
  rw [decodings, events_bind_ok h, List.countP_append]
  rfl

theorem decodings_bind_error {x : Logged ε α} {e : ε} (h : x.outcome = .error e)
    (f : α → Logged ε β) : (x >>= f).decodings = x.decodings := by
  rw [decodings, events_bind_error h]
  rfl

/-- What comes after adds nothing if it never decodes. -/
theorem decodings_bind_quiet {x : Logged ε α} {f : α → Logged ε β}
    (h : ∀ a, (f a).decodings = 0) : (x >>= f).decodings = x.decodings := by
  cases hx : x.outcome with
  | error e => exact decodings_bind_error hx f
  | ok a => rw [decodings_bind_ok hx, h, Nat.add_zero]

theorem decodings_pure (a : α) : (pure a : Logged ε α).decodings = 0 := rfl

end Logged

section

variable {load : Loader} {decoder : Decoder} {disk : Storage} {c : Config} {path : String} {q : Query}
  {file : Bytes}

theorem decodings_resolve (symbols : SymbolSource) : (resolve symbols q).decodings = 0 := by
  cases q with
  | byAddress rva => rfl
  | byName name =>
    unfold resolve
    simp only
    split <;> rfl

theorem decodings_window (m : Module) (name : String) (rva cap : Word) :
    (m.window name rva cap).decodings = 0 := by
  unfold Module.window Section.window
  split
  · split <;> rfl
  · rfl

theorem decodings_readAt (w : Window) : (Source.readAt disk path w).decodings = 0 := by
  have ho : (Source.ofPath disk path).decodings = 0 := by
    unfold Source.ofPath
    split <;> rfl
  refine (Logged.decodings_bind_quiet fun s => ?_).trans ho
  rw [Source.read_eq]
  unfold Source.deliver
  split
  · split <;> rfl
  · rfl

theorem decodings_fetch : (fetch load disk c path q).decodings = (load path).decodings := by
  rw [fetch_eq]
  refine Logged.decodings_bind_quiet fun ⟨m, symbols⟩ => ?_
  refine (Logged.decodings_bind_quiet fun rva => ?_).trans (decodings_resolve symbols)
  refine (Logged.decodings_bind_quiet fun w => ?_).trans (decodings_window m _ rva _)
  exact (Logged.decodings_bind_quiet fun bytes => Logged.decodings_pure _).trans (decodings_readAt w)

theorem decodings_listing (f : Fetched) : (f.listing decoder c).decodings = 1 := by
  have hs : (Logged.emitAll (decoder.answer (f.request c.addressBase)).events :
      Logged Fault Unit).decodings = 0 := by
    unfold Decoded.events
    cases (decoder.answer (f.request c.addressBase)).stoppedAt <;> rfl
  have ht (xs : List Instruction) :
      (Logged.emitAll (trimEvents xs c.policy) : Logged Fault Unit).decodings = 0 := by
    unfold trimEvents
    split <;> rfl
  unfold Fetched.listing
  rw [Logged.decodings_bind_ok rfl, hs, Nat.zero_add]
  refine (Logged.decodings_bind_quiet fun _ => ?_).trans rfl
  split
  · rfl
  · exact (Logged.decodings_bind_quiet fun _ => Logged.decodings_pure _).trans (ht _)

/-- Beside what the loader does, a run decodes as often as it has a request. -/
theorem decodings_slice? :
    ∀ run ∈ slice? load decoder disk c path q,
      run.decodings = (load path).decodings + (asked load disk c path q).toList.length := by
  intro run hrun
  obtain ⟨ho, rfl⟩ := slice?_eq_some_iff.1 hrun
  rw [asked, if_neg ho, slice, Logged.decodings_bind_ok rfl]
  cases h : (fetch load disk c path q).outcome with
  | error e =>
    rw [Logged.decodings_bind_error h, decodings_fetch]
    exact Nat.zero_add _
  | ok f =>
    rw [Logged.decodings_bind_ok h, decodings_fetch, decodings_listing]
    exact Nat.zero_add _

/-- A run ends as its first failing stage says, in exact arithmetic, or in the listing of what the
decoder answers; the decoder is at work once if the window was read, on that window, and else never. A read
cap or a file that keeps to what a buffer can have is enough for an outcome. -/
theorem slice?_staged (load : Loader) (decoder : Decoder) (disk : Storage) (c : Config)
    (path : String) (q : Query) (file : Bytes) (hc : c.check = .ok ())
    (hf : Backed load disk path file) :
    (∃ a : Option Request,
      (∀ b r, Staged load decoder c path q file b r ↔
        b = a ∧ r = (slice? load decoder disk c path q).map (·.outcome)) ∧
      (∀ run ∈ slice? load decoder disk c path q,
        run.decodings = (load path).decodings + a.toList.length) ∧
      ∀ other : Decoder, other.name = decoder.name → (∀ r ∈ a, other.answer r = decoder.answer r) →
        slice? load other disk c path q = slice? load decoder disk c path q) ∧
    ((c.maxWindow.toNat ≤ 0x7fff_ffff_ffff_ffff ∨ ∀ m symbols, (load path).outcome = .ok (m, symbols) →
        ∀ s ∈ m.sections, s.rawSize.toNat ≤ 0x7fff_ffff_ffff_ffff) →
      (slice? load decoder disk c path q).isSome) := by
  refine ⟨⟨asked load disk c path q, fun b r => staged_iff_ends hc hf, decodings_slice?,
    fun other => slice?_congr⟩, ?_⟩
  rintro (hcap | hsections)
  · rw [slice?_of_cap hcap, Option.isSome_some]
  · rw [slice?_of_sections hsections, Option.isSome_some]

end

/-- A module with two sections of the code's name. -/
def twoTexts : Loader := fun path =>
  pure (⟨path, .bits64, 0x140000000,
    [⟨".data", 0x3000, 0x20, 0x80⟩, ⟨".text", 0x1000, 0x20, 0x10⟩, ⟨".text", 0x1000, 0x20, 0x40⟩]⟩,
    fun _ => [])

/-- The first of the two counts, and the file ends inside the window. -/
theorem slice?_staged_short_file :
    let disk : Storage := fun _ => .ok (.file (List.replicate 28 0))
    let decoder : Decoder := ⟨"none", fun _ _ _ => ⟨[], none⟩⟩
    ({} : Config).check = .ok () ∧ Backed twoTexts disk "m.bin" (List.replicate 28 0) ∧
      (slice? twoTexts decoder disk {} "m.bin" (.byAddress 0x1008)).map (·.outcome) =
        some (.error (.truncated 0x18 0x18 4)) := by
  intro disk decoder
  have hf : Backed twoTexts disk "m.bin" (List.replicate 28 0) := fun _ _ _ => rfl
  refine ⟨rfl, hf, ?_⟩
  obtain ⟨⟨a, h, -⟩, -⟩ := slice?_staged twoTexts decoder disk {} "m.bin" (.byAddress 0x1008)
    (List.replicate 28 0) rfl hf
  have hw : Lands twoTexts {} "m.bin" (.byAddress 0x1008) _ ⟨0x1008, 0x18, 0x18, 0x18⟩ :=
    ⟨0x1008, ⟨".text", 0x1000, 0x20, 0x10⟩, ⟨_, rfl, rfl⟩, ⟨[_], [_], rfl, rfl, by decide⟩, rfl,
      by decide, by decide, by decide, by decide, by decide⟩
  have hh : Window.IsHeld ⟨0x1008, 0x18, 0x18, 0x18⟩ := by
    unfold Window.IsHeld
    decide
  exact ((h none _).1 (.truncated _ _ hw (by decide) hh (by decide))).2.symm

/-- The window leaves the file, and the run does not say so. -/
theorem boastful_not_truncated :
    let disk : Storage := fun _ => .ok (.file boastful)
    let c : Config := { maxWindow := 0xffffffffffffffff }
    let load := objectLoader disk
    ∃ m w, c.check = .ok () ∧ Backed load disk "m.elf" boastful ∧
      Lands load c "m.elf" (.byAddress 0) m w ∧ w.fileOffset.toNat ≤ 0x7fff_ffff_ffff_ffff ∧
      boastful.length < w.fileOffset.toNat + w.length.toNat ∧
      (slice? load (X86.decoder c.dialect) disk c "m.elf" (.byAddress 0)).map (·.outcome) ≠
        some (.error (.truncated w.fileOffset w.length.toNat
          (boastful.length - w.fileOffset.toNat))) := by
  intro disk c load
  have hf : Backed load disk "m.elf" boastful := fun _ _ _ => rfl
  have hw : (locate load c "m.elf" (.byAddress 0)).outcome.toOption.map Prod.snd =
      some ⟨0, 0, 0xffffffffffffffff, 0xffffffffffffffff⟩ := by
    decide +kernel
  cases hm : (locate load c "m.elf" (.byAddress 0)).outcome with
  | error e =>
    rw [hm] at hw
    cases hw
  | ok found =>
    obtain ⟨m, w⟩ := found
    rw [hm] at hw
    cases hw
    have hl : Lands load c "m.elf" (.byAddress 0) m _ := locate_ok_iff.1 hm
    have ho : overflows load disk c "m.elf" (.byAddress 0) := (hl.overflows_iff hf).2 (by decide)
    refine ⟨m, _, rfl, hf, hl, by decide, by decide +kernel, ?_⟩
    rw [slice?_of_overflows ho]
    exact nofun

end FunctionSlice
