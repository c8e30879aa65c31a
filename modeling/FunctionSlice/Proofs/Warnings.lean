import FunctionSlice.Load
import FunctionSlice.Proofs.Buffer
import FunctionSlice.Proofs.Resolution
import FunctionSlice.Proofs.Trim

/-! The warnings in the log of a run, and its outcome, tell the same. A stage that succeeds warns of
nothing; one that fails warns once of what went wrong, or leaves it to the error. A listing is warned of
if its function has no end. -/

namespace FunctionSlice

def Event.isWarning (e : Event) : Bool := e.level == .warn

/-- No warning goes with the failure. -/
def Fault.isQuiet : Fault → Bool
  | .foreignMachine _ | .outsideSection .. | .truncated .. => false
  | _ => true

/-- The warnings that go with a failure. -/
inductive Fault.Warned : Fault → List Event → Prop
  | foreignMachine (name : String) : Warned (.foreignMachine name) [.foreignCode name]
  | outsideSection (rva : Word) (s : Section) : Warned (.outsideSection rva s.name) [.outside rva s]
  | truncated (path : String) (offset : Word) (requested read : Nat) :
      Warned (.truncated offset requested read) [.shortRead path offset requested read]
  | quiet (e : Fault) : e.isQuiet → Warned e []

/-- The warnings that go with an outcome under a boundary policy. -/
inductive Accords (p : Policy) : Except Fault Listing → List Event → Prop
  | failed (e : Fault) (es : List Event) : e.Warned es → Accords p (.error e) es
  | unended (l : Listing) (n : Nat) : l.warning = some (.truncated n) →
      Accords p (.ok l) [.noReturn (.truncated n) (l.instructions.head?.any (·.isReturn)) p]
  | ended (l : Listing) : l.warning = none → Accords p (.ok l) []

/-- What the log says under an outcome, if it warns of anything. -/
def warningText? : Except Fault Listing → Option String
  | .error (.foreignMachine _) => some "Module is not x86 code"
  | .error (.outsideSection _ _) => some "RVA outside code section"
  | .error (.truncated _ _ _) => some "Short read"
  | .error _ => none
  | .ok l =>
    l.warning.map fun (.truncated n) =>
      "no return found in " ++ toString n ++ " decoded instructions; function may be truncated"

theorem Accords.message_eq {p : Policy} {r : Except Fault Listing} {es : List Event}
    (h : Accords p r es) : es.map (·.message) = (warningText? r).toList := by
  cases h with
  | failed e es h =>
    cases h with
    | foreignMachine | outsideSection | truncated => rfl
    | quiet _ hq => cases e <;> first | rfl | cases hq
  | unended l n h =>
    simp only [warningText?, h]
    rfl
  | ended l h =>
    simp only [warningText?, h]
    rfl

namespace Logged

variable {ε α β : Type}

def warnings (x : Logged ε α) : List Event := x.events.filter (·.isWarning)

theorem warnings_bind_ok {x : Logged ε α} {a : α} (h : x.outcome = .ok a) (f : α → Logged ε β) :
    (x >>= f).warnings = x.warnings ++ (f a).warnings := by
  rw [warnings, events_bind_ok h, List.filter_append]
  rfl

theorem warnings_bind_error {x : Logged ε α} {e : ε} (h : x.outcome = .error e)
    (f : α → Logged ε β) : (x >>= f).warnings = x.warnings := by
  rw [warnings, events_bind_error h]
  rfl

/-- The computation warns of its failure as the failure asks for, and of nothing if it succeeds. -/
structure Candid (x : Logged Fault α) : Prop where
  ok : ∀ a, x.outcome = .ok a → x.warnings = []
  error : ∀ e, x.outcome = .error e → e.Warned x.warnings

theorem candid_pure (a : α) : (pure a : Logged Fault α).Candid :=
  ⟨fun _ _ => rfl, nofun⟩

theorem candid_emit {e : Event} (h : e.isWarning = false) : (emit e : Logged Fault Unit).Candid :=
  ⟨fun _ _ => by simp [warnings, emit, h], nofun⟩

theorem candid_fail {e : Fault} (h : e.isQuiet) : (fail e : Logged Fault α).Candid := by
  refine ⟨nofun, fun d hd => ?_⟩
  cases hd
  exact .quiet e h

/-- A warning, and then the failure that it goes with. -/
theorem candid_warn {e : Fault} {w : Event} (hw : w.isWarning) (h : e.Warned [w]) :
    (do emit w; fail e : Logged Fault α).Candid := by
  refine ⟨nofun, fun d hd => ?_⟩
  cases hd
  rw [warnings_bind_ok rfl]
  simpa [warnings, emit, fail, hw] using h

theorem Candid.bind {x : Logged Fault α} {f : α → Logged Fault β} (hx : x.Candid)
    (hf : ∀ a, (f a).Candid) : (x >>= f).Candid := by
  cases h : x.outcome with
  | error e =>
    refine ⟨fun b hb => ?_, fun d hd => ?_⟩
    · rw [outcome_bind_error h] at hb
      cases hb
    · rw [outcome_bind_error h] at hd
      cases hd
      rw [warnings_bind_error h]
      exact hx.error e h
  | ok a =>
    have hw : (x >>= f).warnings = (f a).warnings := by
      rw [warnings_bind_ok h, hx.ok a h, List.nil_append]
    refine ⟨fun b hb => ?_, fun d hd => ?_⟩
    · rw [outcome_bind_ok h] at hb
      rw [hw, (hf a).ok b hb]
    · rw [outcome_bind_ok h] at hd
      rw [hw]
      exact (hf a).error d hd

end Logged

open Logged

theorem Image.candid_load (o : Image) (path : String) : (o.load path).Candid := by
  unfold load
  split
  · exact candid_warn rfl (.foreignMachine _)
  · exact (candid_emit rfl).bind fun _ => (candid_emit rfl).bind fun _ => candid_pure _

theorem candid_parseModule (path : String) (data : Bytes) : (parseModule path data).Candid := by
  unfold parseModule
  split
  · exact Image.candid_load _ path
  · exact candid_fail rfl

theorem candid_loadModule (disk : Storage) (path : String) : (loadModule disk path).Candid := by
  unfold loadModule
  split
  · exact candid_fail rfl
  · exact candid_fail rfl
  · refine (candid_emit rfl).bind fun _ => ?_
    split
    · exact candid_fail rfl
    · exact candid_parseModule path _

theorem candid_objectLoader (disk : Storage) (path : String) : (objectLoader disk path).Candid :=
  (candid_loadModule disk path).bind fun _ => candid_pure _

/-- The only defect on the way to the symbols of a name is one of the mask. -/
theorem exists_defect_of_hits {source : SymbolSource} {name : String} {e : Fault}
    (h : hits source name = .error e) : ∃ d : MaskDefect, d.toFault = e := by
  by_cases hn : name = ""
  · subst hn
    cases h
    exact ⟨.empty, rfl⟩
  by_cases hl : source ⟨name, false⟩ = []
  · by_cases hw : Mask.hasWildcards name
    · cases hm : Mask.ofText name with
      | ok m =>
        rw [hits_of_mask hn hl hw hm] at h
        cases h
      | error d =>
        rw [hits_of_defect hn hl hw hm] at h
        cases h
        exact ⟨d, rfl⟩
    · rw [hits_of_plain hn hl hw] at h
      cases h
  · rw [hits_of_found hn hl] at h
    cases h

theorem candid_resolve (source : SymbolSource) (q : Query) : (resolve source q).Candid := by
  cases q with
  | byAddress rva => exact candid_pure rva
  | byName name =>
    unfold resolve
    simp only
    split
    · rename_i e h
      obtain ⟨d, rfl⟩ := exists_defect_of_hits h
      exact candid_fail rfl
    · exact (candid_emit rfl).bind fun _ => candid_pure _
    · exact (candid_emit rfl).bind fun _ => candid_fail rfl

theorem Module.candid_window (m : Module) (name : String) (rva cap : Word) :
    (m.window name rva cap).Candid := by
  unfold window Section.window
  split
  · split
    · exact (candid_emit rfl).bind fun _ => candid_pure _
    · exact candid_warn rfl (.outsideSection rva _)
  · exact candid_fail rfl

namespace Source

theorem candid_ofPath (disk : Storage) (path : String) :
    ((ofPath disk path).mapError ReadFault.toFault).Candid := by
  unfold ofPath
  split
  · exact candid_fail rfl
  · exact candid_fail rfl
  · rw [mapError_bind]
    exact (candid_emit rfl).bind fun _ => candid_pure _

theorem candid_read (s : Source) (w : Window) : ((s.read w).mapError ReadFault.toFault).Candid := by
  rw [read_eq]
  unfold deliver
  split
  · split
    · exact candid_warn rfl (.truncated s.label _ _ _)
    · exact (candid_emit rfl).bind fun _ => candid_pure _
  · exact candid_fail rfl

theorem candid_readAt (disk : Storage) (path : String) (w : Window) :
    ((readAt disk path w).mapError ReadFault.toFault).Candid := by
  rw [readAt, mapError_bind]
  exact (candid_ofPath disk path).bind fun s => s.candid_read w

end Source

theorem candid_locate {load : Loader} (hl : ∀ path, (load path).Candid) (c : Config) (path : String)
    (q : Query) : (locate load c path q).Candid :=
  (hl path).bind fun ⟨m, symbols⟩ => (candid_resolve symbols q).bind fun rva =>
    (m.candid_window c.codeSection rva c.maxWindow).bind fun _ => candid_pure _

theorem candid_fetch {load : Loader} (hl : ∀ path, (load path).Candid) (disk : Storage) (c : Config)
    (path : String) (q : Query) : (fetch load disk c path q).Candid :=
  (candid_locate hl c path q).bind fun ⟨m, w⟩ =>
    (Source.candid_readAt disk m.path w).bind fun _ => candid_pure _

theorem findReturn_beq_zero (xs : List Instruction) :
    (findReturn xs == some 0) = xs.head?.any (·.isReturn) := by
  cases xs with
  | nil => rfl
  | cons i xs =>
    rw [findReturn, List.findIdx?_cons]
    cases h : i.isReturn <;> simp [h]

/-- Trimming warns exactly if it puts a warning on the listing. -/
theorem accords_trim (m : Module) (p : Policy) (w : Window) (xs : List Instruction) :
    Accords p (.ok (Listing.of m p w xs)) (trimEvents xs p) := by
  unfold Listing.of trimEvents
  rcases ended_or_not p xs with ⟨kept, h⟩ | h
  · rw [trim_of_ended h]
    exact .ended _ rfl
  · rw [trim_of_not_ended h, findReturn_beq_zero]
    exact .unended _ xs.length rfl

theorem isWarning_of_mem_trimEvents (xs : List Instruction) (p : Policy) :
    ∀ e ∈ trimEvents xs p, e.isWarning := by
  unfold trimEvents
  intro e he
  split at he
  · rw [List.mem_singleton.1 he]
    rfl
  · cases he

theorem warnings_listing (f : Fetched) (decoder : Decoder) (c : Config) :
    (f.listing decoder c).warnings =
      if (decoder.answer (f.request c.addressBase)).instructions.isEmpty then []
      else trimEvents (decoder.answer (f.request c.addressBase)).instructions c.policy := by
  have hs : (emitAll (decoder.answer (f.request c.addressBase)).events :
      Logged Fault Unit).warnings = [] := by
    unfold Decoded.events
    cases (decoder.answer (f.request c.addressBase)).stoppedAt <;> rfl
  unfold Fetched.listing
  rw [warnings_bind_ok rfl, hs, List.nil_append, warnings_bind_ok rfl]
  split
  · rfl
  · rw [warnings_bind_ok rfl]
    have ht := List.filter_eq_self.2
      (isWarning_of_mem_trimEvents (decoder.answer (f.request c.addressBase)).instructions c.policy)
    exact (List.append_nil _).trans ht

theorem accords_listing (f : Fetched) (decoder : Decoder) (c : Config) :
    Accords c.policy (f.listing decoder c).outcome (f.listing decoder c).warnings := by
  rw [warnings_listing]
  by_cases h : (decoder.answer (f.request c.addressBase)).instructions = []
  · rw [f.listing_of_nil h, h]
    exact .failed _ _ (.quiet _ rfl)
  · rw [f.listing_of_ne_nil h, if_neg (mt List.isEmpty_iff.1 h)]
    exact accords_trim f.origin c.policy f.window _

theorem accords_slice (disk : Storage) (decoder : Decoder) (c : Config) (path : String) (q : Query) :
    let run := slice (objectLoader disk) decoder disk c path q
    Accords c.policy run.outcome run.warnings := by
  intro run
  have hf := candid_fetch (candid_objectLoader disk) disk c path q
  have hw : run.warnings = (do
      let f ← fetch (objectLoader disk) disk c path q
      f.listing decoder c).warnings := warnings_bind_ok rfl _
  cases hr : (fetch (objectLoader disk) disk c path q).outcome with
  | error e =>
    rw [slice_of_fetch_error hr, hw, warnings_bind_error hr]
    exact .failed _ _ (hf.error e hr)
  | ok f =>
    rw [slice_of_fetch_ok hr, hw, warnings_bind_ok hr, hf.ok f hr, List.nil_append]
    exact accords_listing f decoder c

/-- The warnings of a run on a file are the one that its outcome calls for, or none, and name it. A run
without an outcome warns of nothing on the way to its end. -/
theorem slice?_warnings (disk : Storage) (decoder : Decoder) (c : Config) (path : String) (q : Query) :
    (∀ run ∈ slice? (objectLoader disk) decoder disk c path q,
      Accords c.policy run.outcome run.warnings ∧
        run.warnings.map (·.message) = (warningText? run.outcome).toList) ∧
    (slice? (objectLoader disk) decoder disk c path q = none →
      (locate (objectLoader disk) c path q).warnings = []) := by
  constructor
  · intro run hrun
    obtain ⟨-, rfl⟩ := slice?_eq_some_iff.1 hrun
    have h := accords_slice disk decoder c path q
    exact ⟨h, h.message_eq⟩
  · intro hn
    obtain ⟨m, w, hw, -⟩ := overflows_iff_lands.1 (slice?_eq_none_iff.1 hn)
    exact (candid_locate (candid_objectLoader disk) c path q).ok _ (locate_ok_iff.2 hw)

/-- A file that ends inside its code section is warned of. -/
theorem slice?_warnings_boastful :
    let disk : Storage := fun _ => .ok (.file boastful)
    ∃ run ∈ slice? (objectLoader disk) (X86.decoder .tight) disk {} "m.elf" (.byAddress 0),
      run.outcome = .error (.truncated 0 512 273) ∧ run.warnings.map (·.message) = ["Short read"] := by
  intro disk
  let run := slice (objectLoader disk) (X86.decoder .tight) disk {} "m.elf" (.byAddress 0)
  have hs : slice? (objectLoader disk) (X86.decoder .tight) disk {} "m.elf" (.byAddress 0) = some run :=
    slice?_of_cap (by decide)
  have ho : run.outcome = .error (.truncated 0 512 273) := by decide +kernel
  have h := ((slice?_warnings disk (X86.decoder .tight) {} "m.elf" (.byAddress 0)).1 run hs).2
  rw [ho] at h
  exact ⟨run, hs, ho, h⟩

end FunctionSlice
