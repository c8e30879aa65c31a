import FunctionSlice.Container
import FunctionSlice.Extent
import FunctionSlice.Module
import FunctionSlice.Query
import FunctionSlice.Window

/-! What a run reports while it goes on, and computations that carry such a log. An error ends the log
where it arises: nothing is logged after it, and nothing logged before it is lost. -/

namespace FunctionSlice

inductive Level where
  | trace
  | debug
  | info
  | warn
  deriving DecidableEq

inductive Event where
  /-- The run on one query begins. -/
  | slicing (path : String) (query : Query)
  | loading (path : String) (size : Nat)
  | collected (symbols : Nat) (base : Word)
  | foreignCode (machine : String)
  | parsed (container : Container) (width : Width) (imageBase : Word) (sections : Nat)
  | resolved (query symbol : String) (rva : Word)
  | notUnique (query : String) (hits : Nat)
  | outside (rva : Word) (place : Section)
  | mapped (name : String) (window : Window)
  | opened (path : String) (size : Nat)
  | shortRead (path : String) (offset : Word) (requested read : Nat)
  | read (path : String) (offset : Word) (length : Nat)
  | stopped (offset : Nat)
  | decoded (decoder : String) (count : Nat) (window : Window) (atEnd : Bool)
  | noReturn (warning : Warning) (returnAtEntry : Bool) (policy : Policy)
  deriving DecidableEq

namespace Event

def level : Event → Level
  | slicing .. => .info
  | foreignCode .. | outside .. | shortRead .. | noReturn .. => .warn
  | read .. | stopped .. => .trace
  | _ => .debug

/-- The beginning of a run is a span and has no text of its own. -/
def message : Event → String
  | slicing .. => ""
  | loading .. => "Loading module"
  | collected .. => "Collected module symbols"
  | foreignCode .. => "Module is not x86 code"
  | parsed .. => "Parsed module"
  | resolved .. => "Resolved symbol"
  | notUnique .. => "Symbol lookup not unique"
  | outside .. => "RVA outside code section"
  | mapped .. => "Mapped RVA"
  | opened .. => "Opened module for bounded reading"
  | shortRead .. => "Short read"
  | read .. => "Performed read"
  | stopped .. => "iced: invalid instruction, stopping"
  | decoded .. => "Decoded window"
  | noReturn w .. => w.message

end Event

/-- What is reported when instructions are trimmed. -/
def trimEvents (xs : List Instruction) (p : Policy) : List Event :=
  match (trim xs p).2 with
  | some w => [.noReturn w (findReturn xs == some 0) p]
  | none => []

instance decidableEqExcept {ε α : Type} [DecidableEq ε] [DecidableEq α] : DecidableEq (Except ε α)
  | .ok a, .ok b => decidable_of_iff (a = b) (Except.ok.injEq a b ▸ Iff.rfl)
  | .error d, .error e => decidable_of_iff (d = e) (Except.error.injEq d e ▸ Iff.rfl)
  | .ok _, .error _ | .error _, .ok _ => isFalse nofun

structure Logged (ε α : Type) where
  events : List Event
  outcome : Except ε α

namespace Logged

variable {ε ε' α β : Type}

def bind (x : Logged ε α) (f : α → Logged ε β) : Logged ε β :=
  match x.outcome with
  | .error e => ⟨x.events, .error e⟩
  | .ok a => ⟨x.events ++ (f a).events, (f a).outcome⟩

instance : Monad (Logged ε) where
  pure a := ⟨[], .ok a⟩
  bind := bind

def emit (e : Event) : Logged ε Unit := ⟨[e], .ok ()⟩

def emitAll (es : List Event) : Logged ε Unit := ⟨es, .ok ()⟩

def fail (e : ε) : Logged ε α := ⟨[], .error e⟩

def mapError (f : ε → ε') (x : Logged ε α) : Logged ε' α := ⟨x.events, x.outcome.mapError f⟩

@[simp] theorem outcome_pure (a : α) : (pure a : Logged ε α).outcome = .ok a := rfl

@[simp] theorem outcome_emit (e : Event) : (emit e : Logged ε Unit).outcome = .ok () := rfl

@[simp] theorem outcome_emitAll (es : List Event) :
    (emitAll es : Logged ε Unit).outcome = .ok () := rfl

@[simp] theorem outcome_fail (e : ε) : (fail e : Logged ε α).outcome = .error e := rfl

theorem outcome_mapError_ok {f : ε → ε'} {x : Logged ε α} {a : α} (h : x.outcome = .ok a) :
    (x.mapError f).outcome = .ok a := by
  rw [mapError, h]
  rfl

theorem outcome_mapError_error {f : ε → ε'} {x : Logged ε α} {e : ε} (h : x.outcome = .error e) :
    (x.mapError f).outcome = .error (f e) := by
  rw [mapError, h]
  rfl

theorem outcome_mapError_eq_ok {f : ε → ε'} {x : Logged ε α} {a : α} :
    (x.mapError f).outcome = .ok a ↔ x.outcome = .ok a := by
  cases h : x.outcome with
  | error e => simp [outcome_mapError_error h]
  | ok b => simp [outcome_mapError_ok h]

theorem outcome_mapError_eq_error {f : ε → ε'} {x : Logged ε α} {e : ε'} :
    (x.mapError f).outcome = .error e ↔ ∃ d, x.outcome = .error d ∧ f d = e := by
  cases h : x.outcome with
  | error d => simp [outcome_mapError_error h]
  | ok b => simp [outcome_mapError_ok h]

theorem outcome_bind (x : Logged ε α) (f : α → Logged ε β) :
    (x >>= f).outcome = x.outcome.bind fun a => (f a).outcome := by
  change (bind x f).outcome = _
  unfold bind
  cases x.outcome <;> rfl

theorem outcome_bind_ok {x : Logged ε α} {a : α} (h : x.outcome = .ok a) (f : α → Logged ε β) :
    (x >>= f).outcome = (f a).outcome := by
  rw [outcome_bind, h]
  rfl

theorem outcome_bind_error {x : Logged ε α} {e : ε} (h : x.outcome = .error e)
    (f : α → Logged ε β) : (x >>= f).outcome = .error e := by
  rw [outcome_bind, h]
  rfl

@[simp] theorem outcome_emit_bind (e : Event) (f : Unit → Logged ε α) :
    (emit e >>= f).outcome = (f ()).outcome := outcome_bind_ok rfl f

@[simp] theorem outcome_emitAll_bind (es : List Event) (f : Unit → Logged ε α) :
    (emitAll es >>= f).outcome = (f ()).outcome := outcome_bind_ok rfl f

theorem outcome_bind_eq_ok {x : Logged ε α} {f : α → Logged ε β} {b : β} :
    (x >>= f).outcome = .ok b ↔ ∃ a, x.outcome = .ok a ∧ (f a).outcome = .ok b := by
  cases h : x.outcome with
  | error e => simp [outcome_bind_error h]
  | ok a => simp [outcome_bind_ok h]

theorem outcome_bind_eq_error {x : Logged ε α} {f : α → Logged ε β} {e : ε} :
    (x >>= f).outcome = .error e ↔
      x.outcome = .error e ∨ ∃ a, x.outcome = .ok a ∧ (f a).outcome = .error e := by
  cases h : x.outcome with
  | error e => simp [outcome_bind_error h]
  | ok a => simp [outcome_bind_ok h]

theorem events_bind_ok {x : Logged ε α} {a : α} (h : x.outcome = .ok a) (f : α → Logged ε β) :
    (x >>= f).events = x.events ++ (f a).events := by
  change (bind x f).events = _
  rw [bind, h]

theorem events_bind_error {x : Logged ε α} {e : ε} (h : x.outcome = .error e)
    (f : α → Logged ε β) : (x >>= f).events = x.events := by
  change (bind x f).events = _
  rw [bind, h]

theorem mapError_bind (g : ε → ε') (x : Logged ε α) (f : α → Logged ε β) :
    (x >>= f).mapError g = x.mapError g >>= fun a => (f a).mapError g := by
  change (bind x f).mapError g = bind (x.mapError g) fun a => (f a).mapError g
  unfold bind mapError
  cases x.outcome <;> rfl

theorem pure_bind (a : α) (f : α → Logged ε β) : pure a >>= f = f a := rfl

theorem bind_assoc {γ : Type} (x : Logged ε α) (f : α → Logged ε β) (g : β → Logged ε γ) :
    x >>= f >>= g = x >>= fun a => f a >>= g := by
  change bind (bind x f) g = bind x fun a => bind (f a) g
  unfold bind
  cases x.outcome with
  | error e => rfl
  | ok a =>
    cases hf : (f a).outcome with
    | error e => simp [hf]
    | ok b => simp [hf, List.append_assoc]

/-- What comes after counts only for the value that is handed to it. -/
theorem bind_congr_ok {x : Logged ε α} {f g : α → Logged ε β}
    (h : ∀ a, x.outcome = .ok a → f a = g a) : x >>= f = x >>= g := by
  change bind x f = bind x g
  unfold bind
  cases hx : x.outcome with
  | error e => rfl
  | ok a => simp only [h a hx]

end Logged

end FunctionSlice
