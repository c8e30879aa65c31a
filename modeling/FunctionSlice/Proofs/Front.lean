import FunctionSlice.X86.Decode

/-! What follows an opcode is read off the front: a number, a memory operand, a list of operands. None of
the readers looks behind what it takes. -/

namespace FunctionSlice.X86

open Binary

/-- `f` takes a front off its bytes and does not look behind it. -/
def Front {α : Type} (f : Bytes → Option (α × Bytes)) : Prop :=
  ∀ bs a r, f bs = some (a, r) → ∃ u, bs = u ++ r ∧ ∀ t, f (u ++ t) = some (a, t)

namespace Front

variable {α β : Type}

theorem pure (a : α) : Front fun bs => some (a, bs) := by
  intro bs b r h
  cases h
  exact ⟨[], rfl, fun t => rfl⟩

theorem fail : Front fun _ => (none : Option (α × Bytes)) := by
  intro bs a r h
  cases h

theorem ite {p : Prop} [Decidable p] {f g : Bytes → Option (α × Bytes)} (hf : Front f)
    (hg : Front g) : Front fun bs => if p then f bs else g bs := by
  by_cases hp : p
  · simpa only [hp, ↓reduceIte] using hf
  · simpa only [hp, ↓reduceIte] using hg

theorem bind {f : Bytes → Option (α × Bytes)} {g : α × Bytes → Option (β × Bytes)} (hf : Front f)
    (hg : ∀ a, Front fun r => g (a, r)) : Front fun bs => f bs >>= g := by
  intro bs b r h
  obtain ⟨⟨a, s⟩, hs, hr⟩ := Option.bind_eq_some_iff.1 h
  obtain ⟨u, hbs, hu⟩ := hf bs a s hs
  obtain ⟨v, hv, hb⟩ := hg a s b r hr
  refine ⟨u ++ v, by rw [hbs, hv, List.append_assoc], fun t => ?_⟩
  change (f (u ++ v ++ t)).bind g = _
  rw [List.append_assoc, hu, Option.bind_some]
  exact hb t

theorem map {f : Bytes → Option (α × Bytes)} (hf : Front f) (g : α → β) :
    Front fun bs => (f bs).map fun (a, r) => (g a, r) := by
  intro bs b r h
  obtain ⟨⟨a, s⟩, hs, hr⟩ := Option.map_eq_some_iff.1 h
  cases hr
  obtain ⟨u, hbs, hu⟩ := hf bs a r hs
  refine ⟨u, hbs, fun t => ?_⟩
  simp only [hu, Option.map_some]

theorem cons {f : Bytes → Option (α × Bytes)} {g : UInt8 → Bytes → Option (α × Bytes)}
    (hnil : f [] = none) (hcons : ∀ b r, f (b :: r) = g b r) (hg : ∀ b, Front (g b)) : Front f := by
  intro bs a r h
  cases bs with
  | nil =>
    rw [hnil] at h
    cases h
  | cons b bs =>
    rw [hcons] at h
    obtain ⟨u, rfl, hu⟩ := hg b bs a r h
    refine ⟨b :: u, rfl, fun t => ?_⟩
    rw [List.cons_append, hcons, hu]

end Front

theorem front_take? (size : Nat) : Front (take? size) := by
  intro bs a r h
  unfold take? range? at h
  simp only [Nat.zero_add, List.drop_zero, Option.map_eq_some_iff, Option.ite_none_right_eq_some,
    Option.some.injEq, Prod.mk.injEq] at h
  obtain ⟨n, ⟨hl, rfl⟩, rfl, rfl⟩ := h
  refine ⟨bs.take size, (List.take_append_drop size bs).symm, fun t => ?_⟩
  have hs : (bs.take size).length = size := List.length_take_of_le hl
  have ht : size ≤ (bs.take size ++ t).length := by
    rw [List.length_append, hs]
    omega
  unfold take? range?
  rw [Nat.zero_add, if_pos ht, List.drop_zero, Option.map_some, List.take_left' hs,
    List.drop_left' hs]

theorem take?_one_nil : take? 1 [] = none := rfl

theorem take?_one_cons (b : UInt8) (r : Bytes) : take? 1 (b :: r) = some (b.toNat, r) := by
  simp [take?, range?, number]

theorem front_displacement? (size : Nat) : Front (displacement? size) :=
  Front.ite (Front.pure 0) ((front_take? size).map (signed size))

theorem front_oldMemory? (c : Context) : Front (oldMemory? c) :=
  Front.bind (front_displacement? _) fun _ => Front.pure _

theorem front_memory? (c : Context) : Front (memory? c) :=
  Front.ite (front_oldMemory? c) <| Front.ite
    (Front.bind (front_take? 1) fun _ => Front.bind (front_displacement? _) fun _ => Front.pure _)
    (Front.bind (front_displacement? _) fun _ => Front.pure _)

theorem front_operand? (c : Context) (m : Option Memory) (p : Place) :
    Front fun bs => operand? c m bs p := by
  cases p with
  | rm | xmmRm | mmxRm => cases m <;> exact Front.pure _
  | rmRegister =>
    cases m with
    | none => exact Front.pure _
    | some => exact Front.fail
  | mem =>
    cases m with
    | none => exact Front.fail
    | some => exact Front.pure _
  | segReg => exact Front.ite (Front.pure _) Front.fail
  | immz | immv | imm8 | imm16 | imm8s | near | short | offset =>
    exact Front.bind (front_take? _) fun _ => Front.pure _
  | far => exact Front.bind (front_take? _) fun _ => Front.bind (front_take? _) fun _ => Front.pure _
  | _ => exact Front.pure _

theorem front_operands? (c : Context) (m : Option Memory) (ps : List Place) :
    Front (operands? c m ps) := by
  induction ps with
  | nil => exact Front.pure []
  | cons p ps ih =>
    exact Front.bind (front_operand? c m p) fun _ => Front.bind ih fun _ => Front.pure _

end FunctionSlice.X86
