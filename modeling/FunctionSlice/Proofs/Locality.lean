import FunctionSlice.Proofs.Front
import FunctionSlice.Proofs.Sweep
import FunctionSlice.X86.Decoder

/-! An instruction is read from its own bytes. Whatever stands behind them, the same instruction is
found at the same length. -/

namespace FunctionSlice.X86

open Binary

/-- The entries `g` of a group all use the ModRM byte, and the opcode has no entry outside the group. -/
def Groups (g : Nat → Option Entry) (rest : Option Entry) : Prop :=
  ∀ m e, g m = some e → e.usesModrm ∧ rest = none

/-- An entry that has no use for the ModRM byte was not chosen by it. -/
theorem Groups.congr {g : Nat → Option Entry} {rest : Option Entry} (hg : Groups g rest) {m : Nat}
    {e : Entry} (h : (g m <|> rest) = some e) (he : ¬ e.usesModrm) (m' : Nat) :
    (g m' <|> rest) = some e := by
  cases hm : g m with
  | some e' =>
    rw [hm] at h
    cases h
    exact absurd (hg m e hm).1 he
  | none =>
    rw [hm] at h
    cases hm' : g m' with
    | some e' =>
      rw [(hg m' e' hm').2] at h
      cases h
    | none => exact h

theorem groupMap_usesModrm {wide : Bool} {n k : Nat} {e : Entry} (h : groupMap wide n k = some e) :
    e.usesModrm := by
  revert h
  fun_cases groupMap wide n k <;> intro h <;> cases h <;> rfl

theorem others_of_groupMap {wide : Bool} {n k : Nat} {e : Entry} (h : groupMap wide n k = some e)
    (addressSize : Nat) : plainMap wide addressSize n = none ∧ oldMap n = none := by
  unfold groupMap at h
  split at h
  case h_18 => cases h
  all_goals exact ⟨rfl, rfl⟩

theorem groupMap_groups (wide : Bool) (addressSize n : Nat) :
    Groups (fun m => groupMap wide n (m / 8 % 8))
      (plainMap wide addressSize n <|> if wide then none else oldMap n) := by
  intro m e h
  obtain ⟨hp, ho⟩ := others_of_groupMap h addressSize
  refine ⟨groupMap_usesModrm h, ?_⟩
  rw [hp, ho, ite_self]
  rfl

theorem extendedGroupMap_usesModrm {s : Selector} {n m : Nat} {e : Entry}
    (h : extendedGroupMap s n m = some e) : e.usesModrm := by
  revert h
  fun_cases extendedGroupMap s n m <;> intro h <;> cases h <;> rfl

theorem others_of_extendedGroupMap {s : Selector} {n m : Nat} {e : Entry}
    (h : extendedGroupMap s n m = some e) : extendedMap s n = none ∧ vectorMap s n = none := by
  unfold extendedGroupMap at h
  split at h
  case h_7 => cases h
  all_goals cases s <;> exact ⟨rfl, rfl⟩

theorem extendedGroupMap_groups (s : Selector) (n : Nat) :
    Groups (extendedGroupMap s n) (extendedMap s n <|> vectorMap s n) := by
  intro m e h
  obtain ⟨he, hv⟩ := others_of_extendedGroupMap h
  refine ⟨extendedGroupMap_usesModrm h, ?_⟩
  rw [he, hv]
  rfl

theorem oneByteMap_congr {wide : Bool} {a n m : Nat} {e : Entry} (h : oneByteMap wide a n m = some e)
    (he : ¬ e.usesModrm) (m' : Nat) : oneByteMap wide a n m' = some e := by
  unfold oneByteMap at h ⊢
  split
  · rwa [if_pos ‹_›] at h
  · rw [if_neg ‹_›] at h
    split
    · rwa [if_pos ‹_›] at h
    · rw [if_neg ‹_›] at h
      exact (groupMap_groups wide a n).congr h he m'

theorem twoByteMap_congr {s : Selector} {n m : Nat} {e : Entry} (h : twoByteMap s n m = some e)
    (he : ¬ e.usesModrm) (m' : Nat) : twoByteMap s n m' = some e :=
  (extendedGroupMap_groups s n).congr h he m'

/-- The byte behind the opcode has a say only where it belongs to the instruction. -/
theorem front_chosen? {entry : Nat → Option Entry} (opcode : Nat)
    (h : ∀ m e, entry m = some e → ¬ e.usesModrm → ∀ m', entry m' = some e) :
    Front (chosen? entry opcode) := by
  intro bs x r hx
  obtain ⟨e, he, hx⟩ := Option.bind_eq_some_iff.1 hx
  by_cases hm : e.usesModrm
  · rw [if_pos hm] at hx
    cases bs with
    | nil =>
      rw [take?_one_nil] at hx
      cases hx
    | cons b bs =>
      rw [take?_one_cons] at hx
      cases hx
      refine ⟨[b], rfl, fun t => ?_⟩
      have he' : entry (byteAt ([b] ++ t) 0) = some e := he
      change (entry (byteAt ([b] ++ t) 0)).bind _ = _
      rw [he', Option.bind_some, if_pos hm, List.singleton_append, take?_one_cons]
      rfl
  · rw [if_neg hm] at hx
    cases hx
    refine ⟨[], rfl, fun t => ?_⟩
    change (entry (byteAt t 0)).bind _ = _
    rw [h _ e he hm, Option.bind_some, if_neg hm]
    rfl

theorem front_opening? (w : Width) (p : Prefixes) : Front (opening? w p) := by
  refine Front.cons rfl (fun _ _ => rfl) fun b => ?_
  refine Front.ite ?_ (Front.ite ?_ ?_)
  · exact Front.cons rfl (fun _ _ => rfl) fun b => front_chosen? _ fun m e => twoByteMap_congr
  · exact front_chosen? _ fun m e h _ m' => h
  · exact front_chosen? _ fun m e => oneByteMap_congr

theorem front_named? (c : Context) (e : Entry) : Front (named? c e) :=
  Front.ite ((front_memory? c).map some) (Front.pure none)

theorem front_body? (w : Width) (p : Prefixes) : Front (body? w p) :=
  Front.bind (front_opening? w p) fun _ => Front.bind (front_named? _ _) fun _ =>
    Front.bind (front_operands? _ _ _) fun _ => Front.pure _

theorem prefixes_append {w : Width} {p q : Prefixes} {bs r : Bytes} {b : UInt8}
    (h : prefixes w p bs = (q, b :: r)) :
    ∃ v, bs = v ++ b :: r ∧ ∀ t, prefixes w p (v ++ b :: t) = (q, b :: t) := by
  fun_induction prefixes w p bs with
  | case1 p => cases h
  | case2 p c bs p' hp ih =>
    obtain ⟨v, rfl, hv⟩ := ih h
    refine ⟨c :: v, rfl, fun t => ?_⟩
    rw [List.cons_append, prefixes, hp]
    exact hv t
  | case3 p c bs hp =>
    cases h
    refine ⟨[], rfl, fun t => ?_⟩
    rw [List.nil_append, prefixes, hp]

theorem decode?_eq_some_iff {w : Width} {bs : Bytes} {i : Coded} :
    decode? w bs = some i ↔ ∃ p s e size os r, prefixes w {} bs = (p, s) ∧
      body? w p s = some ((e, size, os), r) ∧ bs.length - r.length ≤ maxSize ∧
      ¬ (p.lock ∧ !(e.lockable && os.head?.any isMemory)) ∧
      i = ⟨w, p, e, size, os, bs.length - r.length⟩ := by
  unfold decode?
  cases hp : prefixes w {} bs with
  | mk p s =>
    simp only [Option.bind_eq_bind, Option.bind_eq_some_iff, Option.ite_none_left_eq_some,
      Option.pure_def, Option.some.injEq, Nat.not_lt, Prod.mk.injEq]
    constructor
    · rintro ⟨⟨⟨e, size, os⟩, r⟩, hb, hl, hk, hi⟩
      exact ⟨p, s, e, size, os, r, ⟨rfl, rfl⟩, hb, hl, hk, hi.symm⟩
    · rintro ⟨q, s', e, size, os, r, ⟨rfl, rfl⟩, hb, hl, hk, hi⟩
      exact ⟨⟨⟨e, size, os⟩, r⟩, hb, hl, hk, hi.symm⟩

/-- An instruction takes a front of the bytes that is not empty, and is the same one before any others. -/
theorem decode?_front {w : Width} {bs : Bytes} {i : Coded} (h : decode? w bs = some i) :
    ∃ u r, bs = u ++ r ∧ u ≠ [] ∧ i.size = u.length ∧ ∀ t, decode? w (u ++ t) = some i := by
  obtain ⟨p, s, e, size, os, r, hp, hb, hl, hk, rfl⟩ := decode?_eq_some_iff.1 h
  obtain ⟨u, hs, hu⟩ := front_body? w p s _ r hb
  cases u with
  | nil => cases hu []
  | cons b u =>
    rw [hs, List.cons_append] at hp
    obtain ⟨v, hbs, hv⟩ := prefixes_append hp
    have hsize (t : Bytes) : (v ++ b :: (u ++ t)).length - t.length = (v ++ b :: u).length := by
      simp only [List.length_append, List.length_cons]
      omega
    have hlen : bs.length - r.length = (v ++ b :: u).length := by rw [hbs, hsize r]
    refine ⟨v ++ b :: u, r, ?_, List.append_ne_nil_of_right_ne_nil _ (List.cons_ne_nil b u), hlen,
      fun t => ?_⟩
    · rw [hbs, List.append_assoc, List.cons_append]
    rw [List.append_assoc, List.cons_append, decode?_eq_some_iff]
    refine ⟨p, b :: (u ++ t), e, size, os, t, hv _, hu t, ?_, hk, ?_⟩
    · rwa [hsize, ← hlen]
    · rw [hsize, hlen]

theorem reader_eq_some_iff {d : Dialect} {w : Width} {a : Word} {bs : Bytes} {r : Reading} :
    reader d w a bs = some r ↔ ∃ i, decode? w bs = some i ∧ (i.finding d a).reading d = r := by
  simp only [reader, Library.reader, library, Option.map_map, Option.map_eq_some_iff, Function.comp]

theorem reader_bounded (d : Dialect) : (reader d).Bounded := by
  intro w a bs r h
  obtain ⟨i, hi, rfl⟩ := reader_eq_some_iff.1 h
  obtain ⟨u, t, rfl, hne, hsize, -⟩ := decode?_front hi
  change 1 ≤ i.size ∧ i.size ≤ (u ++ t).length
  rw [hsize, List.length_append]
  exact ⟨List.length_pos_iff.2 hne, Nat.le_add_right _ _⟩

theorem reader_local (d : Dialect) : (reader d).Local := by
  intro w a bs r h _ t
  obtain ⟨i, hi, rfl⟩ := reader_eq_some_iff.1 h
  obtain ⟨u, t', rfl, -, hsize, hu⟩ := decode?_front hi
  change reader d w a ((u ++ t').take i.size ++ t) = _
  rw [hsize, List.take_left]
  exact reader_eq_some_iff.2 ⟨i, hu t, rfl⟩

/-- Both decoders give on a front of some bytes a front of what they give on all of them. -/
theorem decoder_extends (d : Dialect) : (decoder d).Extends := Reader.decoder_extends (reader_local d) _ _

end FunctionSlice.X86
