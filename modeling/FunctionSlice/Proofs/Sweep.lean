import FunctionSlice.Sweep

/-! A sweep lays its instructions one after another from the first byte on, and if a reading does not
depend on what follows its instruction, more bytes only add instructions. -/

namespace FunctionSlice

/-- Instructions with bytes, each at the address where the one before it ends. -/
inductive Laid : Word → List Instruction → Prop
  | nil (a : Word) : Laid a []
  | cons (a : Word) (i : Instruction) (xs : List Instruction) : i.address = a →
      i.size = i.bytes.length → 1 ≤ i.size → Laid (a + UInt64.ofNat i.size) xs → Laid a (i :: xs)

namespace Laid

variable {a : Word} {xs ys : List Instruction}

theorem of_front (h : Laid a xs) (hp : ys <+: xs) : Laid a ys := by
  induction h generalizing ys with
  | nil a =>
    rw [List.prefix_nil.1 hp]
    exact .nil a
  | cons a i xs ha hs h1 _ ih =>
    cases ys with
    | nil => exact .nil a
    | cons j ys =>
      obtain ⟨rfl, ht⟩ := List.cons_prefix_cons.1 hp
      exact .cons a j ys ha hs h1 (ih ht)

theorem sized (h : Laid a xs) : ∀ i ∈ xs, i.size = i.bytes.length ∧ 1 ≤ i.size := by
  induction h with
  | nil a => simp
  | cons a i xs _ hs h1 _ ih =>
    intro j hj
    rcases List.mem_cons.1 hj with rfl | hj
    · exact ⟨hs, h1⟩
    · exact ih j hj

theorem length_bytes (h : Laid a xs) : (xs.flatMap (·.bytes)).length = totalSize xs := by
  induction h with
  | nil a => rfl
  | cons a i xs _ hs _ _ ih => rw [List.flatMap_cons, List.length_append, ih, totalSize_cons, hs]

theorem length_le (h : Laid a xs) : xs.length ≤ totalSize xs := by
  induction h with
  | nil a => exact Nat.le_refl 0
  | cons a i xs _ _ h1 _ ih =>
    rw [List.length_cons, totalSize_cons]
    omega

/-- Each address is the first one plus the sizes of the instructions before, in 64 bits. -/
theorem address_eq (h : Laid a xs) (k : Nat) (i : Instruction) (hk : xs[k]? = some i) :
    i.address.toNat = (a.toNat + totalSize (xs.take k)) % 0x1_0000_0000_0000_0000 := by
  induction h generalizing k with
  | nil a => simp at hk
  | cons a j xs ha _ _ _ ih =>
    cases k with
    | zero =>
      simp only [List.getElem?_cons_zero, Option.some.injEq] at hk
      subst hk
      have := a.toNat_lt
      rw [ha, List.take_zero, totalSize_nil, Nat.add_zero, Nat.mod_eq_of_lt this]
    | succ k =>
      rw [ih k hk, List.take_succ_cons, totalSize_cons, UInt64.toNat_add, UInt64.toNat_ofNat']
      omega

end Laid

theorem flatMap_bytes_mono {xs ys : List Instruction} (h : xs <+: ys) :
    xs.flatMap (·.bytes) <+: ys.flatMap (·.bytes) := by
  obtain ⟨zs, rfl⟩ := h
  exact ⟨zs.flatMap (·.bytes), (List.flatMap_append).symm⟩

namespace Reader

variable {read : Reader} {w : Width} {a : Word} {bs : Bytes}

theorem sweep_of_none (h : read w a bs = none) : read.sweep w a bs = ([], bs.length) := by
  rw [sweep, h]

theorem sweep_of_size {r : Reading} (h : read w a bs = some r)
    (hs : ¬ (0 < r.size ∧ r.size ≤ bs.length)) : read.sweep w a bs = ([], bs.length) := by
  rw [sweep, h]
  simp only [hs, ↓reduceDIte]

theorem sweep_of_some {r : Reading} (h : read w a bs = some r) (h0 : 0 < r.size)
    (hl : r.size ≤ bs.length) :
    read.sweep w a bs =
      (r.instruction a bs :: (read.sweep w (a + UInt64.ofNat r.size) (bs.drop r.size)).1,
        (read.sweep w (a + UInt64.ofNat r.size) (bs.drop r.size)).2) := by
  rw [sweep, h]
  simp only [h0, hl, and_self, ↓reduceDIte]

theorem size_instruction {r : Reading} (h : r.size ≤ bs.length) :
    (r.instruction a bs).size = r.size := by
  simp [Reading.instruction, Instruction.of, Nat.min_eq_left h]

theorem laid_sweep (read : Reader) (w : Width) (a : Word) (bs : Bytes) :
    Laid a (read.sweep w a bs).1 := by
  fun_induction sweep read w a bs with
  | case1 a bs h => exact .nil a
  | case2 a bs r h hr rest left hs ih =>
    rw [hs] at ih
    have hsize := size_instruction (a := a) hr.2
    refine .cons a _ _ rfl rfl ?_ ?_
    · rw [hsize]
      exact hr.1
    · rw [hsize]
      exact ih
  | case3 a bs r h hr => exact .nil a

/-- The instructions spell out the front of the bytes. -/
theorem sweep_bytes_prefix (read : Reader) (w : Width) (a : Word) (bs : Bytes) :
    (read.sweep w a bs).1.flatMap (·.bytes) <+: bs := by
  fun_induction sweep read w a bs with
  | case1 a bs h => exact List.nil_prefix
  | case2 a bs r h hr rest left hs ih =>
    rw [hs] at ih
    obtain ⟨t, ht⟩ := ih
    refine ⟨t, ?_⟩
    rw [List.flatMap_cons, List.append_assoc, ht]
    exact List.take_append_drop r.size bs
  | case3 a bs r h hr => exact List.nil_prefix

/-- What holds of every reading within its bytes holds of every instruction of a sweep. -/
theorem forall_mem_sweep {P : Instruction → Prop} (read : Reader)
    (h : ∀ a bs r, read w a bs = some r → r.size ≤ bs.length → P (r.instruction a bs)) :
    ∀ i ∈ (read.sweep w a bs).1, P i := by
  fun_induction sweep read w a bs with
  | case1 a bs hn => exact fun i hi => nomatch hi
  | case2 a bs r hr hs rest left hsw ih =>
    rw [hsw] at ih
    intro i hi
    rcases List.mem_cons.1 hi with rfl | hi
    · exact h a bs r hr hs.2
    · exact ih i hi
  | case3 a bs r hr hs => exact fun i hi => nomatch hi

/-- An instruction has bytes, and they are among those that it is read from. -/
def Bounded (read : Reader) : Prop :=
  ∀ w a bs r, read w a bs = some r → 1 ≤ r.size ∧ r.size ≤ bs.length

/-- What is read depends on the bytes of its own instruction and on nothing behind them. -/
def Local (read : Reader) : Prop :=
  ∀ w a bs r, read w a bs = some r → r.size ≤ bs.length →
    ∀ t, read w a (bs.take r.size ++ t) = some r

theorem Local.append (h : read.Local) {r : Reading} (hr : read w a bs = some r)
    (hl : r.size ≤ bs.length) (t : Bytes) : read w a (bs ++ t) = some r := by
  have := h w a bs r hr hl (bs.drop r.size ++ t)
  rwa [← List.append_assoc, List.take_append_drop] at this

theorem sweep_append (h : read.Local) (t : Bytes) :
    (read.sweep w a bs).1 <+: (read.sweep w a (bs ++ t)).1 := by
  fun_induction sweep read w a bs with
  | case1 a bs hn => exact List.nil_prefix
  | case2 a bs r hr hs rest left hsw ih =>
    have hl : r.size ≤ (bs ++ t).length := by
      rw [List.length_append]
      omega
    rw [sweep_of_some (h.append hr hs.2 t) hs.1 hl, List.drop_append_of_le_length hs.2]
    rw [hsw] at ih
    have hi : r.instruction a (bs ++ t) = r.instruction a bs := by
      rw [Reading.instruction, List.take_append_of_le_length hs.2]
      rfl
    rw [hi]
    exact List.cons_prefix_cons.2 ⟨rfl, ih⟩
  | case3 a bs r hr hs => exact List.nil_prefix

end Reader

/-- Asked about more bytes from the same place on, the decoder gives the same instructions and maybe
more. -/
def Decoder.Extends (decoder : Decoder) : Prop :=
  ∀ w a bs t, (decoder.decode w a bs).instructions <+: (decoder.decode w a (bs ++ t)).instructions

theorem Reader.decoder_extends {read : Reader} (h : read.Local) (name : String) (tells : Bool) :
    (read.decoder name tells).Extends :=
  fun _ _ _ t => Reader.sweep_append h t

end FunctionSlice
