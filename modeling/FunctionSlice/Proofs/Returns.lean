import FunctionSlice.Extent
import FunctionSlice.Proofs.Locality
import FunctionSlice.Proofs.OpcodeNames

/-! Which instructions of a sweep are returns is a matter of the first byte behind the prefixes, with any
library on which the reader's dialect can rely. So two sweeps that cut their bytes in the same places find
the same first return. -/

namespace FunctionSlice

namespace X86

theorem addPrefix?_isSome (w : Width) (p : Prefixes) (n : Nat) :
    (addPrefix? w p n).isSome = isPrefix w n := by
  fun_cases addPrefix? w p n
  case case12 h =>
    have hr : (w = .bits64 && 0x40 ≤ n && n < 0x50) = true := by simpa [and_assoc] using h
    rw [isPrefix, hr, Bool.or_true]
    rfl
  case case13 hl =>
    have hr : (w = .bits64 && 0x40 ≤ n && n < 0x50) = false := by simpa [and_assoc] using hl
    rw [isPrefix, hr, Bool.or_false]
    simp [*]
  all_goals
    subst n
    rfl

/-- What is left behind the prefixes starts at the opcode. -/
theorem prefixes_snd (w : Width) (p : Prefixes) (bs : Bytes) :
    (prefixes w p bs).2 = bs.dropWhile fun b => isPrefix w b.toNat := by
  fun_induction prefixes w p bs with
  | case1 p => rfl
  | case2 p b r p' hp ih =>
    have hb : isPrefix w b.toNat := by rw [← addPrefix?_isSome w p, hp, Option.isSome_some]
    rw [List.dropWhile_cons, if_pos hb, ih]
  | case3 p b r hp =>
    have hb : ¬ isPrefix w b.toNat := by rw [← addPrefix?_isSome w p, hp]; simp
    rw [List.dropWhile_cons, if_neg hb]

theorem suits_of_decode? {w : Width} {bs : Bytes} {i : Coded} (h : decode? w bs = some i) :
    ∃ n, opcode? w bs = some n ∧ i.entry.suits n := by
  obtain ⟨p, s, e, size, os, r, hp, hb, -, -, rfl⟩ := decode?_eq_some_iff.1 h
  have hs : s = bs.dropWhile fun b => isPrefix w b.toNat := by rw [← prefixes_snd w {}, hp]
  cases s with
  | nil => cases hb
  | cons b s =>
    obtain ⟨⟨⟨e', c⟩, r₁⟩, ho, hb⟩ := Option.bind_eq_some_iff.1 hb
    obtain ⟨⟨m, r₂⟩, -, hb⟩ := Option.bind_eq_some_iff.1 hb
    obtain ⟨⟨os', r₃⟩, -, hb⟩ := Option.bind_eq_some_iff.1 hb
    cases hb
    refine ⟨b.toNat, ?_, suits_of_opening? ho⟩
    rw [opcode?, ← hs]
    rfl

/-- Its own bytes are enough to see what an instruction is. -/
theorem suits_own {w : Width} {bs : Bytes} {i : Coded} (h : decode? w bs = some i) :
    ∃ n, opcode? w (bs.take i.size) = some n ∧ i.entry.suits n := by
  obtain ⟨u, r, rfl, -, hsize, hu⟩ := decode?_front h
  rw [hsize, List.take_left]
  have hown := hu []
  rw [List.append_nil] at hown
  exact suits_of_decode? hown

theorem library_isTight : (library .tight).IsTight := by
  intro w a bs f h
  obtain ⟨i, hi, rfl⟩ := Option.map_eq_some_iff.1 h
  obtain ⟨n, ho, hn⟩ := suits_own hi
  exact Coded.tight_finding ho hn a

theorem library_isSpaced : (library .spaced).IsSpaced := by
  intro w a bs f h
  obtain ⟨i, hi, rfl⟩ := Option.map_eq_some_iff.1 h
  obtain ⟨n, ho, hn⟩ := suits_own hi
  exact Coded.spaced_finding ho hn a

end X86

/-- Where a library's words tell returns by their opcodes, so do the instructions of a sweep. -/
theorem Library.isReturn_eq_opensReturn {find : Library} {d : Dialect}
    (h : ∀ w a bs f, find w a bs = some f →
      Instruction.endsInReturn (f.mnemonic d) = X86.opensReturn w (bs.take f.size))
    (w : Width) (a : Word) (bs : Bytes) :
    ∀ i ∈ ((find.decoder d).decode w a bs).instructions, i.isReturn = X86.opensReturn w i.bytes := by
  apply Reader.forall_mem_sweep
  intro a bs r hr _
  obtain ⟨f, hf, rfl⟩ := Option.map_eq_some_iff.1 hr
  rw [Instruction.isReturn_eq]
  exact h w a bs f hf

/-- Instructions with the same sizes, cut from the same bytes, have the same bytes. -/
theorem Laid.map_bytes_eq {a b : Word} {xs ys : List Instruction} {bs : Bytes} (hx : Laid a xs)
    (hy : Laid b ys) (hxs : xs.flatMap (·.bytes) <+: bs) (hys : ys.flatMap (·.bytes) <+: bs)
    (hsize : xs.map (·.size) = ys.map (·.size)) : xs.map (·.bytes) = ys.map (·.bytes) := by
  induction hx generalizing b ys bs with
  | nil a =>
    rw [List.map_nil, eq_comm, List.map_eq_nil_iff] at hsize
    rw [hsize]
  | cons a i xs _ hi _ _ ih =>
    cases hy with
    | nil => cases hsize
    | cons _ j ys _ hj _ hy =>
      rw [List.map_cons, List.map_cons, List.cons_eq_cons] at hsize
      obtain ⟨t, rfl⟩ := hxs
      rw [List.flatMap_cons, List.flatMap_cons, List.append_assoc] at hys
      have hlen : j.bytes.length = i.bytes.length := by rw [← hi, ← hj, hsize.1]
      obtain ⟨u, hu⟩ := hys
      rw [List.append_assoc] at hu
      obtain ⟨hfirst, hrest⟩ := List.append_inj hu hlen
      rw [List.map_cons, List.map_cons, hfirst, ih hy ⟨t, rfl⟩ ⟨u, hrest⟩ hsize.2]

/-- Whether instructions are returns is all that finding the first one looks at. -/
theorem findReturn_congr {xs ys : List Instruction}
    (h : xs.map (·.isReturn) = ys.map (·.isReturn)) : findReturn xs = findReturn ys := by
  have hmap (zs : List Instruction) : findReturn zs = (zs.map (·.isReturn)).findIdx? id := by
    rw [findReturn, List.findIdx?_map]
    rfl
  rw [hmap, hmap, h]

theorem length_trim_congr {xs ys : List Instruction} (h : findReturn xs = findReturn ys)
    (hl : xs.length = ys.length) (p : Policy) : (trim xs p).1.length = (trim ys p).1.length := by
  rw [trim, trim, h, hl, List.length_take, List.length_take, hl]

/-- Returns by their opcodes are found alike among instructions cut from the same bytes in the same places. -/
theorem Laid.findReturn_eq {w : Width} {a b : Word} {xs ys : List Instruction} {bs : Bytes}
    (hx : Laid a xs) (hy : Laid b ys) (hxs : xs.flatMap (·.bytes) <+: bs)
    (hys : ys.flatMap (·.bytes) <+: bs) (hsize : xs.map (·.size) = ys.map (·.size))
    (hrx : ∀ i ∈ xs, i.isReturn = X86.opensReturn w i.bytes)
    (hry : ∀ i ∈ ys, i.isReturn = X86.opensReturn w i.bytes) : findReturn xs = findReturn ys := by
  apply findReturn_congr
  calc
    xs.map (·.isReturn) = (xs.map (·.bytes)).map (X86.opensReturn w) := by
      rw [List.map_map]
      exact List.map_congr_left hrx
    _ = (ys.map (·.bytes)).map (X86.opensReturn w) := by
      rw [hx.map_bytes_eq hy hxs hys hsize]
    _ = ys.map (·.isReturn) := by
      rw [List.map_map]
      exact (List.map_congr_left hry).symm

/-- Whatever two libraries are at work: an instruction of either is a return if and only if its opcode is one
of the five, with any prefixes. Where the libraries cut the bytes in the same places, they find the same
first return and trimming keeps as many instructions. -/
theorem returns_by_opcode {tight spaced : Library} (ht : tight.IsTight) (hs : spaced.IsSpaced) (w : Width)
    (base : Word) (bs : Bytes) :
    let xs := ((tight.decoder .tight).decode w base bs).instructions
    let ys := ((spaced.decoder .spaced).decode w base bs).instructions
    (∀ i ∈ xs ++ ys, i.isReturn ↔ ∃ n ∈ X86.returnOpcodes, X86.opcode? w i.bytes = some n) ∧
      (xs.map (·.size) = ys.map (·.size) →
        findReturn xs = findReturn ys ∧ ∀ p, (trim xs p).1.length = (trim ys p).1.length) := by
  intro xs ys
  have hx : ∀ i ∈ xs, i.isReturn = X86.opensReturn w i.bytes :=
    Library.isReturn_eq_opensReturn (fun w a bs f hf => (ht w a bs f hf).endsInReturn_tight) w base bs
  have hy : ∀ i ∈ ys, i.isReturn = X86.opensReturn w i.bytes :=
    Library.isReturn_eq_opensReturn (fun w a bs f hf => (hs w a bs f hf).endsInReturn_spaced) w base bs
  constructor
  · intro i hi
    rw [← X86.opensReturn_iff]
    rcases List.mem_append.1 hi with hi | hi
    · rw [hx i hi]
    · rw [hy i hi]
  · intro hsize
    have hfirst : findReturn xs = findReturn ys :=
      Laid.findReturn_eq (Reader.laid_sweep _ w base bs) (Reader.laid_sweep _ w base bs)
        (Reader.sweep_bytes_prefix _ w base bs) (Reader.sweep_bytes_prefix _ w base bs) hsize hx hy
    have hlen : xs.length = ys.length := by simpa using congrArg List.length hsize
    exact ⟨hfirst, length_trim_congr hfirst hlen⟩

/-- The far return has a word before its name in neither dialect, the plain one in both. -/
theorem returns_by_opcode_prefixed :
    let bs : Bytes := [0x66, 0x90, 0xf2, 0x66, 0xc3, 0x2e, 0x48, 0xcb, 0x48, 0xcf]
    let run := fun d => (((X86.library d).decoder d).decode .bits64 0x1000 bs).instructions
    (X86.library .tight).IsTight ∧ (X86.library .spaced).IsSpaced ∧
      (run .tight).map (·.size) = (run .spaced).map (·.size) ∧
      findReturn (run .tight) = findReturn (run .spaced) ∧
      (run .tight).map (·.mnemonic) = ["xchg", "bnd ret", "retfq", "iretq"] ∧
      (run .spaced).map (·.mnemonic) = ["nop", "bnd ret", "retfq", "iretq"] := by
  intro bs run
  have hsize : (run .tight).map (·.size) = (run .spaced).map (·.size) := by decide +kernel
  have h := (returns_by_opcode X86.library_isTight X86.library_isSpaced .bits64 0x1000 bs).2 hsize
  exact ⟨X86.library_isTight, X86.library_isSpaced, hsize, h.1, by decide +kernel, by decide +kernel⟩

end FunctionSlice
