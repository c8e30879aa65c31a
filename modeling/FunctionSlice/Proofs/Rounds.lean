import FunctionSlice.Proofs.Locality

/-! A sweep as a loop that keeps its place in the buffer. A round takes the instruction at that place, and
the loop is over when there is none. Started anew behind any of the instructions it goes on as before. -/

namespace FunctionSlice

/-- How far a decoding loop has come, at which address that is, and what was found on the way. -/
structure Cursor where
  position : Nat
  address : Word
  found : List Instruction
  deriving DecidableEq

namespace Cursor

def start (a : Word) : Cursor := ⟨0, a, []⟩

/-- The place behind instructions of which the first is at `a`. -/
def behind (a : Word) (xs : List Instruction) : Cursor :=
  ⟨totalSize xs, a + UInt64.ofNat (totalSize xs), xs⟩

/-- From `c` to `d` one slice of the buffer is taken, and one instruction is made of it. -/
structure Takes (bs : Bytes) (c d : Cursor) : Prop where
  forward : c.position < d.position
  inside : d.position ≤ bs.length
  found : ∃ mnemonic operands, d.found = c.found ++
    [.of c.address ((bs.drop c.position).take (d.position - c.position)) mnemonic operands]

theorem behind_nil (a : Word) : behind a [] = start a := by
  rw [behind, totalSize_nil, show UInt64.ofNat 0 = 0 from rfl, UInt64.add_zero]
  rfl

theorem behind_concat (a : Word) (xs : List Instruction) (i : Instruction) :
    behind a (xs ++ [i]) = ⟨(behind a xs).position + i.size,
      (behind a xs).address + UInt64.ofNat i.size, xs ++ [i]⟩ := by
  have hsize : totalSize (xs ++ [i]) = totalSize xs + i.size := by
    rw [totalSize_append, totalSize_cons, totalSize_nil, Nat.add_zero]
  simp only [behind, hsize, UInt64.ofNat_add, UInt64.add_assoc]

theorem behind_cons (a : Word) (i : Instruction) (xs : List Instruction) :
    behind a (i :: xs) = ⟨i.size + (behind (a + UInt64.ofNat i.size) xs).position,
      (behind (a + UInt64.ofNat i.size) xs).address, i :: xs⟩ := by
  simp only [behind, totalSize_cons, UInt64.ofNat_add, UInt64.add_assoc]

end Cursor

namespace Reader

open Cursor

variable {read : Reader} {w : Width} {a : Word} {bs : Bytes} {xs : List Instruction}
  {i : Instruction} {c d : Cursor} {n : Nat}

/-- One round over the buffer `bs`. There is none at its end, nor where no instruction is read. -/
def round? (read : Reader) (w : Width) (bs : Bytes) (c : Cursor) : Option Cursor :=
  if c.position < bs.length then
    (read w c.address (bs.drop c.position)).map fun r =>
      ⟨c.position + r.size, c.address + UInt64.ofNat r.size,
        c.found ++ [r.instruction c.address (bs.drop c.position)]⟩
  else none

def rounds? (read : Reader) (w : Width) (bs : Bytes) : Nat → Cursor → Option Cursor
  | 0, c => some c
  | n + 1, c => (read.rounds? w bs n c).bind (read.round? w bs)

/-- The first instruction of a sweep is the reading of its bytes. -/
theorem exists_of_sweep_cons (h : (read.sweep w a bs).1 = i :: xs) :
    ∃ r, read w a bs = some r ∧ 0 < r.size ∧ r.size ≤ bs.length ∧ i = r.instruction a bs ∧
      xs = (read.sweep w (a + UInt64.ofNat r.size) (bs.drop r.size)).1 := by
  cases hr : read w a bs with
  | none =>
    rw [sweep_of_none hr] at h
    cases h
  | some r =>
    by_cases hs : 0 < r.size ∧ r.size ≤ bs.length
    · rw [sweep_of_some hr hs.1 hs.2] at h
      cases h
      exact ⟨r, rfl, hs.1, hs.2, rfl, rfl⟩
    · rw [sweep_of_size hr hs] at h
      cases h

theorem Bounded.none_of_sweep_nil (hb : read.Bounded) (h : (read.sweep w a bs).1 = []) :
    read w a bs = none := by
  cases hr : read w a bs with
  | none => rfl
  | some r =>
    obtain ⟨h1, hl⟩ := hb w a bs r hr
    rw [sweep_of_some hr h1 hl] at h
    cases h

/-- Behind any of its instructions a sweep can be cut: what it finds there is what was still to come. -/
theorem sweep_behind (read : Reader) (w : Width) (a : Word) (bs : Bytes) (n : Nat) :
    let c := behind a ((read.sweep w a bs).1.take n)
    (read.sweep w c.address (bs.drop c.position)).1 = (read.sweep w a bs).1.drop n := by
  induction n generalizing a bs with
  | zero =>
    rw [List.take_zero, behind_nil]
    rfl
  | succ n ih =>
    cases h : (read.sweep w a bs).1 with
    | nil =>
      rw [List.take_nil, behind_nil, List.drop_nil]
      exact h
    | cons i xs =>
      obtain ⟨r, -, -, hl, rfl, rfl⟩ := exists_of_sweep_cons h
      rw [List.take_succ_cons, behind_cons, size_instruction hl, List.drop_succ_cons]
      simp only [← List.drop_drop]
      exact ih (a + UInt64.ofNat r.size) (bs.drop r.size)

theorem takes_of_round? (hb : read.Bounded) (h : read.round? w bs c = some d) : c.Takes bs d := by
  obtain ⟨-, h⟩ := Option.ite_none_right_eq_some.1 h
  obtain ⟨r, hr, rfl⟩ := Option.map_eq_some_iff.1 h
  obtain ⟨h1, hl⟩ := hb _ _ _ _ hr
  rw [List.length_drop] at hl
  refine ⟨Nat.lt_add_of_pos_right h1, by simp only; omega, r.mnemonic, r.operands, ?_⟩
  simp only [Nat.add_sub_cancel_left]
  rfl

/-- A round leads from behind one instruction of the sweep to behind the next. -/
theorem round?_behind (h : n < (read.sweep w a bs).1.length) :
    read.round? w bs (behind a ((read.sweep w a bs).1.take n)) =
      some (behind a ((read.sweep w a bs).1.take (n + 1))) := by
  have hrest := sweep_behind read w a bs n
  rw [List.drop_eq_getElem_cons h] at hrest
  obtain ⟨r, hr, h0, hl, hi, -⟩ := exists_of_sweep_cons hrest
  have hpos : (behind a ((read.sweep w a bs).1.take n)).position < bs.length := by
    rw [List.length_drop] at hl
    omega
  rw [round?, if_pos hpos, hr, Option.map_some, List.take_succ_eq_append_getElem h, behind_concat, hi,
    size_instruction hl]
  rfl

/-- Behind its last instruction a sweep reads nothing. -/
theorem Bounded.read_behind (hb : read.Bounded) (w : Width) (a : Word) (bs : Bytes) :
    let c := behind a (read.sweep w a bs).1
    read w c.address (bs.drop c.position) = none := by
  have hrest := sweep_behind read w a bs (read.sweep w a bs).1.length
  rw [List.take_length, List.drop_length] at hrest
  exact hb.none_of_sweep_nil hrest

/-- There the loop is over. -/
theorem round?_end (hb : read.Bounded) :
    read.round? w bs (behind a (read.sweep w a bs).1) = none := by
  rw [round?, hb.read_behind w a bs, Option.map_none, ite_self]

/-- After `n` rounds the loop is behind the first `n` instructions of the sweep. -/
theorem rounds?_start (h : n ≤ (read.sweep w a bs).1.length) :
    read.rounds? w bs n (start a) = some (behind a ((read.sweep w a bs).1.take n)) := by
  induction n with
  | zero => rw [List.take_zero, behind_nil, rounds?]
  | succ n ih => rw [rounds?, ih (by omega), Option.bind_some, round?_behind h]

theorem length_sweep_le (read : Reader) (w : Width) (a : Word) (bs : Bytes) :
    (read.sweep w a bs).1.length ≤ bs.length := by
  have hlaid := laid_sweep read w a bs
  have hfront := sweep_bytes_prefix read w a bs
  have hbytes := hfront.length_le
  rw [hlaid.length_bytes] at hbytes
  exact Nat.le_trans hlaid.length_le hbytes

end Reader

/-- Decoding goes through a buffer from left to right. It is over after no more rounds than there are bytes,
and each round takes a slice inside the buffer. On a front of the buffer it finds a front of the
instructions; started anew behind any of them, at the address there, it finds all the others. -/
theorem decode_resumes (read : Reader) (name : String) (tells : Bool) (w : Width) (base : Word)
    (bs : Bytes) (hb : read.Bounded) (hl : read.Local) :
    let decode := fun a bs => ((read.decoder name tells).decode w a bs).instructions
    let xs := decode base bs
    (∃ n c, n ≤ bs.length ∧ read.rounds? w bs n (.start base) = some c ∧
      read.round? w bs c = none ∧ c.found = xs) ∧
    (∀ c d, read.round? w bs c = some d → c.Takes bs d) ∧
    (∀ p q, bs = p ++ q → decode base p <+: xs) ∧
    ∀ i,
      let k := totalSize (xs.take i)
      decode (base + UInt64.ofNat k) (bs.drop k) = xs.drop i := by
  intro decode xs
  refine ⟨?_, fun c d => Reader.takes_of_round? hb, ?_, Reader.sweep_behind read w base bs⟩
  · have hrun : read.rounds? w bs xs.length (.start base) = some (.behind base (xs.take xs.length)) :=
      Reader.rounds?_start (Nat.le_refl xs.length)
    rw [List.take_length] at hrun
    exact ⟨xs.length, .behind base xs, Reader.length_sweep_le read w base bs, hrun,
      Reader.round?_end hb, rfl⟩
  · rintro p q rfl
    exact Reader.sweep_append hl q

/-- The jump is cut in half, and then decoded again from its own start, over the end of the address space. -/
theorem decode_resumes_jump :
    let bs : Bytes := [0x55, 0xeb, 0xfd, 0xc3]
    let decode := fun a bs => ((X86.decoder .tight).decode .bits64 a bs).instructions
    let xs := decode 0xffffffffffffffff bs
    (X86.reader .tight).Bounded ∧ (X86.reader .tight).Local ∧
      xs.map (·.operands) = ["rbp", "short 0FFFFFFFFFFFFFFFFh", ""] ∧
      (decode 0xffffffffffffffff [0x55, 0xeb]).length = 1 ∧
      decode 0xffffffffffffffff [0x55, 0xeb] <+: xs ∧
      totalSize (xs.take 1) = 1 ∧ decode 0 [0xeb, 0xfd, 0xc3] = xs.drop 1 := by
  intro bs decode xs
  have hb := X86.reader_bounded .tight
  have hl := X86.reader_local .tight
  obtain ⟨-, -, hfront, hrest⟩ := decode_resumes (X86.reader .tight) (Library.decoderName .tight) true
    .bits64 0xffffffffffffffff bs hb hl
  have hsize : totalSize (xs.take 1) = 1 := by decide +kernel
  have hjump : decode (0xffffffffffffffff + UInt64.ofNat (totalSize (xs.take 1)))
      (bs.drop (totalSize (xs.take 1))) = xs.drop 1 := hrest 1
  rw [hsize] at hjump
  exact ⟨hb, hl, by decide +kernel, by decide +kernel, hfront [0x55, 0xeb] [0xfd, 0xc3] rfl, hsize,
    hjump⟩

end FunctionSlice
