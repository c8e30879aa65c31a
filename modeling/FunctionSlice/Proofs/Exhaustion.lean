import FunctionSlice.Image.Blueprint
import FunctionSlice.Load
import FunctionSlice.Proofs.Rounds
import FunctionSlice.Proofs.Transcript

/-! What a warning says of the window. Without a return in it a decoded stream is kept whole, and the warning is
the same whether the window was used up or decoding came to bytes that begin no instruction. In the second case
any number of bytes may be left. -/

namespace FunctionSlice

namespace Reader

variable {read : Reader} {w : Width} {a : Word} {bs : Bytes} {size : Nat}

/-- An instruction has at most `size` bytes. -/
def Within (read : Reader) (size : Nat) : Prop := ∀ w a bs r, read w a bs = some r → r.size ≤ size

/-- The first `size` of these bytes begin no instruction, whatever may follow them. -/
def Invalid (read : Reader) (size : Nat) (w : Width) (a : Word) (bs : Bytes) : Prop :=
  ∀ more, read w a (bs.take size ++ more) = none

/-- Where nothing is read off as many bytes as an instruction can have, the bytes are at fault and not their
end. -/
theorem Within.invalid (h : read.Within size) (hb : read.Bounded) (hl : read.Local)
    (hlen : size ≤ bs.length) (hn : read w a bs = none) : read.Invalid size w a bs := by
  intro more
  rw [Option.eq_none_iff_forall_not_mem]
  intro r hr
  -- An instruction is read off its own bytes, so this one would be read off `bs` as well.
  have hread := hl w a _ r hr (hb w a _ r hr).2 (bs.drop r.size)
  have hfront : (bs.take size ++ more).take r.size = bs.take r.size := by
    have hsize := h w a _ r hr
    rw [List.take_append_of_le_length (by rw [List.length_take]; omega), List.take_take,
      Nat.min_eq_left hsize]
  rw [hfront, List.take_append_drop, hn] at hread
  cases hread

end Reader

/-- An instruction has at most fifteen bytes. -/
theorem X86.reader_within (d : Dialect) : (X86.reader d).Within X86.maxSize := by
  intro w a bs r h
  obtain ⟨i, hi, rfl⟩ := reader_eq_some_iff.1 h
  obtain ⟨p, s, e, size, os, t, -, -, hl, -, rfl⟩ := X86.decode?_eq_some_iff.1 hi
  exact hl

/-- What of the window the instructions of a listing leave. -/
def Listing.rest (l : Listing) (file : Bytes) : Bytes := (l.window.cut file).drop l.codeSize

/-- A listing with a warning goes as far as its window is decoded. -/
theorem read_rest_of_warning {load : Loader} {read : Reader} {name path : String} {tells : Bool}
    {disk : Storage} {c : Config} {q : Query} {l : Listing} (hb : read.Bounded) (hc : c.check = .ok ())
    (h : (slice load (read.decoder name tells) disk c path q).outcome = .ok l) (hw : l.warning ≠ none) :
    ∃ m symbols file, (load path).outcome = .ok (m, symbols) ∧ disk m.path = .ok (.file file) ∧
      l.codeSize + (l.rest file).length = l.window.length.toNat ∧
      read m.width (c.addressBase.start m.imageBase l.rva + UInt64.ofNat l.codeSize) (l.rest file) =
        none := by
  obtain ⟨f, hf, -, rfl⟩ := slice_ok_iff.1 h
  obtain ⟨file, hfile, hr⟩ := exists_reads hc hf
  obtain ⟨rva, s, ⟨symbols, hload, -⟩, -, -⟩ := hr.lands
  refine ⟨f.origin, symbols, file, hload, hfile, ?_⟩
  let start := c.addressBase.start f.origin.imageBase f.window.rva
  let xs := (read.sweep f.origin.width start (f.window.cut file)).1
  have hanswer : ((read.decoder name tells).answer (f.request c.addressBase)).instructions = xs := by
    change (read.sweep f.origin.width start f.bytes).1 = xs
    rw [hr.bytes]
  rw [hanswer] at hw ⊢
  have hkept : (Listing.of f.origin c.policy f.window xs).instructions = xs := trim_fst_of_warning hw
  have hsize : totalSize xs ≤ (f.window.cut file).length := by
    rw [← (read.laid_sweep f.origin.width start (f.window.cut file)).length_bytes]
    exact (read.sweep_bytes_prefix f.origin.width start (f.window.cut file)).length_le
  have hrest : (Listing.of f.origin c.policy f.window xs).rest file =
      (f.window.cut file).drop (totalSize xs) := by
    rw [Listing.rest, Listing.codeSize, hkept]
    rfl
  rw [hrest, Listing.codeSize, hkept]
  refine ⟨?_, hb.read_behind f.origin.width start (f.window.cut file)⟩
  rw [List.length_drop, Nat.add_sub_cancel' hsize]
  exact Window.length_cut hr.covered

/-- Under the strict policy a warning means that there is no return and that decoding came to an end: what is
left of the window is too short for an instruction, or it begins none. In the second case there may be more
of it than an instruction has bytes. -/
theorem strict_warning_exact (load : Loader) (read : Reader) (name : String) (tells : Bool) (disk : Storage)
    (c : Config) (path : String) (q : Query) (l : Listing) (hb : read.Bounded) (hl : read.Local)
    (hs : read.Within X86.maxSize) (hc : c.check = .ok ()) (hp : c.policy = .strict)
    (h : (slice load (read.decoder name tells) disk c path q).outcome = .ok l) :
    (∀ n, l.warning = some (.truncated n) ↔
      n = l.instructions.length ∧ ∀ i ∈ l.instructions, ¬ i.isReturn) ∧
    (l.warning ≠ none → ∃ m symbols file,
      (load path).outcome = .ok (m, symbols) ∧ disk m.path = .ok (.file file) ∧
      let rest := l.rest file
      let next := c.addressBase.start m.imageBase l.rva + UInt64.ofNat l.codeSize
      l.codeSize + rest.length = l.window.length.toNat ∧ read m.width next rest = none ∧
        (rest.length < X86.maxSize ∨ read.Invalid X86.maxSize m.width next rest)) := by
  constructor
  · obtain ⟨f, -, -, rfl⟩ := slice_ok_iff.1 h
    rw [Listing.of, hp]
    exact trim_strict_warning_iff _
  · intro hw
    obtain ⟨m, symbols, file, hload, hfile, hlength, hread⟩ := read_rest_of_warning hb hc h hw
    refine ⟨m, symbols, file, hload, hfile, hlength, hread, ?_⟩
    rcases Nat.lt_or_ge (l.rest file).length X86.maxSize with hshort | hlong
    · exact .inl hshort
    · exact .inr (hs.invalid hb hl hlong hread)

/-- A module of seventeen bytes of code at the start of its file. -/
def brief : Loader := fun path =>
  pure (⟨path, .bits64, 0x140000000, [⟨".text", 0x1000, 17, 0⟩]⟩, fun _ => [])

/-- Behind the `nop` is a byte that begins nothing in 64-bit code, and enough bytes for any instruction. -/
theorem strict_warning_exact_brief :
    let read := X86.reader .tight
    let c : Config := { policy := .strict }
    let file : Bytes := 0x90 :: 0x06 :: List.replicate 15 0
    ∃ l, (slice brief (read.decoder "iced-x86" true) (fun _ => .ok (.file file)) c "m.bin"
        (.byAddress 0x1000)).outcome = .ok l ∧
      l.warning = some (.truncated 1) ∧ (∀ i ∈ l.instructions, ¬ i.isReturn) ∧
      l.rest file = 0x06 :: List.replicate 15 0 ∧
      read.Invalid X86.maxSize .bits64 0x1001 (0x06 :: List.replicate 15 0) := by
  intro read c file
  have h : (slice brief (read.decoder "iced-x86" true) (fun _ => .ok (.file file)) c "m.bin"
      (.byAddress 0x1000)).outcome = .ok ⟨0x1000, .bits64, 0x140000000, ⟨0x1000, 0, 17, 17⟩,
        [⟨0x1000, 1, "nop", "", [0x90]⟩], some (.truncated 1)⟩ := by
    decide +kernel
  obtain ⟨hreturn, hrest⟩ := strict_warning_exact brief read "iced-x86" true _ c "m.bin" (.byAddress 0x1000) _
    (X86.reader_bounded .tight) (X86.reader_local .tight) (X86.reader_within .tight) rfl rfl h
  obtain ⟨m, symbols, _, hload, hfile, -, -, hinvalid⟩ := hrest nofun
  cases hload
  cases hfile
  exact ⟨_, h, rfl, ((hreturn 1).1 rfl).2, rfl, hinvalid.resolve_left (by decide)⟩

open Pe in
/-- An executable with the same two bytes at the start of its code. -/
def unreadable : Blueprint := ⟨.bits64, 0x140000000, 0x90 :: 0x06 :: List.replicate 0x1fe 0, []⟩

/-- The warning comes with the window hardly used. -/
theorem strict_warning_early :
    let disk : Storage := fun _ => .ok (.file unreadable.bytes)
    let c : Config := { policy := .strict }
    ∃ l, c.check = .ok () ∧
      (slice (objectLoader disk) (X86.decoder c.dialect) disk c "m.exe" (.byAddress 0x1000)).outcome = .ok l ∧
      l.warning = some (.truncated 1) ∧ l.codeSize = 1 ∧ l.window.length = 512 := by
  intro disk c
  refine ⟨⟨0x1000, .bits64, 0x140000000, ⟨0x1000, 0x200, 512, 512⟩, [⟨0x1000, 1, "nop", "", [0x90]⟩],
    some (.truncated 1)⟩, rfl, ?_, rfl, rfl, rfl⟩
  decide +kernel

end FunctionSlice
