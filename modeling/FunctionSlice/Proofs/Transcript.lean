import FunctionSlice.Proofs.Fetch
import FunctionSlice.Proofs.Sweep
import FunctionSlice.Proofs.Trim
import FunctionSlice.X86.Decoder

/-! A listing is a transcript of the file: its instructions spell out the bytes from the function's place
on, none left out and none twice, and each carries the address of its first byte. -/

namespace FunctionSlice

/-- The number that the first address of a function stands for. -/
def AddressBase.exact (b : AddressBase) (imageBase rva : Nat) : Nat :=
  match b with
  | relative => rva
  | absolute => (imageBase + rva) % 0x1_0000_0000_0000_0000

theorem AddressBase.toNat_start (b : AddressBase) (imageBase rva : Word) :
    (b.start imageBase rva).toNat = b.exact imageBase.toNat rva.toNat := by
  cases b with
  | relative => rfl
  | absolute => exact UInt64.toNat_add imageBase rva

/-- `l` shows what is in `file`, with addresses from `b` and at most `cap` bytes. -/
structure Listing.Transcribes (l : Listing) (b : AddressBase) (cap : Word) (file : Bytes) : Prop where
  nonempty : l.instructions ≠ []
  sized : ∀ i ∈ l.instructions, i.size = i.bytes.length ∧ 1 ≤ i.size
  inside : l.window.fileOffset.toNat + l.codeSize ≤ file.length
  bytes : l.instructions.flatMap (·.bytes) =
    (file.drop l.window.fileOffset.toNat).take l.codeSize
  within : l.codeSize ≤ l.window.length.toNat
  capped : l.window.length.toNat ≤ min cap.toNat l.window.remaining.toNat
  addresses : ∀ k i, l.instructions[k]? = some i → i.address.toNat =
    (b.exact l.imageBase.toNat l.rva.toNat + totalSize (l.instructions.take k)) % 0x1_0000_0000_0000_0000

/-- A front of the window that is laid out from the start address is a transcript. -/
theorem Listing.transcribes_of_laid {l : Listing} {b : AddressBase} {cap : Word} {file : Bytes}
    (hne : l.instructions ≠ []) (hl : Laid (b.start l.imageBase l.rva) l.instructions)
    (hb : l.instructions.flatMap (·.bytes) <+: l.window.cut file)
    (hc : l.window.fileOffset.toNat + l.window.length.toNat ≤ file.length)
    (hw : l.window.length.toNat = min cap.toNat l.window.remaining.toNat) :
    l.Transcribes b cap file := by
  have hsize : (l.instructions.flatMap (·.bytes)).length = l.codeSize := hl.length_bytes
  have hle : l.codeSize ≤ l.window.length.toNat := by
    rw [← hsize, ← Window.length_cut hc]
    exact hb.length_le
  refine ⟨hne, hl.sized, by omega, ?_, hle, by omega, ?_⟩
  · rw [List.prefix_iff_eq_take.1 hb, hsize, Window.cut, List.take_take, Nat.min_eq_left hle]
  · intro k i hk
    rw [hl.address_eq k i hk, AddressBase.toNat_start]

/-- Whatever the reader of single instructions, a listing of a sweep transcribes the module's file. -/
theorem listing_transcribes (load : Loader) (read : Reader) (name : String) (tells : Bool)
    (disk : Storage) (c : Config) (path : String) (q : Query) (l : Listing)
    (hc : c.check = .ok ())
    (h : (slice load (read.decoder name tells) disk c path q).outcome = .ok l) :
    ∃ m symbols file, (load path).outcome = .ok (m, symbols) ∧ disk m.path = .ok (.file file) ∧
      (resolve symbols q).outcome = .ok l.rva ∧ l.imageBase = m.imageBase ∧
      l.Transcribes c.addressBase c.maxWindow file := by
  obtain ⟨f, hf, hne, rfl⟩ := slice_ok_iff.1 h
  obtain ⟨file, hfile, hr⟩ := exists_reads hc hf
  obtain ⟨rva, s, ⟨symbols, hload, hres⟩, -, hm⟩ := hr.lands
  refine ⟨f.origin, symbols, file, hload, hfile, ?_, rfl, ?_⟩
  · rw [hres]
    exact congrArg Except.ok hm.start.symm
  · have hp := trim_fst_prefix
      ((read.decoder name tells).answer (f.request c.addressBase)).instructions c.policy
    have hb := (flatMap_bytes_mono hp).trans
      (read.sweep_bytes_prefix f.origin.width
        (c.addressBase.start f.origin.imageBase f.window.rva) f.bytes)
    rw [hr.bytes] at hb
    exact Listing.transcribes_of_laid (trim_fst_ne_nil hne)
      ((read.laid_sweep _ _ _).of_front hp) hb hr.covered hm.length

/-- A function at the very top of the address space, behind two bytes of the file. -/
def topmost : Loader := fun path =>
  pure (⟨path, .bits64, 0xffffffffffffefff, [⟨".text", 0x1000, 5, 2⟩]⟩, fun _ => [])

/-- `push rbp; mov rbp,rsp; ret`, with addresses that wrap. -/
theorem listing_transcribes_wrapping :
    let c : Config := { addressBase := .absolute }
    let file : Bytes := [0xff, 0xff, 0x55, 0x48, 0x89, 0xe5, 0xc3]
    ∃ l, c.check = .ok () ∧
      (slice topmost ((X86.reader .tight).decoder "iced-x86" true) (fun _ => .ok (.file file)) c
        "m.bin" (.byAddress 0x1000)).outcome = .ok l ∧
      l.instructions.map (·.address) = [0xffffffffffffffff, 0, 3] ∧
      l.Transcribes .absolute 512 file := by
  intro c file
  have h : (slice topmost ((X86.reader .tight).decoder "iced-x86" true)
      (fun _ => .ok (.file file)) c "m.bin" (.byAddress 0x1000)).outcome =
      .ok ⟨0x1000, .bits64, 0xffffffffffffefff, ⟨0x1000, 2, 5, 5⟩,
        [⟨0xffffffffffffffff, 1, "push", "rbp", [0x55]⟩,
          ⟨0, 3, "mov", "rbp,rsp", [0x48, 0x89, 0xe5]⟩, ⟨3, 1, "ret", "", [0xc3]⟩], none⟩ := by
    decide +kernel
  obtain ⟨m, symbols, _, -, hfile, -, -, ht⟩ := listing_transcribes _ _ _ _ _ c _ _ _ rfl h
  cases hfile
  exact ⟨_, rfl, h, rfl, ht⟩

end FunctionSlice
