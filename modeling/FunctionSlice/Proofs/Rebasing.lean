import FunctionSlice.Proofs.Transcript
import Mathlib.Data.List.Forall2

/-! Relative and absolute addresses. Where a sweep starts shows in the addresses of its instructions and
in the text of their operands, and in nothing else: not in where an instruction ends, nor in which one
ends the function. -/

namespace FunctionSlice

/-- `j` is `i` in an address space that is shifted by `base`; its operands may be written otherwise. -/
structure Instruction.Shifted (base : Word) (i j : Instruction) : Prop where
  size : j.size = i.size
  bytes : j.bytes = i.bytes
  mnemonic : j.mnemonic = i.mnemonic
  address : j.address.toNat = (base.toNat + i.address.toNat) % 0x1_0000_0000_0000_0000

/-- `l'` is `l` with absolute addresses. -/
structure Listing.Rebased (l l' : Listing) : Prop where
  rva : l'.rva = l.rva
  width : l'.width = l.width
  imageBase : l'.imageBase = l.imageBase
  window : l'.window = l.window
  instructions : List.Forall₂ (Instruction.Shifted l.imageBase) l.instructions l'.instructions
  warning : l'.warning = l.warning

/-- Whether bytes are an instruction, how long it is and what it is called does not depend on where they
are. -/
def Reader.Placeless (read : Reader) : Prop :=
  ∀ w a b bs, (read w a bs).map (fun r => (r.size, r.mnemonic)) =
    (read w b bs).map fun r => (r.size, r.mnemonic)

theorem X86.reader_placeless (d : Dialect) : (reader d).Placeless := by
  intro w a b bs
  -- Down to the size and the mnemonic, since the operands of the two sides do differ.
  simp only [reader, Library.reader, library, Option.map_map, Function.comp_def, Finding.reading,
    Coded.finding, Finding.mnemonic, Finding.farReturn?]

namespace Reader

variable {read : Reader} {w : Width} {a : Word} {bs : Bytes}

theorem Placeless.none (h : read.Placeless) (hn : read w a bs = none) (b : Word) :
    read w b bs = none := by
  have := h w a b bs
  rw [hn] at this
  exact Option.map_eq_none_iff.1 this.symm

theorem Placeless.some {r : Reading} (h : read.Placeless) (hr : read w a bs = some r) (b : Word) :
    ∃ r', read w b bs = some r' ∧ r'.size = r.size ∧ r'.mnemonic = r.mnemonic := by
  have := h w a b bs
  rw [hr] at this
  obtain ⟨r', hr', he⟩ := Option.map_eq_some_iff.1 this.symm
  obtain ⟨hs, hm⟩ := Prod.mk.inj he
  exact ⟨r', hr', hs, hm⟩

theorem shifted_instruction {r r' : Reading} (hs : r'.size = r.size) (hm : r'.mnemonic = r.mnemonic)
    (base a : Word) (bs : Bytes) :
    Instruction.Shifted base (r.instruction a bs) (r'.instruction (base + a) bs) := by
  unfold Reading.instruction
  rw [hs]
  exact ⟨rfl, rfl, hm, UInt64.toNat_add base a⟩

/-- Two sweeps over the same bytes from different addresses go in step. -/
theorem sweep_shifted (h : read.Placeless) (base : Word) (w : Width) (a : Word) (bs : Bytes) :
    List.Forall₂ (Instruction.Shifted base) (read.sweep w a bs).1 (read.sweep w (base + a) bs).1 := by
  fun_induction sweep read w a bs with
  | case1 a bs hn =>
    rw [sweep_of_none (h.none hn (base + a))]
    exact .nil
  | case2 a bs r hr hs rest left hsweep ih =>
    obtain ⟨r', hr', hsize, hm⟩ := h.some hr (base + a)
    rw [sweep_of_some hr' (by omega) (by omega), hsize, UInt64.add_assoc]
    rw [hsweep] at ih
    exact .cons (shifted_instruction hsize hm base a bs) ih
  | case3 a bs r hr hs =>
    obtain ⟨r', hr', hsize, -⟩ := h.some hr (base + a)
    rw [sweep_of_size hr' (by omega)]
    exact .nil

end Reader

variable {base : Word} {xs ys : List Instruction}

theorem Instruction.Shifted.isReturn_eq {i j : Instruction} (h : i.Shifted base j) :
    j.isReturn = i.isReturn := by
  unfold isReturn baseMnemonic
  rw [h.mnemonic]

theorem findReturn_shifted (h : List.Forall₂ (Instruction.Shifted base) xs ys) :
    findReturn ys = findReturn xs := by
  unfold findReturn
  induction h with
  | nil => rfl
  | cons hi _ ih => rw [List.findIdx?_cons, List.findIdx?_cons, hi.isReturn_eq, ih]

theorem trim_shifted (h : List.Forall₂ (Instruction.Shifted base) xs ys) (p : Policy) :
    List.Forall₂ (Instruction.Shifted base) (trim xs p).1 (trim ys p).1 ∧
      (trim ys p).2 = (trim xs p).2 := by
  unfold trim
  rw [findReturn_shifted h, h.length_eq]
  exact ⟨List.forall₂_take _ h, rfl⟩

theorem Listing.rebased_of (m : Module) (p : Policy) (w : Window)
    (h : List.Forall₂ (Instruction.Shifted m.imageBase) xs ys) :
    (Listing.of m p w xs).Rebased (Listing.of m p w ys) :=
  ⟨rfl, rfl, rfl, rfl, (trim_shifted h p).1, (trim_shifted h p).2⟩

theorem Fetched.instructions_shifted {read : Reader} (h : read.Placeless) (name : String)
    (tells : Bool) (f : Fetched) :
    List.Forall₂ (Instruction.Shifted f.origin.imageBase)
      ((read.decoder name tells).answer (f.request .relative)).instructions
      ((read.decoder name tells).answer (f.request .absolute)).instructions :=
  Reader.sweep_shifted h f.origin.imageBase f.origin.width f.window.rva f.bytes

/-- Two outcomes that differ in the address space at most. -/
inductive Alike : Except Fault Listing → Except Fault Listing → Prop
  | failed (e : Fault) : Alike (.error e) (.error e)
  | listed (l l' : Listing) : l.Rebased l' → Alike (.ok l) (.ok l')

variable {load : Loader} {read : Reader} {disk : Storage} {c : Config} {path : String} {q : Query}

/-- From the bytes on, runs for relative and for absolute addresses go in step. -/
theorem Fetched.listing_alike (h : read.Placeless) (name : String) (tells : Bool) (f : Fetched) :
    Alike (f.listing (read.decoder name tells) { c with addressBase := .relative }).outcome
      (f.listing (read.decoder name tells) { c with addressBase := .absolute }).outcome := by
  have hs := f.instructions_shifted h name tells
  by_cases hn : ((read.decoder name tells).answer (f.request .relative)).instructions = []
  · rw [hn, List.forall₂_nil_left_iff] at hs
    rw [f.listing_of_nil hn, f.listing_of_nil hs]
    exact .failed _
  · have hn' : ((read.decoder name tells).answer (f.request .absolute)).instructions ≠ [] := by
      intro h0
      rw [h0, List.forall₂_nil_right_iff] at hs
      exact hn hs
    rw [f.listing_of_ne_nil hn, f.listing_of_ne_nil hn']
    exact .listed _ _ (Listing.rebased_of f.origin c.policy f.window hs)

/-- Runs for relative and for absolute addresses end alike: with the same failure, or with listings that
differ in the address space and in the text of operands; and the program ends in both or in neither. -/
theorem slice_rebased (load : Loader) (read : Reader) (name : String) (tells : Bool) (disk : Storage)
    (c : Config) (path : String) (q : Query) (hr : read.Placeless) :
    let relative : Config := { c with addressBase := .relative }
    let absolute : Config := { c with addressBase := .absolute }
    let decoder := read.decoder name tells
    Alike (slice load decoder disk relative path q).outcome
        (slice load decoder disk absolute path q).outcome ∧
      (slice? load decoder disk relative path q = none ↔
        slice? load decoder disk absolute path q = none) := by
  intro relative absolute decoder
  -- Nothing up to the decoder looks at the address space.
  constructor
  · cases hf : (fetch load disk c path q).outcome with
    | error e =>
      rw [slice_of_fetch_error (c := relative) hf, slice_of_fetch_error (c := absolute) hf]
      exact .failed e
    | ok f =>
      rw [slice_of_fetch_ok (c := relative) hf, slice_of_fetch_ok (c := absolute) hf]
      exact f.listing_alike hr name tells
  · have ho : overflows load disk relative path q = overflows load disk absolute path q := rfl
    unfold slice?
    rw [ho]
    cases overflows load disk absolute path q <;> simp

/-- Absolute addresses wrap behind the jump, and the jump tells where it goes. -/
theorem slice_rebased_jump :
    let c : Config := {}
    let file : Bytes := [0xff, 0xff, 0xeb, 0x00, 0xc3, 0x90, 0x90]
    let decoder := (X86.reader .tight).decoder "iced-x86" true
    let run := fun b => (slice topmost decoder (fun _ => .ok (.file file)) { c with addressBase := b }
      "m.bin" (.byAddress 0x1000)).outcome
    (X86.reader .tight).Placeless ∧ Alike (run .relative) (run .absolute) ∧
      ∃ l l', run .relative = .ok l ∧ run .absolute = .ok l' ∧
        l.instructions.map (fun i => (i.address, i.operands)) =
          [(0x1000, "short 0000000000001002h"), (0x1002, "")] ∧
        l'.instructions.map (fun i => (i.address, i.operands)) =
          [(0xffffffffffffffff, "short 1"), (1, "")] := by
  intro c file decoder run
  have hr := X86.reader_placeless .tight
  have h := (slice_rebased topmost (X86.reader .tight) "iced-x86" true (fun _ => .ok (.file file)) c
    "m.bin" (.byAddress 0x1000) hr).1
  refine ⟨hr, h, ⟨0x1000, .bits64, 0xffffffffffffefff, ⟨0x1000, 2, 5, 5⟩,
    [⟨0x1000, 2, "jmp", "short 0000000000001002h", [0xeb, 0x00]⟩, ⟨0x1002, 1, "ret", "", [0xc3]⟩],
    none⟩, ⟨0x1000, .bits64, 0xffffffffffffefff, ⟨0x1000, 2, 5, 5⟩,
    [⟨0xffffffffffffffff, 2, "jmp", "short 1", [0xeb, 0x00]⟩, ⟨1, 1, "ret", "", [0xc3]⟩], none⟩, ?_⟩
  decide +kernel

end FunctionSlice
