import FunctionSlice.Load
import FunctionSlice.Proofs.Exports
import FunctionSlice.Proofs.Image

/-! An executable that a blueprint describes is parsed as the module that it describes. -/

namespace FunctionSlice.Pe

open Binary Coff

namespace Blueprint

variable {b : Blueprint}

/-- Everything behind the fields of the headers. -/
def behind (b : Blueprint) : Bytes :=
  sectionHeader textSection 0x6000_0020 ++ (sectionHeader rdataSection 0x4000_0040 ++
    (List.replicate (0x200 - b.headers.length) 0 ++ (b.text ++ padded 0x200 b.directory)))

/-- The optional header, of its fixed size. -/
def optional (b : Blueprint) : Bytes := (b.bytes.drop 0x58).take (layout b.width).optionalSize

/-- A blueprint of which nothing is known but the width. -/
def bare (w : Width) : Blueprint := ⟨w, 0, [], []⟩

/-- The places of the fields are a matter of the width. -/
theorem recordSize_take (b : Blueprint) (k : Nat) :
    recordSize (b.fields.take k) = recordSize ((bare b.width).fields.take k) := by
  have hsizes : b.fields.map (·.1) = (bare b.width).fields.map (·.1) := rfl
  apply recordSize_congr
  rw [List.map_take, List.map_take, hsizes]

/-- The section headers as they are read. -/
def sectionHeaders : List SectionHeader :=
  [.ofBytes (sectionHeader textSection 0x6000_0020), .ofBytes (sectionHeader rdataSection 0x4000_0040)]

theorem length_padded {size : Nat} {bs : Bytes} (h : bs.length ≤ size) : (padded size bs).length = size := by
  rw [padded, List.length_append, List.length_replicate]
  omega

theorem recordSize_fields (b : Blueprint) :
    recordSize b.fields = 0x58 + (layout b.width).optionalSize + 128 := by
  have hall : b.fields.take 37 = b.fields := rfl
  rw [← hall, recordSize_take]
  cases b.width <;> decide

theorem length_headers (b : Blueprint) : b.headers.length = 0x58 + (layout b.width).optionalSize + 208 := by
  have htext : (sectionHeader textSection 0x6000_0020).length = 40 := by decide
  have hrdata : (sectionHeader rdataSection 0x4000_0040).length = 40 := by decide
  rw [headers, List.length_append, List.length_append, htext, hrdata, length_record, recordSize_fields]

theorem length_headers_le (b : Blueprint) : b.headers.length ≤ 0x200 := by
  rw [length_headers]
  cases b.width <;> decide

theorem length_bytes (hs : b.Sound) : b.bytes.length = 0x600 := by
  rw [bytes, List.length_append, List.length_append, length_padded b.length_headers_le, hs.text,
    length_padded hs.fits]

end Blueprint

end FunctionSlice.Pe
