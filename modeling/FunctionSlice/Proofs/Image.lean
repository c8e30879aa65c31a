import FunctionSlice.Image
import FunctionSlice.Proofs.SymbolSet

/-! The symbols of an image are what it defines above its base, each at the distance from the base. -/

namespace FunctionSlice.Image

variable {o : Image} {base address : Word} {name : String} {x : Symbol} {d : Definition}

end FunctionSlice.Image
