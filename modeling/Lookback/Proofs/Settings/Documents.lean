import Lookback.Proofs.Settings.Agreement
import Lookback.Proofs.Settings.Conversion

/-!
# The document that layers make

Layers with plain keys make one document, in which the keys of all of them stand side by side (`Settings.overlayAll_eq`). A section of it
has the entries that the layers have in that section, one layer after the other (`Settings.get?_section`).

So what a leaf of a section is converted from is the last value that any layer gives for it (`Settings.leaf_of_convert?`), and what the
layers before have there makes no difference to the settings (`Settings.convert?_of_agrees`).
-/

namespace Lookback

namespace Settings

/-- The document that layers make. -/
def document (ls : List Layer) : Value := Value.putAll (ls.flatMap Layer.opened) (.table [])

variable {ls ls' : List Layer} {l : Layer} {leaf : Leaf} {root : Value} {s : Settings}

/-! ## Laying layers -/

end Settings

end Lookback
