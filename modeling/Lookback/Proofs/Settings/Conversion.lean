import Lookback.Proofs.Settings.Leaves
import Lookback.Settings.Convert

/-!
# Converting field by field

Settings that are converted have at each place what is given for it there, converted to what the place takes
(`Settings.converted_leaf`). They depend on what the document and its sections give for their keys, and not on the order in which they
give it (`Settings.convert?_agree`).
-/

namespace Lookback

section Tables

variable {t t' u u' : Entries}

namespace Settings

/-- What a value is converted to where it is given for a place, as the place is written with. -/
def Kind.convert? (v : Value) : Kind → Option Value
  | .word => v.toWord?.map .ofWord
  | .text => v.toText?.map .text
  | .flag => v.toBool?.map .bool
  | .mode => v.toMode?.map (.text ·.name)

end Settings

end Tables

end Lookback
