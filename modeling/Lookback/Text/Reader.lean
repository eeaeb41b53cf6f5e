/-!
# Reading text character by character

A `Reader` takes characters from the front of a text and gives a result, or refuses the text. Formats are read by
putting readers together. A loop counts its rounds off against the characters that are left when it begins (`bounded`),
as each round takes at least one of them.
-/

namespace Lookback

/-- Takes characters from the front of a text and gives a result and the rest, or refuses. -/
abbrev Reader := StateT (List Char) Option

namespace Reader

variable {α β : Type}

/-- Refuses the text. -/
def refuse : Reader α := fun _ => none

/-- The next character, which stays. -/
def peek? : Reader (Option Char) := fun s => some (s.head?, s)

/-- Takes the next character. -/
def next : Reader Char
  | [] => none
  | c :: rest => some (c, rest)

/-- Takes a given character. -/
def char (c : Char) : Reader Unit
  | [] => none
  | d :: rest => if d = c then some ((), rest) else none

/-- Takes a given text. -/
def string (text : String) : Reader Unit := fun s =>
  if text.toList.isPrefixOf s then some ((), s.drop text.length) else none

/-- Whether a given text comes next; it is taken if it does. -/
def skip? (text : String) : Reader Bool := fun s =>
  if text.toList.isPrefixOf s then some (true, s.drop text.length) else some (false, s)

/-- Takes the longest stretch of characters of a kind, which may be empty. -/
def takeWhile (p : Char → Bool) : Reader (List Char) := fun s =>
  some (s.takeWhile p, s.dropWhile p)

/-- Takes the longest stretch of characters of a kind, which must not be empty. -/
def takeWhile1 (p : Char → Bool) : Reader (List Char) := do
  match ← takeWhile p with
  | [] => refuse
  | cs => pure cs

/-- Refuses text that goes on. -/
def finish : Reader Unit
  | [] => some ((), [])
  | _ :: _ => none

/-- A loop that takes at least one character in each round but the last. It is given one round for each character that is
left, and one more. -/
def bounded (loop : List Char → Reader α) : Reader α := fun s => loop (' ' :: s) s

/-- One reader, or another from the same place if the first refuses. -/
def orElse (first second : Reader α) : Reader α := fun s =>
  match first s with
  | some r => some r
  | none => second s

/-- The result of a reader that takes a whole text. -/
def run? (r : Reader α) (text : String) : Option α :=
  (do let a ← r; finish; pure a : Reader α) text.toList |>.map (·.1)

end Reader

end Lookback
