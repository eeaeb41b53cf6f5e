import Lookback.Number.Integer
import Lookback.Text.Reader

/-!
# Blanks, strings and keys of TOML

What separates the parts of a document, the four kinds of strings, and keys, which may be dotted.
-/

namespace Lookback

namespace Toml

open Reader

/-! ## Blanks and comments -/

/-- Passes over blanks within a line. -/
def blanks : Reader Unit := do
  let _ ← takeWhile fun c => c = ' ' || c = '\t'

/-- Characters that stand for themselves in comments and strings: all but control characters, the tab excepted. -/
def isPlain (c : Char) : Bool := c = '\t' || (' ' ≤ c && c ≠ '\x7f')

/-- Whether the end of a line comes next; it is taken if it does. -/
def newline? : Reader Bool := do
  if ← skip? "\n" then pure true else skip? "\r\n"

/-- Passes over a comment, if there is one. -/
def comment : Reader Unit := do
  if ← skip? "#" then
    let _ ← takeWhile isPlain

/-- Takes the rest of a line that holds nothing but blanks and a comment. -/
def lineEnd : Reader Unit := do
  blanks
  comment
  if !(← newline?) then finish

/-- Passes over blanks, comments and ends of lines. -/
def gaps : (bound : List Char) → Reader Unit
  | [] => pure ()
  | _ :: bound => do
    blanks
    comment
    if ← newline? then gaps bound

/-! ## Strings -/

/-- The character that some hexadecimal digits number. -/
def numbered (width : Nat) : Reader Char := fun s => do
  let n ← if s.length < width then none else Integer.ofDigits? 16 0 (s.take width)
  if n < 0xD800 ∨ (0xE000 ≤ n ∧ n < 0x110000) then some (Char.ofNat n, s.drop width) else none

/-- The character an escape stands for. -/
def escape : Reader Char := do
  match ← next with
  | 'b' => pure '\x08'
  | 't' => pure '\t'
  | 'n' => pure '\n'
  | 'f' => pure '\x0c'
  | 'r' => pure '\r'
  | '"' => pure '"'
  | '\\' => pure '\\'
  | 'u' => numbered 4
  | 'U' => numbered 8
  | _ => refuse

/-- The characters of a string on one line, up to its closing quote. -/
def stringRest (quote : Char) (escapes : Bool) : (bound : List Char) → Reader (List Char)
  | [] => refuse
  | _ :: bound => do
    let c ← next
    if c = quote then pure []
    else if c = '\\' && escapes then do
      let e ← escape
      let rest ← stringRest quote escapes bound
      pure (e :: rest)
    else if isPlain c then do
      let rest ← stringRest quote escapes bound
      pure (c :: rest)
    else refuse

/-- Passes over blanks and ends of lines. -/
def whitespace : (bound : List Char) → Reader Unit
  | [] => pure ()
  | _ :: bound => do
    blanks
    if ← newline? then whitespace bound

/-- The characters of a string over several lines, up to its three closing quotes; up to two more may stand before
them. A backslash at the end of a line joins it to the next character that is not blank. -/
def longRest (quote : Char) (escapes : Bool) : (bound : List Char) → Reader (List Char)
  | [] => refuse
  | _ :: bound => do
    if ← newline? then
      let rest ← longRest quote escapes bound
      pure ('\n' :: rest)
    else if (← peek?) = some quote then do
      let quotes ← takeWhile (· = quote)
      if 6 ≤ quotes.length then refuse
      else if 3 ≤ quotes.length then pure (quotes.drop 3)
      else do
        let rest ← longRest quote escapes bound
        pure (quotes ++ rest)
    else do
      let c ← next
      if c = '\\' && escapes then do
        if ← continued? then
          bounded whitespace
          longRest quote escapes bound
        else
          let e ← escape
          let rest ← longRest quote escapes bound
          pure (e :: rest)
      else if isPlain c then do
        let rest ← longRest quote escapes bound
        pure (c :: rest)
      else refuse
where
  /-- Whether nothing but blanks is left of the line. -/
  continued? : Reader Bool := fun s =>
    match s.dropWhile fun c => c = ' ' || c = '\t' with
    | '\n' :: _ | '\r' :: '\n' :: _ => some (true, s)
    | _ => some (false, s)

/-- A string on one line with its quotes. -/
def shortString : Reader String := do
  let quote ← next
  let cs ← bounded (stringRest quote (quote = '"'))
  pure (String.ofList cs)

/-- A string over several lines with its quotes; an end of line right behind the opening ones does not count. -/
def longString (quote : Char) : Reader String := do
  string (String.ofList [quote, quote, quote])
  let _ ← newline?
  let cs ← bounded (longRest quote (quote = '"'))
  pure (String.ofList cs)

/-! ## Keys -/

/-- A key without dots: bare, or a string. -/
def simpleKey : Reader String := do
  match ← peek? with
  | some '"' | some '\'' => shortString
  | _ => do
    let cs ← takeWhile1 fun c => c.isAlphanum || c = '_' || c = '-'
    pure (String.ofList cs)

/-- The keys after the first of a dotted key. -/
def moreKeys : (bound : List Char) → Reader (List String)
  | [] => pure []
  | _ :: bound => do
    blanks
    if ← skip? "." then
      blanks
      let key ← simpleKey
      let rest ← moreKeys bound
      pure (key :: rest)
    else pure []

/-- The most keys in a dotted key, and of levels of arrays and tables within each other, plus one. -/
def depthLimit : Nat := 80

/-- A dotted key: the path to its table, and the key there. -/
def dottedKey : Reader (List String × String) := do
  blanks
  let first ← simpleKey
  let rest ← bounded moreKeys
  let keys := first :: rest
  match keys.getLast? with
  | some key => if keys.length < depthLimit then pure (keys.dropLast, key) else refuse
  | none => refuse

end Toml

end Lookback
