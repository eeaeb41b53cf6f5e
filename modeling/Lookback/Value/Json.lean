import Lookback.Value.Basic
import Lookback.Text.Reader

/-!
# JSON

`Json.read?` reads a JSON text strictly: one value, blanks around it, no comments, no commas at the end. Of two entries
with one key the later one counts. Values may nest 127 deep.

An integer is read exactly if it fits 64 bits, with a sign or without. Every other number is a double: a number with a
point or an exponent, one too large, and `-0`. Its digits are gathered in a 64-bit word as long as they fit and then
scaled by a power of ten, so it is rounded at most twice. A number beyond all doubles is refused.

`Json.write` writes a value on one line. Doubles keep a point or an exponent, so reading tells them from integers.
-/

namespace Lookback

namespace Json

open Reader

/-- Passes over blanks. -/
def blanks : Reader Unit := do
  let _ ← takeWhile fun c => c = ' ' || c = '\n' || c = '\r' || c = '\t'

/-! ## Strings -/

/-- The number four hexadecimal digits write. -/
def hex4 : Reader Nat := do
  let a ← next
  let b ← next
  let c ← next
  let d ← next
  match Integer.ofDigits? 16 0 [a, b, c, d] with
  | some n => pure n
  | none => refuse

/-- The character behind `\u`: a pair of surrogates stands for one character, and a lone one for none. -/
def unicodeEscape : Reader Char := do
  let high ← hex4
  if 0xD800 ≤ high ∧ high < 0xDC00 then
    string "\\u"
    let low ← hex4
    if 0xDC00 ≤ low ∧ low < 0xE000 then
      pure (Char.ofNat (0x10000 + (high - 0xD800) * 0x400 + (low - 0xDC00)))
    else refuse
  else if 0xDC00 ≤ high ∧ high < 0xE000 then refuse
  else pure (Char.ofNat high)

/-- The character an escape stands for. -/
def escape : Reader Char := do
  match ← next with
  | '"' => pure '"'
  | '\\' => pure '\\'
  | '/' => pure '/'
  | 'b' => pure '\x08'
  | 'f' => pure '\x0c'
  | 'n' => pure '\n'
  | 'r' => pure '\r'
  | 't' => pure '\t'
  | 'u' => unicodeEscape
  | _ => refuse

/-- The characters of a string up to its closing quote. -/
def stringRest : (bound : List Char) → Reader (List Char)
  | [] => refuse
  | _ :: bound => do
    match ← next with
    | '"' => pure []
    | '\\' => do
      let c ← escape
      let rest ← stringRest bound
      pure (c :: rest)
    | c =>
      if c < ' ' then refuse
      else do
        let rest ← stringRest bound
        pure (c :: rest)

/-- A string with its quotes. -/
def quoted : Reader String := do
  char '"'
  let cs ← bounded stringRest
  pure (String.ofList cs)

/-! ## Numbers -/

/-- The digits of a number as far as they fit a 64-bit word, with the power of ten they are to be scaled by. -/
structure Scaled where
  significand : Nat
  exponent : Int

/-- Whether one more digit fits behind a significand. -/
def Scaled.fits (n : Scaled) (digit : Nat) : Bool := n.significand * 10 + digit ≤ lastWord

/-- Adds digits before the point: one that no longer fits scales the number instead, and so do all after it. -/
def Scaled.addWhole (n : Scaled) : List Nat → Scaled
  | [] => n
  | d :: rest =>
    if n.fits d then addWhole { n with significand := n.significand * 10 + d } rest
    else { n with exponent := n.exponent + (rest.length + 1 : Nat) }

/-- Adds digits after the point, up to the first one that no longer fits. -/
def Scaled.addFraction (n : Scaled) : List Nat → Scaled
  | [] => n
  | d :: rest =>
    if n.fits d then addFraction ⟨n.significand * 10 + d, n.exponent - 1⟩ rest else n

/-- Divides a double by `10 ^ (308 * rounds + last)`, in steps of at most `10 ^ 308`. -/
def divideStepwise (last : Nat) : (rounds : Nat) → Float → Float
  | 0, x => x / Double.ofDecimal ⟨1, last⟩
  | rounds + 1, x => if x == 0 then x else divideStepwise last rounds (x / Double.ofDecimal ⟨1, 308⟩)

/-- The double that a scaled number stands for, if it is finite. -/
def Scaled.toDouble? (n : Scaled) : Option Float :=
  let x := Double.ofInt n.significand
  if n.exponent < 0 then
    let size := n.exponent.natAbs
    if size ≤ 308 then some (divideStepwise size 0 x)
    else some (divideStepwise ((size - 309) % 308 + 1) ((size - 309) / 308 + 1) x)
  else if n.exponent ≤ 308 then
    let y := x * Double.ofDecimal ⟨1, n.exponent⟩
    if y.isInf then none else some y
  else if x == 0 then some x
  else none

/-- A stretch of decimal digits, at least one. -/
def digits1 : Reader (List Nat) := do
  let cs ← takeWhile1 Char.isDigit
  pure (cs.filterMap Integer.digit?)

/-- The number that decimal digits write. -/
def ofDigits (digits : List Nat) : Nat := digits.foldl (fun n d => 10 * n + d) 0

/-- The digits before the point: no zero in front of others. -/
def wholeDigits : Reader (List Nat) := do
  match ← digits1 with
  | 0 :: _ :: _ => refuse
  | ds => pure ds

/-- The digits behind a point, if there is one. -/
def fraction? : Reader (Option (List Nat)) := do
  if ← skip? "." then some <$> digits1 else pure none

/-- The exponent, if there is one. -/
def exponent? : Reader (Option Int) := do
  match ← peek? with
  | some 'e' | some 'E' => do
    let _ ← next
    let negative ← skip? "-"
    if !negative then
      let _ ← skip? "+"
    let ds ← digits1
    let size := ofDigits ds
    pure (some (if negative then -(size : Int) else size))
  | _ => pure none

/-- The value of an integer text: exact if it fits 64 bits and is not a negative zero. -/
def integerValue? (negative : Bool) (n : Nat) : Option Value :=
  if negative then
    if 0 < n ∧ n ≤ lastSigned + 1 then some (.integer (-n)) else none
  else if n ≤ lastWord then some (.integer n)
  else none

/-- A number. -/
def number : Reader Value := do
  let negative ← skip? "-"
  let whole ← wholeDigits
  let fraction ← fraction?
  let exponent ← exponent?
  let exact :=
    if fraction.isNone && exponent.isNone then integerValue? negative (ofDigits whole) else none
  match exact with
  | some v => pure v
  | none =>
    let scaled := ((⟨0, 0⟩ : Scaled).addWhole whole).addFraction (fraction.getD [])
    match ({ scaled with exponent := scaled.exponent + exponent.getD 0 } : Scaled).toDouble? with
    | some x => pure (.double (if negative then -x else x))
    | none => refuse

/-! ## Values -/

/-- Items with commas between them, up to the closing bracket, which is taken; there is at least one item. -/
def items {α : Type} (close : Char) (item : Reader α) : (bound : List Char) → Reader (List α)
  | [] => refuse
  | _ :: bound => do
    blanks
    let x ← item
    blanks
    let c ← next
    if c = ',' then do
      let rest ← items close item bound
      pure (x :: rest)
    else if c = close then pure [x]
    else refuse

/-- What stands between brackets: nothing but blanks, or items. -/
def bracketed {α : Type} (close : Char) (item : Reader α) : Reader (List α) := do
  blanks
  if (← peek?) = some close then do
    let _ ← next
    pure []
  else bounded (items close item)

/-- An entry of a table. -/
def entry (value : Reader Value) : Reader (String × Value) := do
  let key ← quoted
  blanks
  char ':'
  blanks
  let v ← value
  pure (key, v)

/-- A value; arrays and tables in it may nest less than `depth` deep. -/
def value : (depth : Nat) → Reader Value
  | 0 => refuse
  | depth + 1 => do
    match ← peek? with
    | some 'n' => do
      string "null"
      pure .null
    | some 't' => do
      string "true"
      pure (.bool true)
    | some 'f' => do
      string "false"
      pure (.bool false)
    | some '"' => do
      let s ← quoted
      pure (.text s)
    | some '[' =>
      if depth = 0 then refuse
      else do
        let _ ← next
        let xs ← bracketed ']' (value depth)
        pure (.array xs)
    | some '\x7b' =>
      if depth = 0 then refuse
      else do
        let _ ← next
        let es ← bracketed '\x7d' (entry (value depth))
        pure (.table (Entries.ofList es))
    | _ => number

/-- The most levels of arrays and tables within each other, plus one. -/
def depthLimit : Nat := 128

/-- Reads a JSON text. -/
def read? (text : String) : Option Value :=
  run? (do blanks; let v ← value depthLimit; blanks; pure v) text

/-! ## Writing -/

/-- A character as it stands in a string. -/
def escaped (c : Char) : List Char :=
  if c = '"' then ['\\', '"']
  else if c = '\\' then ['\\', '\\']
  else if c = '\n' then ['\\', 'n']
  else if c = '\r' then ['\\', 'r']
  else if c = '\t' then ['\\', 't']
  else if c = '\x08' then ['\\', 'b']
  else if c = '\x0c' then ['\\', 'f']
  else if c < ' ' then
    let hex := Nat.toDigits 16 c.toNat
    '\\' :: 'u' :: List.replicate (4 - hex.length) '0' ++ hex
  else [c]

/-- A string with its quotes. -/
def writeText (s : String) : String :=
  String.ofList ('"' :: s.toList.flatMap escaped ++ ['"'])

mutual

/-- A value on one line. -/
def write : Value → String
  | .null => "null"
  | .bool true => "true"
  | .bool false => "false"
  | .integer n => toString n
  | .double x => Layout.json.text x
  | .text s => writeText s
  | .array items => "[" ++ ",".intercalate (writeItems items) ++ "]"
  | .table entries => "\x7b" ++ ",".intercalate (writeEntries entries) ++ "\x7d"

/-- The items of an array. -/
def writeItems : List Value → List String
  | [] => []
  | v :: rest => write v :: writeItems rest

/-- The entries of a table. -/
def writeEntries : List (String × Value) → List String
  | [] => []
  | (k, v) :: rest => (writeText k ++ ":" ++ write v) :: writeEntries rest

end

end Json

end Lookback
