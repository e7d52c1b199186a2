/-
**JSON strings.**

`encode` writes a text between double quotes and escapes what has to be escaped and nothing more:
the quote, the backslash and the control characters below the space, the last with the short
escape where there is one. `scan` reads every JSON string; a surrogate is read only as half of a
pair.
-/

import WithClause.Text.Scan

namespace WithClause.Json

/-- The letters that stand for one letter inside a JSON string. -/
def escapeLetter (letter : Char) : List Char :=
  match letter with
  | '"' => ['\\', '"']
  | '\\' => ['\\', '\\']
  | '\n' => ['\\', 'n']
  | '\r' => ['\\', 'r']
  | '\t' => ['\\', 't']
  | _ =>
    if letter.toNat = 8 then ['\\', 'b']
    else if letter.toNat = 12 then ['\\', 'f']
    else if letter.toNat < 32 then
      ['\\', 'u', '0', '0', Nat.digitChar (letter.toNat / 16), Nat.digitChar (letter.toNat % 16)]
    else [letter]

/-- The letters of the JSON string of a text, quotes included. -/
def encodeLetters (letters : List Char) : List Char :=
  '"' :: letters.flatMap escapeLetter ++ ['"']

/-- The JSON string of a text. -/
def encode (text : String) : String := String.ofList (encodeLetters text.toList)

/-- Four digits to the base sixteen. -/
def scanUnit : Scan Nat := do
  let digits ← Scan.exactly 4 Text.isHexDigit
  return Text.valueInBase 16 digits

/-- A code after a backslash and a `u`: one unit, or two that are the halves of a pair. -/
def scanCode : Scan Char := do
  let first ← scanUnit
  if 0xD800 ≤ first ∧ first < 0xDC00 then
    Scan.word ['\\', 'u']
    let second ← scanUnit
    Scan.require (0xDC00 ≤ second && second < 0xE000)
    Scan.demand (Text.letterOfCode? (0x10000 + (first - 0xD800) * 0x400 + (second - 0xDC00)))
  else Scan.demand (Text.letterOfCode? first)

/-- What a backslash makes of the letter after it. -/
def scanEscape : Scan Char := do
  let kind ← Scan.satisfy fun _ => true
  match kind with
  | '"' => return '"'
  | '\\' => return '\\'
  | '/' => return '/'
  | 'b' => return '\x08'
  | 'f' => return '\x0c'
  | 'n' => return '\n'
  | 'r' => return '\r'
  | 't' => return '\t'
  | 'u' => scanCode
  | _ => Scan.fail

/-- One letter inside a JSON string, escaped or not. -/
def scanLetter : Scan Char := do
  let letter ← Scan.satisfy fun letter => letter != '"' && 32 ≤ letter.toNat
  if letter = '\\' then scanEscape else return letter

def scanString : Scan String := do
  Scan.letter '"'
  let letters ← Scan.many scanLetter
  Scan.letter '"'
  return String.ofList letters

end WithClause.Json
