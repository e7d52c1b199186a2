/-
**TOML strings.**

A string is basic, with escapes, or literal, without; either can run over several lines between
threefold quotes. A line break right after the opening quotes does not count, a line break with a
carriage return counts as a line feed, and a backslash at the end of a line swallows the blanks and
breaks after it. One or two quotes may stand inside a string of several lines, also before the
closing ones.
-/

import WithClause.Toml.Blank

namespace WithClause.Toml

/-- Whether a character stands for itself in a basic string. -/
def isBasicLetter (letter : Char) : Bool :=
  letter == '\t' || (0x20 ≤ letter.toNat && letter != '"' && letter != '\\' && letter.toNat != 0x7F)

/-- Whether a character may stand in a literal string. -/
def isLiteralLetter (letter : Char) : Bool :=
  letter == '\t' || (0x20 ≤ letter.toNat && letter != '\'' && letter.toNat != 0x7F)

/-- A character by its code in a fixed number of digits to the base sixteen. -/
def codeOfLength (count : Nat) : Scan Char := do
  let digits ← Scan.exactly count Text.isHexDigit
  Scan.demand (Text.letterOfCode? (Text.valueInBase 16 digits))

/-- A backslash and what it makes of the letters after it. -/
def escape : Scan Char := do
  Scan.letter '\\'
  let kind ← Scan.satisfy fun _ => true
  match kind with
  | 'b' => return '\x08'
  | 'f' => return '\x0c'
  | 'n' => return '\n'
  | 'r' => return '\r'
  | 't' => return '\t'
  | '\\' => return '\\'
  | '"' => return '"'
  | 'u' => codeOfLength 4
  | 'U' => codeOfLength 8
  | _ => Scan.fail

/-- A part of a basic string on one line. -/
def basicPart : Scan (List Char) :=
  Scan.orElse (Scan.takeWhile1 isBasicLetter) (do return [← escape])

/-- A basic string on one line. -/
def basicText : Scan String := do
  Scan.letter '"'
  let parts ← Scan.many basicPart
  Scan.letter '"'
  return String.ofList parts.flatten

/-- A literal string on one line. -/
def literalText : Scan String := do
  Scan.letter '\''
  let letters ← Scan.takeWhile isLiteralLetter
  Scan.letter '\''
  return String.ofList letters

/-- A line break inside a string, which counts as a line feed. -/
def brokenLine : Scan (List Char) := do
  newline
  return ['\n']

/-- A backslash at the end of a line, with all blanks and line breaks after it. -/
def joinedLine : Scan (List Char) := do
  Scan.letter '\\'
  skipBlanks
  newline
  let _ ← Scan.many (Scan.orElse newline (do let _ ← Scan.satisfy isBlank))
  return []

/-- A part of a basic string of several lines, quotes apart. -/
def basicLinesPart : Scan (List Char) :=
  Scan.oneOf [Scan.takeWhile1 isBasicLetter, joinedLine, (do return [← escape]), brokenLine]

/-- A part of a literal string of several lines, quotes apart. -/
def literalLinesPart : Scan (List Char) :=
  Scan.orElse (Scan.takeWhile1 isLiteralLetter) brokenLine

/-- Two quotes or one, before something else. -/
def quotesBefore (quote : Char) (next : Scan Unit) : Scan (List Char) :=
  Scan.orElse
    (do Scan.word [quote, quote]; Scan.ahead next; return [quote, quote])
    (do Scan.letter quote; Scan.ahead next; return [quote])

/-- A string of several lines with a kind of quote and a kind of part. -/
def lines (quote : Char) (part : Scan (List Char)) : Scan String := do
  let delimiter := Scan.word [quote, quote, quote]
  delimiter
  let _ ← Scan.optional newline
  let opening ← Scan.many part
  let middle ← Scan.many (do
    let quotes ← quotesBefore quote (Scan.ahead part)
    let parts ← Scan.many1 part
    return quotes ++ parts.flatten)
  let closing ← Scan.optional (quotesBefore quote delimiter)
  delimiter
  return String.ofList (opening.flatten ++ middle.flatten ++ closing.getD [])

/-- Any string. -/
def anyText : Scan String :=
  Scan.oneOf [lines '"' basicLinesPart, basicText, lines '\'' literalLinesPart, literalText]

end WithClause.Toml
