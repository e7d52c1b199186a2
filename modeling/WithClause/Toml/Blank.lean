/-
**What stands between the tokens of a TOML document.**

Blanks are spaces and tabs. A line ends with a line feed, with or without a carriage return before
it. A comment runs to the end of its line and holds no control character but the tab.
-/

import WithClause.Text.Scan

namespace WithClause.Toml

/-- Whether a character is a space or a tab. -/
def isBlank (letter : Char) : Bool := letter == ' ' || letter == '\t'

/-- Whether a character may stand in a comment. -/
def isCommentLetter (letter : Char) : Bool :=
  letter == '\t' || (0x20 ≤ letter.toNat && letter.toNat != 0x7F)

def skipBlanks : Scan Unit := Scan.skipWhile isBlank

def newline : Scan Unit :=
  Scan.orElse (Scan.letter '\n') (Scan.word ['\r', '\n'])

/-- The end of a line, or of the text. -/
def lineEnd : Scan Unit := Scan.orElse newline Scan.finish

def comment : Scan Unit := do
  Scan.letter '#'
  Scan.skipWhile isCommentLetter

/-- What may follow on a line: blanks, a comment, and the end of the line. -/
def lineRest : Scan Unit := do
  skipBlanks
  let _ ← Scan.optional comment
  lineEnd

/-- Passes over blanks, ends of lines and comments. -/
def skipLines : Scan Unit := do
  skipBlanks
  let _ ← Scan.many (do
    Scan.orElse newline (do comment; newline)
    skipBlanks)

end WithClause.Toml
