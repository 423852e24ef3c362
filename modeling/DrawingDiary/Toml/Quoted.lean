import DrawingDiary.Toml.Number

/-!
# Quoted texts of a settings file

A text in double quotes may hold escapes, a text in single quotes stands for
itself. Either may be written in three quotes over several lines; its line ends
are then read as a line feed each, the one right after the opening is left out,
and one or two quotes may stand right before the closing ones.
-/

namespace DrawingDiary.Toml

namespace Scan

/-- The character of a number, unless the number is a surrogate or too large. -/
def scalar? (digits : List Char) : Option Char :=
  let n := baseValue 16 digits
  if digits.all isHexDigit ∧ n.isValidChar then some (Char.ofNat n) else none

/-- The character that a backslash and a letter stand for. -/
def shortEscape? : Char → Option Char
  | 'b' => some '\x08'
  | 't' => some '\t'
  | 'n' => some '\n'
  | 'f' => some '\x0c'
  | 'r' => some '\r'
  | '"' => some '"'
  | '\\' => some '\\'
  | _ => none

/-- A character in front of what was read. -/
def before (c : Char) (read : Option (List Char × List Char)) : Option (List Char × List Char) :=
  read.map fun (text, left) => (c :: text, left)

def doubleQuotedRest : List Char → Option (List Char × List Char)
  | [] => none
  | '"' :: rest => some ([], rest)
  | '\\' :: 'u' :: a :: b :: c :: d :: rest =>
    (scalar? [a, b, c, d]).bind fun x => before x (doubleQuotedRest rest)
  | '\\' :: 'U' :: a :: b :: c :: d :: e :: f :: g :: h :: rest =>
    (scalar? [a, b, c, d, e, f, g, h]).bind fun x => before x (doubleQuotedRest rest)
  | '\\' :: c :: rest => (shortEscape? c).bind fun x => before x (doubleQuotedRest rest)
  | c :: rest => if isPlain c then before c (doubleQuotedRest rest) else none

def singleQuotedRest : List Char → Option (List Char × List Char)
  | [] => none
  | c :: rest =>
    if c = '\'' then some ([], rest)
    else if isPlain c then before c (singleQuotedRest rest)
    else none

/-- The one or two quotes that may stand right before the closing ones, where
three quotes have been read. -/
def quotesAtEnd (quote : Char) : List Char → List Char × List Char
  | a :: b :: rest =>
    if a = quote then
      if b = quote then ([quote, quote], rest) else ([quote], b :: rest)
    else ([], a :: b :: rest)
  | [a] => if a = quote then ([quote], []) else ([], [a])
  | [] => ([], [])

/-- Whether the rest of a line is blank, so that a backslash before it joins the
lines. -/
def isLineEnd (s : List Char) : Bool :=
  match s.dropWhile isBlank with
  | '\n' :: _ => true
  | '\r' :: '\n' :: _ => true
  | _ => false

/-- Reads the rest of a text in three double quotes. After a backslash at the
end of a line all blanks and line ends are skipped. -/
def doubleQuotedLines (skipping : Bool) : List Char → Option (List Char × List Char)
  | [] => none
  | '"' :: '"' :: '"' :: rest => some (quotesAtEnd '"' rest)
  | '\r' :: '\n' :: rest =>
    if skipping then doubleQuotedLines true rest else before '\n' (doubleQuotedLines false rest)
  | '\n' :: rest =>
    if skipping then doubleQuotedLines true rest else before '\n' (doubleQuotedLines false rest)
  | '\\' :: 'u' :: a :: b :: c :: d :: rest =>
    (scalar? [a, b, c, d]).bind fun x => before x (doubleQuotedLines false rest)
  | '\\' :: 'U' :: a :: b :: c :: d :: e :: f :: g :: h :: rest =>
    (scalar? [a, b, c, d, e, f, g, h]).bind fun x => before x (doubleQuotedLines false rest)
  | '\\' :: c :: rest =>
    if isLineEnd (c :: rest) then doubleQuotedLines true (c :: rest)
    else (shortEscape? c).bind fun x => before x (doubleQuotedLines false rest)
  | c :: rest =>
    if skipping && isBlank c then doubleQuotedLines true rest
    else if isPlain c then before c (doubleQuotedLines false rest)
    else none

/-- Reads the rest of a text in three single quotes. -/
def singleQuotedLines : List Char → Option (List Char × List Char)
  | [] => none
  | '\'' :: '\'' :: '\'' :: rest => some (quotesAtEnd '\'' rest)
  | '\r' :: '\n' :: rest => before '\n' (singleQuotedLines rest)
  | c :: rest =>
    if c = '\n' || isPlain c then before c (singleQuotedLines rest) else none

def quotedInLine : Scan String :=
  (do exactly ['"']; String.ofList <$> (doubleQuotedRest : Scan (List Char))) <|>
  (do exactly ['\'']; String.ofList <$> (singleQuotedRest : Scan (List Char)))

def quoted : Scan String := do
  if ← startsWith ['"', '"', '"'] then
    exactly ['"', '"', '"']
    discard (attempt? newline)
    String.ofList <$> (doubleQuotedLines false : Scan (List Char))
  else if ← startsWith ['\'', '\'', '\''] then
    exactly ['\'', '\'', '\'']
    discard (attempt? newline)
    String.ofList <$> (singleQuotedLines : Scan (List Char))
  else quotedInLine

end Scan

end DrawingDiary.Toml
