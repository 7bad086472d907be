import DecisionTables.Text.Invisible

/-!
# Quoted text

A text in double quotes, on one line: quotes and backslashes stand behind a backslash, and so do the letters
for a tab, a line feed and a carriage return, and the digit for NUL. Another character that is not shown as it
is stands there by its code point, in lower-case hexadecimal digits between braces.
-/

namespace DecisionTables.Text

/-- The characters that stand for a character between quotes. -/
def quoteChar (c : Char) : List Char :=
  match c with
  | '"' => ['\\', '"']
  | '\\' => ['\\', '\\']
  | '\t' => ['\\', 't']
  | '\n' => ['\\', 'n']
  | '\r' => ['\\', 'r']
  | '\x00' => ['\\', '0']
  | c =>
    if isInvisible c then '\\' :: 'u' :: '\x7b' :: Nat.toDigits 16 c.toNat ++ ['\x7d'] else [c]

/-- A text between quotes. -/
def quote (s : String) : String :=
  String.ofList ('"' :: s.toList.flatMap quoteChar ++ ['"'])

/-- A list of texts between quotes, in brackets. -/
def quoteList (texts : List String) : String :=
  "[" ++ ", ".intercalate (texts.map quote) ++ "]"

end DecisionTables.Text
