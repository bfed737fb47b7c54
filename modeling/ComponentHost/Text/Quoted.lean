import ComponentHost.Text.Unprintable

/-! # Quoted texts

  A text in double quotes, as messages show names and values: quotes, backslashes and the common
  control characters are written with a backslash, every other unprintable character by its number
  in braces, and the rest as it is.
-/

namespace ComponentHost.Text

/-- A character by its number: `\u` and the lower-case hexadecimal digits in braces. -/
def byNumber (c : Char) : List Char :=
  ['\\', 'u', '\x7b'] ++ Nat.toDigits 16 c.toNat ++ ['\x7d']

def quoteChar (c : Char) : List Char :=
  if c = '"' then ['\\', '"']
  else if c = '\\' then ['\\', '\\']
  else if c = '\n' then ['\\', 'n']
  else if c = '\r' then ['\\', 'r']
  else if c = '\t' then ['\\', 't']
  else if c = '\x00' then ['\\', '0']
  else if isUnprintable c then byNumber c
  else [c]

def quoted (s : String) : String :=
  String.ofList ('"' :: s.toList.flatMap quoteChar ++ ['"'])

/-- A list of texts, each already in its shown form. -/
def listed (items : List String) : String :=
  "[" ++ String.intercalate ", " items ++ "]"

def quotedList (items : List String) : String := listed (items.map quoted)

/-- A part that may be missing, in its shown form. -/
def optional : Option String → String
  | none => "None"
  | some s => "Some(" ++ s ++ ")"

end ComponentHost.Text
