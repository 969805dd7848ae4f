/-!
# Documents

JSON as it is written out: on one line, without blanks, the members of an object in the order in
which they are given.  In a string, quotes, backslashes and control characters are escaped, the
latter by a letter where JSON has one and otherwise by code; all other characters stand for
themselves.
-/

namespace SchemaValidation

namespace Text

/-- A digit to base sixteen. -/
def hexDigit (n : Nat) : Char := Nat.digitChar n

/-- A character as it stands in a JSON string. -/
def escape (c : Char) : List Char :=
  if c = '"' then ['\\', '"']
  else if c = '\\' then ['\\', '\\']
  else if c = '\x08' then ['\\', 'b']
  else if c = '\x0c' then ['\\', 'f']
  else if c = '\n' then ['\\', 'n']
  else if c = '\r' then ['\\', 'r']
  else if c = '\t' then ['\\', 't']
  else if c.toNat < 0x20 then
    ['\\', 'u', '0', '0', hexDigit (c.toNat / 16), hexDigit (c.toNat % 16)]
  else [c]

/-- A JSON string, with its quotes. -/
def quoted (s : String) : List Char := '"' :: s.toList.flatMap escape ++ ['"']

end Text

/-- A JSON value to be written out. -/
inductive Document where
  | text (s : String)
  | count (n : Nat)
  | flag (b : Bool)
  | array (items : List Document)
  | object (members : List (String × Document))

namespace Document

mutual

def chars : Document → List Char
  | .text s => Text.quoted s
  | .count n => Nat.toDigits 10 n
  | .flag b => (if b then "true" else "false").toList
  | .array items => '[' :: charsOfItems items ++ [']']
  | .object members => '\x7b' :: charsOfMembers members ++ ['\x7d']
termination_by structural d => d

def charsOfItems : List Document → List Char
  | [] => []
  | [item] => item.chars
  | item :: items => item.chars ++ ',' :: charsOfItems items
termination_by structural items => items

def charsOfMembers : List (String × Document) → List Char
  | [] => []
  | [(name, d)] => Text.quoted name ++ ':' :: d.chars
  | (name, d) :: members => Text.quoted name ++ ':' :: d.chars ++ ',' :: charsOfMembers members
termination_by structural members => members

end

/-- The document on a line of its own. -/
def line (d : Document) : String := .ofList (d.chars ++ ['\n'])

end Document

end SchemaValidation
