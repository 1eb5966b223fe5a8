import Formula.Text.Invisible

/-!
# Outlines

An outline shows the structure of a value: records with named fields, tagged items, lists. It is
written on one line, or with one item on each line and indented. A text in it stands between double
quotes: quotes and backslashes are escaped, the usual controls have a letter, and the other
invisible characters are shown by their code in hexadecimal digits.
-/

namespace Formula

namespace Text

def escape (c : Char) : String :=
  match c with
  | '\x00' => "\\0"
  | '\t' => "\\t"
  | '\r' => "\\r"
  | '\n' => "\\n"
  | '"' => "\\\""
  | '\\' => "\\\\"
  | c =>
    if isInvisible c then "\\u\x7b" ++ String.ofList (Nat.toDigits 16 c.toNat) ++ "\x7d"
    else String.singleton c

def quoted (text : String) : String :=
  "\"" ++ String.join (text.toList.map escape) ++ "\""

end Text

inductive Outline where
  | atom (text : String)
  | field (name : String) (value : Outline)
  /-- A record; two dots at its end tell that not all fields are shown. -/
  | record (name : String) (fields : List Outline) (complete : Bool)
  | tagged (name : String) (item : Outline)
  | list (items : List Outline)

namespace Outline

def text (s : String) : Outline :=
  atom (Text.quoted s)

def number (n : Nat) : Outline :=
  atom n.repr

mutual

/-- The outline on one line. -/
def line : Outline → String
  | atom text => text
  | field name value => name ++ ": " ++ value.line
  | record name fields complete =>
    let shown := lines fields ++ if complete then [] else [".."]
    name ++ " \x7b " ++ ", ".intercalate shown ++ " \x7d"
  | tagged name item => name ++ "(" ++ item.line ++ ")"
  | list items => "[" ++ ", ".intercalate (lines items) ++ "]"

def lines : List Outline → List String
  | [] => []
  | item :: items => item.line :: lines items

end

/-- The start of a line at a depth of indentation. -/
def indent (depth : Nat) : String :=
  "\n" ++ String.ofList (List.replicate (4 * depth) ' ')

mutual

/-- The outline with one item on each line, its first line at the current place and the others
indented to the depth. -/
def block (depth : Nat) : Outline → String
  | atom text => text
  | field name value => name ++ ": " ++ value.block depth
  | record name fields complete =>
    name ++ " \x7b" ++ blocks (depth + 1) fields ++
      (if complete then "" else indent (depth + 1) ++ "..") ++ indent depth ++ "\x7d"
  | tagged name item =>
    name ++ "(" ++ indent (depth + 1) ++ item.block (depth + 1) ++ "," ++ indent depth ++ ")"
  | list [] => "[]"
  | list items => "[" ++ blocks (depth + 1) items ++ indent depth ++ "]"

def blocks (depth : Nat) : List Outline → String
  | [] => ""
  | item :: items => indent depth ++ item.block depth ++ "," ++ blocks depth items

end

end Outline

end Formula
