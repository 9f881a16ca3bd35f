import CallAdmission.Text.Hidden

/-!
# CallAdmission.Text.Quoted

Quoted text for diagnostics: between double quotes, a quote and a backslash are escaped, the
commonest controls have a letter, and every other hidden character is written by its number, as
`\u{200b}` for U+200B.
-/

namespace CallAdmission.Text

/-- The lower-case hexadecimal digits of a number, without leading zeros. -/
def hex (n : Nat) : String := String.ofList (Nat.toDigits 16 n)

/-- How a character stands inside quotes. -/
def quoteChar (c : Char) : String :=
  match c with
  | '\x00' => "\\0"
  | '\t' => "\\t"
  | '\r' => "\\r"
  | '\n' => "\\n"
  | '\\' => "\\\\"
  | '"' => "\\\""
  | c => if isHidden c then "\\u\x7b" ++ hex c.toNat ++ "\x7d" else c.toString

/-- A text between double quotes. -/
def quote (s : String) : String :=
  "\"" ++ String.join (s.toList.map quoteChar) ++ "\""

end CallAdmission.Text
