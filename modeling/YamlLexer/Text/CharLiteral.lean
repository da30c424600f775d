import YamlLexer.Text.Shapeless

/-!
# Character literals

A character in a message stands between single quotes. What could not be told apart there is
escaped: the quote itself, the backslash, and characters that have no shape of their own.

Line feed, carriage return, tab and the null character have short escapes; whatever else has no
shape is written by its code point, in hexadecimal.
-/

namespace YamlLexer.Text

/-- The number in hexadecimal, lower case, without leading zeros. -/
def hexDigits (n : Nat) : String := String.ofList (Nat.toDigits 16 n)

/-- The character between single quotes, escaped where it has to be. -/
def charLiteral (c : Char) : String :=
  "'" ++ body ++ "'"
where
  /-- What stands between the quotes. -/
  body : String :=
    match c with
    | '\x00' => "\\0"
    | '\t' => "\\t"
    | '\r' => "\\r"
    | '\n' => "\\n"
    | '\x27' => "\\'"
    | '\\' => "\\\\"
    | _ => if isShapeless c then "\\u\x7b" ++ hexDigits c.toNat ++ "\x7d" else c.toString

end YamlLexer.Text
