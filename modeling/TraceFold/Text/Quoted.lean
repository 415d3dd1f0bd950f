import TraceFold.Text.Digits
import TraceFold.Text.Unprintable

/-!
# Quoted texts

How a text is shown inside a message: between double quotes, with escapes for everything that
would end the quotes early, break the line or stay invisible.  Every other character stands for
itself.  What consists of several entries is shown between braces.
-/

namespace TraceFold.Text

/-- A character as it is shown between double quotes. -/
def quotedChar (c : Char) : List Char :=
  match c with
  | '\x00' => ['\\', '0']
  | '\t' => ['\\', 't']
  | '\r' => ['\\', 'r']
  | '\n' => ['\\', 'n']
  | '\\' => ['\\', '\\']
  | '"' => ['\\', '"']
  | c =>
    if isPrintable c && !isExtending c then [c]
    else '\\' :: 'u' :: '{' :: hexOfNat c.toNat ++ ['}']

/-- A text between double quotes. -/
def quoted (text : String) : String :=
  String.ofList ('"' :: text.toList.flatMap quotedChar ++ ['"'])

/-- A text between braces. -/
def braced (text : String) : String :=
  String.ofList ('{' :: text.toList ++ ['}'])

end TraceFold.Text
