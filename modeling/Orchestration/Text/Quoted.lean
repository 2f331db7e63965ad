import Orchestration.Text.Printable

/-! Texts between double quotes, in a form that shows every character: the quote, the
backslash, line feeds, returns, tabs and zeros by a letter after a backslash, other
characters without a visible form by their code point. -/
namespace Orchestration.Text

def escape (c : Char) : List Char :=
  match c with
  | '"' => ['\\', '"']
  | '\\' => ['\\', '\\']
  | '\n' => ['\\', 'n']
  | '\r' => ['\\', 'r']
  | '\t' => ['\\', 't']
  | '\x00' => ['\\', '0']
  | c =>
    if isPrintable c then [c]
    else ['\\', 'u', '{'] ++ Nat.toDigits 16 c.toNat ++ ['}']

def quoted (s : String) : String :=
  String.ofList ('"' :: (s.toList.flatMap escape ++ ['"']))

end Orchestration.Text
