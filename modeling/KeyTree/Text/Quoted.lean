import KeyTree.Numeral
import KeyTree.Text.Invisible
/-!
Texts quoted inside messages: the quote, the backslash and whatever cannot be seen are escaped.
-/

set_option autoImplicit false
set_option relaxedAutoImplicit false

namespace KeyTree.Text

/-- The lower-case hexadecimal digits of a code point, at least one. -/
def codePointDigits (v : Nat) : List Char :=
  if v = 0 then ['0']
  else (Numeral.digits 16 v).map fun d => Char.ofNat (if d < 10 then 48 + d else 87 + d)

/-- A character as it stands between two `quote` characters. -/
def escape (quote : Char) (c : Char) : List Char :=
  if c = '\x00' then ['\\', '0']
  else if c = '\t' then ['\\', 't']
  else if c = '\n' then ['\\', 'n']
  else if c = '\r' then ['\\', 'r']
  else if c = '\\' ∨ c = quote then ['\\', c]
  else if isInvisible c then '\\' :: 'u' :: '\x7b' :: codePointDigits c.toNat ++ ['\x7d']
  else [c]

def quote (s : String) : String :=
  String.ofList ('"' :: s.toList.flatMap (escape '"') ++ ['"'])

def quoteChar (c : Char) : String :=
  String.ofList ('\x27' :: escape '\x27' c ++ ['\x27'])

end KeyTree.Text
