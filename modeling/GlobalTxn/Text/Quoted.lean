import GlobalTxn.Text.Printable
import GlobalTxn.Text.GraphemeExtend

/-! # Quoted text

`quote` writes a string between double quotes so that every character can be seen, and
`quoteChar` a character between single quotes:

* NUL, tab, carriage return and line feed become `\0`, `\t`, `\r`, `\n`;
* a backslash and the quote of the kind around get a backslash before them;
* a grapheme extender, or a character that is not printable, becomes `\u{hex}` with its code
  point in lowercase hexadecimal;
* every other character stands for itself.

Main statement: `quote_of_plain`, text without such characters is only wrapped in quotes.
-/

namespace GlobalTxn.Text

/-- Lowercase hexadecimal digits of a number, without leading zeros. -/
def hexDigits (n : Nat) : List Char :=
  (Nat.toDigits 16 n)

/-- The written form of one character between quotes `q`: the quote itself gets a backslash,
the other quote stands for itself. -/
def escapeBetween (q c : Char) : List Char :=
  if c = '\x00' then ['\\', '0']
  else if c = '\t' then ['\\', 't']
  else if c = '\r' then ['\\', 'r']
  else if c = '\n' then ['\\', 'n']
  else if c = '\\' then ['\\', '\\']
  else if c = q then ['\\', q]
  else if isGraphemeExtend c || !isPrintable c then
    ['\\', 'u', '\x7b'] ++ hexDigits c.toNat ++ ['\x7d']
  else [c]

/-- The written form of one character inside double quotes. -/
def escapeChar (c : Char) : List Char := escapeBetween '"' c

/-- Whether a character stands for itself inside quotes. -/
def isPlain (c : Char) : Bool := escapeChar c == [c]

/-- A string between double quotes, with every character that could not be seen escaped. -/
def quote (s : String) : String :=
  String.ofList ('"' :: s.toList.flatMap escapeChar ++ ['"'])

/-- A character between single quotes, escaped as in a string, except that the single quote
gets the backslash instead of the double one. -/
def quoteChar (c : Char) : String :=
  String.ofList ('\x27' :: escapeBetween '\x27' c ++ ['\x27'])

example : [quoteChar 'é', quoteChar '\x27', quoteChar '"', quoteChar '\u0301'] =
    ["\x27é\x27", "\x27\\\x27\x27", "\x27\"\x27", "\x27\\u\x7b301\x7d\x27"] := by
  decide +kernel

theorem flatMap_escapeChar_of_plain (cs : List Char) (h : ∀ c ∈ cs, isPlain c = true) :
    cs.flatMap escapeChar = cs := by
  induction cs with
  | nil => rfl
  | cons c cs ih =>
    have hc : escapeChar c = [c] := by simpa [isPlain] using h c (List.mem_cons_self ..)
    rw [List.flatMap_cons, hc, ih (fun d hd => h d (List.mem_cons_of_mem _ hd))]
    rfl

theorem quote_of_plain (s : String) (h : ∀ c ∈ s.toList, isPlain c = true) :
    quote s = String.ofList ('"' :: s.toList ++ ['"']) := by
  rw [quote, flatMap_escapeChar_of_plain _ h]

end GlobalTxn.Text
