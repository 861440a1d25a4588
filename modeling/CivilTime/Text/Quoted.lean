import CivilTime.Text.Unprintable

/-!
# Quoted texts

A text in a message stands in quotes, so that its ends, its white space and its
unprintable characters show. Single quotes are preferred; a text that holds a
single quote and no double quote is put into double quotes instead. Inside, the
quote in use and the backslash are escaped by a backslash, and a character
without a printed form is written by its code point in hexadecimal.
-/

namespace CivilTime.Text

/-- A hexadecimal digit in lower case, for `n` below sixteen. -/
def hexDigit (n : Nat) : Char := if n < 10 then Char.ofNat (48 + n) else Char.ofNat (87 + n)

/-- The last `width` hexadecimal digits of `n`. -/
def hexDigits : Nat → Nat → List Char
  | 0, _ => []
  | width + 1, n => hexDigits width (n / 16) ++ [hexDigit (n % 16)]

/-- The escape of a code point: two, four or eight hexadecimal digits, as few as will do. -/
def escapeCodePoint (n : Nat) : List Char :=
  if n ≤ 0xff then '\x5c' :: 'x' :: hexDigits 2 n
  else if n ≤ 0xffff then '\x5c' :: 'u' :: hexDigits 4 n
  else '\x5c' :: 'U' :: hexDigits 8 n

/-- One character as it stands between two `quote` characters. -/
def escapeChar (quote c : Char) : List Char :=
  if c = quote ∨ c = '\x5c' then ['\x5c', c]
  else if c = '\n' then ['\x5c', 'n']
  else if c = '\r' then ['\x5c', 'r']
  else if c = '\t' then ['\x5c', 't']
  else if isUnprintable c then escapeCodePoint c.toNat
  else [c]

/-- The quote for a text: double exactly if the text holds a single quote and no double one. -/
def quoteFor (cs : List Char) : Char :=
  if '\x27' ∈ cs ∧ '\x22' ∉ cs then '\x22' else '\x27'

/-- A list of characters in quotes. -/
def quoteChars (cs : List Char) : List Char :=
  quoteFor cs :: cs.flatMap (escapeChar (quoteFor cs)) ++ [quoteFor cs]

/-- A text in quotes. -/
def quote (s : String) : String := String.ofList (quoteChars s.toList)

/-- A string of bytes in quotes, with the mark `b` in front. A byte is shown as
the ASCII character that it encodes, or by its number. -/
def quoteBytes (bs : List UInt8) : String :=
  let cs := bs.map fun b => Char.ofNat b.toNat
  let escape (c : Char) : List Char :=
    if c.toNat < 0x80 then escapeChar (quoteFor cs) c else escapeCodePoint c.toNat
  String.ofList ('b' :: quoteFor cs :: cs.flatMap escape ++ [quoteFor cs])

end CivilTime.Text
