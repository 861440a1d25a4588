/-!
# Reading from the front of a text

A reader takes a list of characters and gives what it found together with the
rest of the list, or `none`. Each reader takes the longest possible piece. In
the formats of this library the next piece never starts with a character that
the piece before it could have taken, so nothing is lost by never giving a
character back. Only `takeFewDigits?` stops by count.
-/

namespace CivilTime.Text

/-- White space: the space and the five ASCII controls from tab to carriage return. -/
def isBlank (c : Char) : Bool := c = ' ' || ('\t' ≤ c && c ≤ '\r')

/-- The text without the white space at its front. -/
def skipBlank (cs : List Char) : List Char := cs.dropWhile isBlank

/-- The rest of the text after the character `c`, which has to be its first. -/
def expect? (c : Char) : List Char → Option (List Char)
  | d :: rest => if d = c then some rest else none
  | [] => none

/-- The digits of the first number in the text. -/
def firstNumber (cs : List Char) : List Char :=
  (cs.dropWhile fun c => !c.isDigit).takeWhile Char.isDigit

/-- Numbers with more digits than this are not read, leading zeros included. -/
def mostDigits : Nat := 4300

/-- The digits at the front of the text, at least one of them. -/
def takeDigits? (cs : List Char) : Option (List Char × List Char) :=
  if cs.takeWhile Char.isDigit = [] then none
  else some (cs.takeWhile Char.isDigit, cs.dropWhile Char.isDigit)

/-- Like `takeDigits?`, but refuses more than `most` digits. -/
def takeDigitsUpTo? (most : Nat) (cs : List Char) : Option (List Char × List Char) :=
  (takeDigits? cs).filter fun (ds, _) => ds.length ≤ most

/-- The digits at the front of the text, but at most `most` of them, and at least one.
More digits can follow. -/
def takeFewDigits? (most : Nat) (cs : List Char) : Option (List Char × List Char) :=
  (takeDigits? (cs.take most)).map fun (ds, _) => (ds, cs.drop ds.length)

/-- A point and the digits after it, or nothing if the text does not go on with
a point. A point needs at least one digit after it. -/
def takeFraction? : List Char → Option (List Char × List Char)
  | '.' :: rest => takeDigits? rest
  | cs => some ([], cs)

end CivilTime.Text
