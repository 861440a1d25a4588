import CivilTime.Bytes
import CivilTime.Text.Digits
import CivilTime.Text.Quoted

/-!
# Flaws of zone files

What can be wrong with the content of a zone file: a part that the format asks for
is missing or cut off (`FileFlaw`), or the text with the rule for the years to come
cannot be read (`RuleFlaw`).
-/

namespace CivilTime.Zone

/-- The part of a rule for the years to come that cannot be read. -/
inductive RuleFlaw where
  | standardName | standardOffset | daylightName | daylightOffset
  /-- There is no comma where a day of change should come. -/
  | noChange
  | change
  /-- The text goes on after the second day. -/
  | surplus
  deriving DecidableEq, Repr

/-- What such a flaw is reported as, with the text of the rule to follow. -/
def RuleFlaw.message : RuleFlaw → String
  | standardName => "Invalid STD format in "
  | standardOffset => "Invalid STD offset in "
  | daylightName => "Invalid DST format in "
  | daylightOffset => "Invalid DST offset in "
  | noChange => "Missing transition rules in TZ string: "
  | change => "Malformed transition rule in TZ string: "
  | surplus => "Extraneous characters at end of TZ string: "

/-- What is wrong with a zone file. -/
inductive FileFlaw where
  /-- A header does not start as it should. -/
  | magic
  /-- The mark for the version is no digit. -/
  | version (mark : Bytes)
  /-- The file breaks off within a part of this length. -/
  | cutOff (length : Nat)
  /-- A transition goes over to a type that is not there, given by its number. -/
  | typeNumber (number : Nat)
  /-- There is neither a type nor a rule. -/
  | noOffset
  /-- Something else stands where the line with the rule should start. -/
  | lineStart (found : Bytes)
  /-- The line with the rule does not end. -/
  | lineEnd
  | rule (flaw : RuleFlaw) (line : Bytes)
  deriving DecidableEq, Repr

/-- What a flaw is reported as. -/
def FileFlaw.message : FileFlaw → String
  | magic => "Invalid TZif file: magic not found"
  | version mark => "invalid literal for int() with base 10: " ++ Text.quoteBytes mark
  | cutOff length =>
    "unpack requires a buffer of " ++ String.ofList (Text.digits length) ++ " bytes"
  | typeNumber number =>
    "Invalid transition index found while reading TZif: " ++ String.ofList (Text.digits number)
  | noOffset => "No time zone information found."
  | lineStart found => Text.quoteBytes found
  | lineEnd => "TZ string without an end"
  | rule flaw line => flaw.message ++ Text.quoteBytes line

end CivilTime.Zone
