import CivilTime.Text.Quoted
import CivilTime.Text.Digits
import CivilTime.Text.Reader
import CivilTime.Text.Split
import CivilTime.Zone.Flaw

/-!
# What can go wrong

A failing operation says why as a `Fault`. The cause is data; its wording is made
in one place, `Fault.message`. Faults fall into groups: a value or a result is
outside the supported range (`Limit`), an argument breaks a rule of structure
(`Rule`), an argument has the wrong kind (`Mismatch`), a result is too large for its
kind (`Excess`), or a zone file cannot be read (`Zone.FileFlaw`). The rest stand
alone.
-/

namespace CivilTime

/-- The bounds of signed and unsigned words. -/
def minI32 : Int := -2147483648

@[inherit_doc minI32] def maxI32 : Int := 2147483647

@[inherit_doc minI32] def minI64 : Int := -9223372036854775808

@[inherit_doc minI32] def maxI64 : Int := 9223372036854775807

@[inherit_doc minI32] def maxU8 : Int := 255

@[inherit_doc minI32] def maxU32 : Int := 4294967295

@[inherit_doc minI32] def maxU64 : Int := 18446744073709551615

/-- The kinds of value that operations take and give. -/
inductive Kind where
  | nothing | truth | integer | real | text | bytes | list | tuple
  | delta | span | offset | months | days | date | time | localDateTime | offsetDateTime | zone
  | microDelta | microDate | microTime | microDateTime
  deriving DecidableEq, Repr

/-- The name of a kind among the operands of an operator. -/
def Kind.name : Kind → String
  | nothing => "NoneType"
  | truth => "bool"
  | integer => "int"
  | real => "float"
  | text => "str"
  | bytes => "bytes"
  | list => "list"
  | tuple => "tuple"
  | delta => "TimeDelta"
  | span => "CalendarDuration"
  | offset => "FixedOffset"
  | months => "Months"
  | days => "Days"
  | date => "NaiveDate"
  | time => "NaiveTime"
  | localDateTime => "NaiveDateTime"
  | offsetDateTime => "DateTime"
  | zone => "zoneinfo.ZoneInfo"
  | microDelta => "datetime.timedelta"
  | microDate => "datetime.date"
  | microTime => "datetime.time"
  | microDateTime => "datetime.datetime"

/-- Whether values of a kind are sequences, which can be joined and repeated. -/
def Kind.isSequence : Kind → Bool
  | text | bytes | list | tuple => true
  | _ => false

/-- Whether a kind is one of this library's own, unlike numbers, texts and the
values with microseconds. -/
def Kind.isOwn : Kind → Bool
  | delta | span | offset | months | days | date | time | localDateTime | offsetDateTime => true
  | _ => false

/-- The full name of a kind, as in a message about a single argument. -/
def Kind.fullName (k : Kind) : String :=
  if k.isOwn then "chronokit." ++ k.name else k.name

/-- The name of a kind without the part in front of a point. -/
def Kind.shortName (k : Kind) : String :=
  String.ofList (((Text.splitAt '.' k.name.toList).getLast?).getD [])

/-- The arithmetic operators. -/
inductive Arithmetic where
  | add | sub | mul | div
  deriving DecidableEq, Repr

/-- The sign an operator is written with. -/
def Arithmetic.sign : Arithmetic → String
  | add => "+"
  | sub => "-"
  | mul => "*"
  | div => "/"

/-- The comparisons by order. -/
inductive Comparison where
  | lt | le | gt | ge
  deriving DecidableEq, Repr

/-- The sign a comparison is written with. -/
def Comparison.sign : Comparison → String
  | lt => "<"
  | le => "<="
  | gt => ">"
  | ge => ">="

/-- The operators with one operand. -/
inductive Unary where
  | neg | pos | abs
  deriving DecidableEq, Repr

/-- The name an operator with one operand has in a message. -/
def Unary.label : Unary → String
  | neg => "unary -"
  | pos => "unary +"
  | abs => "abs()"

/-- The limits that a value or a result can exceed. -/
inductive Limit where
  /-- An integer argument, by its name. -/
  | argument (name : String)
  /-- The range of deltas. -/
  | delta
  /-- The years of the calendar. -/
  | year
  /-- A count of microseconds or nanoseconds in 64 bits, by the unit's name. -/
  | count (unit : String)
  /-- The result of an operator, by its operands. `scaled` tells a sum or
  multiple of exact amounts from a step in the calendar. -/
  | result (op : Arithmetic) (left right : String) (scaled : Bool)
  /-- A delta on its way to or from one with microseconds. -/
  | deltaConversion
  /-- The same inside a sum. -/
  | operandConversion
  /-- A date on its way to one with years 1 to 9999. -/
  | dateConversion
  /-- The datetimes of the calendar. -/
  | localDateTime
  /-- The years 1 to 9999, in which zones can be asked. -/
  | zoneYear
  deriving DecidableEq, Repr

/-- What exceeding a limit is reported as. -/
def Limit.message : Limit → String
  | argument name => name ++ " out of range"
  | delta => "TimeDelta out of range"
  | year => "Year out of range"
  | count unit => "Number of " ++ unit ++ " out of range"
  | result op left right scaled =>
    "`" ++ left ++ " " ++ op.sign ++ " " ++ right ++
      if scaled then "` overflowed" else "` out of range"
  | deltaConversion => "Source duration value is out of range for the target type"
  | operandConversion => "overflow converting from datetime.timedelta to TimeDelta"
  | dateConversion => "Date out of range for datetime.date"
  | localDateTime => "Datetime out of range"
  | zoneYear => "Datetime out of range for timezone lookup"

/-- The rules of structure that an argument can break. -/
inductive Rule where
  | nanosBelowSecond | secondsBesideMinutes | packedSpan
  | month | day | ordinal
  | time | hour | minute | second | nanosecond | leapSecond
  deriving DecidableEq, Repr

/-- What breaking a rule is reported as. -/
def Rule.message : Rule → String
  | nanosBelowSecond => "nanos must be less than one second"
  | secondsBesideMinutes => "seconds must be at most 60 when minutes are set"
  | packedSpan => "Invalid CalendarDuration pickle data"
  | month => "Month must be in 1..12"
  | day => "Day is out of range for month"
  | ordinal => "Ordinal is out of range for year"
  | time => "Time out of range"
  | hour => "Hour out of range"
  | minute => "Minute out of range"
  | second => "Second out of range"
  | nanosecond => "Nanosecond out of range"
  | leapSecond => "A leap second is only allowed at second 59"

/-- Arguments of a wrong kind. -/
inductive Mismatch where
  /-- A named argument has to be an integer. -/
  | integer (name : String) (got : Kind)
  /-- Something else was expected. -/
  | expected (what : String) (got : Kind)
  /-- A pair was expected. -/
  | expectedPair (what : String)
  | arithmetic (op : Arithmetic) (left right : Kind)
  /-- Something else is added to a text, to bytes, to a list or to a tuple. -/
  | joining (left right : Kind)
  /-- A text, bytes, a list or a tuple is multiplied by something other than an integer. -/
  | repeating (factor : Kind)
  | comparison (op : Comparison) (left right : Kind)
  /-- Of two times or datetimes with microseconds, one has an offset and one has none. -/
  | mixedOffsets (got : Kind)
  /-- The same in a difference of datetimes. -/
  | mixedOffsetsApart
  /-- A datetime with microseconds is compared with such a date. -/
  | dateTimeAndDate
  | unary (op : Unary) (got : Kind)
  /-- A single text stands where a list of paths should. -/
  | pathList
  | path (got : Kind)
  | bytesPath
  | collection (got : Kind)
  /-- A text is to be read. -/
  | readable (got : Kind)
  /-- Packed data is to be unpacked. -/
  | packedData (got : Kind)
  /-- Packed data is to be cut into parts before that. -/
  | packedParts (got : Kind)
  /-- What has no fixed value cannot be a key. -/
  | key (got : Kind)
  deriving DecidableEq, Repr

/-- A kind as messages about a single argument show it. -/
def Kind.shown (k : Kind) : String := "<class " ++ Text.quote k.fullName ++ ">"

/-- What a wrong kind is reported as. -/
def Mismatch.message : Mismatch → String
  | integer name got => name ++ " must be an integer, got " ++ got.shown
  | expected what got => "Expected " ++ what ++ ", got " ++ got.shown
  | expectedPair what => "Expected " ++ what
  | arithmetic op left right =>
    "unsupported operand type(s) for " ++ op.sign ++ ": " ++
      Text.quote left.name ++ " and " ++ Text.quote right.name
  | joining .bytes right => "can't concat " ++ right.name ++ " to bytes"
  | joining left right =>
    "can only concatenate " ++ left.name ++ " (not \x22" ++ right.name ++ "\x22) to " ++ left.name
  | repeating factor =>
    "can't multiply sequence by non-int of type " ++ Text.quote factor.name
  | comparison op left right =>
    Text.quote op.sign ++ " not supported between instances of " ++
      Text.quote left.name ++ " and " ++ Text.quote right.name
  | mixedOffsets got => "can't compare offset-naive and offset-aware " ++ got.shortName ++ "s"
  | mixedOffsetsApart => "can't subtract offset-naive and offset-aware datetimes"
  | dateTimeAndDate =>
    "can't compare " ++ Kind.microDateTime.name ++ " to " ++ Kind.microDate.name
  | unary op got => "bad operand type for " ++ op.label ++ ": " ++ Text.quote got.name
  | pathList => "tzpath must be an iterable of paths"
  | path got => "expected str, bytes or os.PathLike object, not " ++ got.shortName
  | bytesPath =>
    "argument should be a str object or an os.PathLike object returning str, not " ++
      Kind.bytes.shown
  | collection got => Text.quote got.name ++ " object is not iterable"
  | readable .bytes => "cannot use a string pattern on a bytes-like object"
  | readable got => "expected string or bytes-like object, got " ++ Text.quote got.name
  | packedData got => "a bytes-like object is required, not " ++ Text.quote got.name
  | packedParts got => Text.quote got.name ++ " object is not subscriptable"
  | key got => "unhashable type: " ++ Text.quote got.name

/-- Fields of a date, a time or an offset with microseconds that have no such value. -/
inductive MicroField where
  | year (value : Int)
  | month | day | hour | minute | second | microsecond
  deriving DecidableEq, Repr

/-- What such a field is reported as. -/
def MicroField.message : MicroField → String
  | year value => "year " ++ String.ofList (Text.integer value) ++ " is out of range"
  | month => "month must be in 1..12"
  | day => "day is out of range for month"
  | hour => "hour must be in 0..23"
  | minute => "minute must be in 0..59"
  | second => "second must be in 0..59"
  | microsecond => "microsecond must be in 0..999999"

/-- Results that are too large for their kind. -/
inductive Excess where
  /-- A sequence that is repeated more times than a word can count. -/
  | repeating
  /-- A text or bytes whose repetition has more parts than a word can count. -/
  | repeatedText
  | repeatedBytes
  /-- A sequence that is too long to be held. -/
  | memory
  /-- A duration with microseconds of so many days. -/
  | microDays (days : Int)
  /-- A date with microseconds outside of the years 1 to 9999. -/
  | microDate
  deriving DecidableEq, Repr

/-- What a result that is too large is reported as. Days are only shown if they
fit into a signed 32-bit word. -/
def Excess.message : Excess → String
  | repeating => "cannot fit 'int' into an index-sized integer"
  | repeatedText => "repeated string is too long"
  | repeatedBytes => "repeated bytes are too long"
  | memory => ""
  | microDays days =>
    if minI32 ≤ days ∧ days ≤ maxI32 then
      "days=" ++ String.ofList (Text.integer days) ++ "; must have magnitude <= 999999999"
    else "Python int too large to convert to C int"
  | microDate => "date value out of range"

/-- The causes of failure. -/
inductive Fault where
  | outOfRange (limit : Limit)
  | invalid (rule : Rule)
  | mismatch (m : Mismatch)
  | microField (field : MicroField)
  /-- A text has not the format it should have. -/
  | badText (text : String)
  /-- A number is written with so many digits that it is not read. -/
  | tooManyDigits (count : Nat)
  /-- A time of day with an offset stands where one without is needed. -/
  | timeHasOffset
  /-- A datetime with an offset, shown as given, stands where one without is needed. -/
  | dateTimeHasOffset (shown : String)
  /-- An offset of a day or more, shown as given if it was an argument. -/
  | offsetOfDay (shown : Option String)
  /-- No such way to treat repeated and skipped local times. -/
  | unknownPolicy
  | relativePath
  | deltaByZero
  | integerByZero
  | quotientByZero
  | excess (e : Excess)
  /-- A number that stands for no month. -/
  | noSuchMonth
  /-- A number of a month that does not even fit into a word. -/
  | monthBeyondWord
  /-- Two datetimes far outside of the supported range have no delta between them. -/
  | tooFarApart
  /-- A local time, by its text, that a zone does not have. -/
  | skippedTime (shown key : String)
  /-- A local time, by its text, that a zone has twice. -/
  | repeatedTime (shown key : String)
  /-- No zone for a key, which is given as it is shown. -/
  | zoneNotFound (shownKey : String)
  | malformedZone (flaw : Zone.FileFlaw)
  /-- Packed data of another length than this. -/
  | packedLength (length : Nat)
  /-- A number that the word for it in a packed form cannot hold. -/
  | packedNumber
  /-- A zone comes from a file, and cannot be packed or copied. -/
  | zoneFromFile
  /-- An earlier step of the program, which this one refers to, has failed. -/
  | failedStep (index : Nat)
  /-- The operation does not take such arguments. -/
  | arguments
  deriving DecidableEq, Repr

/-- The text of a fault. -/
def Fault.message : Fault → String
  | outOfRange limit => limit.message
  | invalid rule => rule.message
  | mismatch m => m.message
  | microField field => field.message
  | badText text => "Invalid format: " ++ Text.quote text
  | tooManyDigits count =>
    "Exceeds the limit (" ++ String.ofList (Text.digits Text.mostDigits) ++
      " digits) for integer string conversion: value has " ++ String.ofList (Text.digits count) ++
      " digits; use sys.set_int_max_str_digits() to increase the limit"
  | timeHasOffset => "Time must be naive"
  | dateTimeHasOffset shown =>
    "Can only create NaiveDateTime from a naive datetime, got datetime with tzinfo=" ++ shown
  | offsetOfDay shown =>
    "offset must be a timedelta strictly between -timedelta(hours=24) and timedelta(hours=24)" ++
      (match shown with
      | some s => ", not " ++ s
      | none => "") ++ "."
  | unknownPolicy => "disambiguate must be 'compatible', 'earlier', 'later', or 'raise'"
  | relativePath => "tzpaths must be absolute paths"
  | deltaByZero => "TimeDelta divided by zero"
  | integerByZero => "integer division or modulo by zero"
  | quotientByZero => "division by zero"
  | excess e => e.message
  | noSuchMonth => "list index out of range"
  | monthBeyondWord => "cannot fit 'int' into an index-sized integer"
  | tooFarApart => "the range of dates fits in a TimeDelta"
  | skippedTime shown key => shown ++ " is skipped in timezone " ++ Text.quote key
  | repeatedTime shown key => shown ++ " is repeated in timezone " ++ Text.quote key
  | zoneNotFound shownKey => "No time zone found for key: " ++ shownKey
  | malformedZone flaw => flaw.message
  | packedLength length =>
    "unpack requires a buffer of " ++ String.ofList (Text.digits length) ++ " bytes"
  | packedNumber => "'I' format requires 0 <= number <= 4294967295"
  | zoneFromFile => "Cannot pickle a ZoneInfo file from a file stream."
  | failedStep index => "step " ++ String.ofList (Text.digits index) ++ " failed"
  | arguments => "unsupported arguments"

/-- The outcome of an operation that can fail. -/
abbrev Outcome (α : Type) := Except Fault α

/-- Gives an integer argument back if it lies between two bounds, and blames it by name if not. -/
def checkRange (n lo hi : Int) (name : String) : Outcome Int :=
  if lo ≤ n ∧ n ≤ hi then .ok n else .error (.outOfRange (.argument name))

/-- Breaks a rule unless the condition holds. -/
def require (condition : Prop) [Decidable condition] (rule : Rule) : Outcome Unit :=
  if condition then .ok () else .error (.invalid rule)

/-- Refuses a text whose first number has too many digits to be read. -/
def requireReadable (cs : List Char) : Outcome Unit :=
  let count := (Text.firstNumber cs).length
  if count ≤ Text.mostDigits then .ok () else .error (.tooManyDigits count)

/-- The result of a checked operation, or the limit that it would have exceeded. -/
def orExceeds {α : Type} (result : Option α) (limit : Limit) : Outcome α :=
  match result with
  | some a => .ok a
  | none => .error (.outOfRange limit)

end CivilTime
