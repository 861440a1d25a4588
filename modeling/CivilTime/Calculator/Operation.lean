import CivilTime.Calculator.Operator
import CivilTime.Delta.Scale

/-!
# Operations

The operations of the calculator that need nothing but their arguments, by the
kind of value that they belong to. An operation on a value has it as its first
argument. Arguments of a wrong kind are reported where an operation checks them;
other combinations of arguments are refused as a whole.
-/

namespace CivilTime

/-- Operations on deltas. -/
inductive DeltaOp where
  | new | ofCount (u : Delta.Scale) | ofMicro | parse
  | count (u : Delta.Scale) | subsecNanos | isZero | abs
  | add | sub | mul | div | toMicro | format

/-- Operations on spans. -/
inductive SpanOp where
  /-- Makes a span of its four parts. -/
  | ofParts
  | empty | months | days | nanos | minsAndSecs
  | withMonths | withDays | withHms | withSeconds | withNanos | isZero

/-- Operations on offsets. -/
inductive OffsetOp where
  | new | east | west | localMinusUtc | utcMinusLocal

/-- Operations on steps of months and of days. -/
inductive StepOp where
  | months | days | count

/-- Operations on dates. -/
inductive DateOp where
  | new | ofMicro | parse | year | month | day | ordinal | pred | succ
  | addDelta | subDelta | addDays | subDays | addMonths | subMonths
  | withYear | withMonth | withDay | withOrdinal | since
  | atTime | atHms | atHmsFraction (nanosPerUnit : Int)
  | toMicro | format | dayNumber

/-- Operations on times of day. -/
inductive TimeOp where
  | new | ofMicro | parse | hour | minute | second | nanosecond | secondsFromMidnight
  | addDelta | subDelta | addOffset | subOffset | since
  | withHour | withMinute | withSecond | withNanosecond | toMicro | format

/-- Operations on local datetimes. -/
inductive LocalOp where
  | new | ofParts | ofDate | ofMicro | parse
  | year | month | day | ordinal | hour | minute | second | nanosecond | date | time
  | addDelta | subDelta | addMonths | subMonths | addDays | subDays
  | addOffset | subOffset | addOffsetAnyway | subOffsetAnyway | since
  | withYear | withMonth | withDay | withOrdinal
  | withHour | withMinute | withSecond | withNanosecond
  | atUtc | toMicro | format

/-- Operations on datetimes with an offset. -/
inductive MomentOp where
  | new | utc | localDateTime | offset | timestamp | timestampNanos
  | addDelta | subDelta | toMicro | format

/-- Makers of values with microseconds. -/
inductive MicroOp where
  | delta | date | time | dateTime

/-- Operations of the calendar on plain numbers. -/
inductive CalendarOp where
  | isLeap | daysInMonth | daysInYear | daysBeforeYear | daysBeforeMonth
  | dayNumber | ofDayNumber | addMonths

/-- Readers that give the numbers in a text as they are. -/
inductive FieldsOp where
  | date | time | localDateTime | delta

/-- Operations on values of all kinds. -/
inductive GeneralOp where
  | arithmetic (op : Arithmetic) | compare (op : Comparison) | equal | notEqual
  | unary (op : Unary) | truthy | display | shown
  | sum | sort | distinct | copy | pack | repack | unpack (layout : Layout)
  | divide | checkRange

/-- The operations that need nothing but their arguments. -/
inductive Operation where
  | delta (op : DeltaOp)
  | span (op : SpanOp)
  | offset (op : OffsetOp)
  | step (op : StepOp)
  | date (op : DateOp)
  | time (op : TimeOp)
  | localDateTime (op : LocalOp)
  | moment (op : MomentOp)
  | micro (op : MicroOp)
  | calendar (op : CalendarOp)
  | fields (op : FieldsOp)
  | general (op : GeneralOp)

open Value (integer text pair integers ofOption nothing truth)

/-! ## Making values of several arguments -/

/-- A date of its fields. All have to be integers before any is looked at. -/
def dateOf (year month day : Value) : Outcome Date := do
  Date.new? (← year.asInteger) (← month.asInteger) (← day.asInteger)

/-- A time of its fields. All have to be integers before any is looked at. -/
def timeOf (hour minute second nanosecond : Value) : Outcome TimeOfDay := do
  TimeOfDay.new? (← hour.asInteger) (← minute.asInteger) (← second.asInteger)
    (← nanosecond.asInteger)

/-- The argument with a given number, or zero if it is left out. -/
def argument (args : List Value) (i : Nat) : Value := args.getD i (integer 0)

/-- The result of adding to a time: the time and what is carried. -/
def timeAndCarry (r : TimeOfDay × Int) : Value := pair (.time r.1) (integer r.2)

/-! ## The operations

`eval` is the result of an operation on its arguments. Deltas, offsets and times
can be made of fewer arguments than they have parts; the others are zero. -/

def DeltaOp.eval : DeltaOp → List Value → Outcome Value
  | new, args => do
    let secs ← (argument args 0).asBounded minI64 maxI64 "secs"
    let nanos ← (argument args 1).asBounded 0 maxU32 "nanos"
    return .delta (← Delta.new? secs nanos)
  | ofCount u, [n] => do return .delta (← Delta.ofCount u (← n.asNamed u.name))
  | ofMicro, [.microDelta m] => do return .delta (← Delta.ofMicro m)
  | ofMicro, [v] => .error (.mismatch (.expected "datetime.timedelta" v.kind))
  | parse, [v] => do return .delta (← Delta.parse (← v.asText))
  | count u, [.delta d] => do return integer (← d.count u)
  | subsecNanos, [.delta d] => .ok (integer d.subsecNanos)
  | isZero, [.delta d] => .ok (truth d.isZero)
  | abs, [.delta d] => .ok (.delta d.abs)
  | add, [.delta a, .delta b] => .ok (ofOption .delta (a.add? b))
  | sub, [.delta a, .delta b] => .ok (ofOption .delta (a.sub? b))
  | mul, [.delta d, k] => do
    let k ← Delta.checkMultiplier (← k.asNamed "multiplier")
    return ofOption .delta (d.mul? k)
  | div, [.delta d, k] => do
    let k ← Delta.checkDivisor (← k.asNamed "divisor")
    return ofOption .delta (d.div? k)
  | toMicro, [.delta d] => do return .microDelta (← d.toMicro)
  | format, [.delta d] => .ok (text d.format)
  | _, _ => .error .arguments

def SpanOp.eval : SpanOp → List Value → Outcome Value
  | ofParts, [.integer mo, .integer d, .integer word, .integer n] => do
    return .span (← Span.ofParts mo d word n)
  | empty, [] => .ok (.span Span.empty)
  | months, [.span s] => .ok (integer s.months)
  | days, [.span s] => .ok (integer s.days)
  | nanos, [.span s] => .ok (integer s.nanos)
  | minsAndSecs, [.span s] => .ok (integers [s.minsAndSecs.1, s.minsAndSecs.2])
  | withMonths, [.span s, n] => do return .span (← s.withMonths (← n.asNamed "months"))
  | withDays, [.span s, n] => do return .span (← s.withDays (← n.asNamed "days"))
  | withHms, [.span s, hours, minutes, seconds] => do
    let hours ← Span.checkHours (← hours.asNamed "hours")
    let minutes ← Span.checkMinutes (← minutes.asNamed "minutes")
    let seconds ← Span.checkSeconds (← seconds.asNamed "seconds")
    return .span (← s.withHms hours minutes seconds)
  | withSeconds, [.span s, n] => do return .span (← s.withSeconds (← n.asNamed "seconds"))
  | withNanos, [.span s, n] => do return .span (← s.withNanos (← n.asNamed "nanos"))
  | isZero, [.span s] => .ok (truth s.isZero)
  | _, _ => .error .arguments

def OffsetOp.eval : OffsetOp → List Value → Outcome Value
  | new, args => do return .offset (← Offset.east (← (argument args 0).asNamed "offset"))
  | east, [n] => do return .offset (← Offset.east (← n.asNamed "offset"))
  | west, [n] => do return .offset (← Offset.west (← n.asNamed "offset"))
  | localMinusUtc, [.offset o] => .ok (integer o.secs)
  | utcMinusLocal, [.offset o] => .ok (integer (-o.secs))
  | _, _ => .error .arguments

def StepOp.eval : StepOp → List Value → Outcome Value
  | months, [n] => do return .months (← Months.new? (← n.asNamed "months"))
  | days, [n] => do return .days (← Days.new? (← n.asNamed "days"))
  | count, [.months m] => .ok (integer m.count)
  | count, [.days d] => .ok (integer d.count)
  | _, _ => .error .arguments

def DateOp.eval : DateOp → List Value → Outcome Value
  | new, [y, m, d] => do return .date (← dateOf y m d)
  | ofMicro, [.microDate m] => .ok (.date (Date.ofMicro m))
  | ofMicro, [v] => .error (.mismatch (.expected "datetime.date" v.kind))
  | parse, [v] => do return .date (← Date.parse (← v.asText))
  | year, [.date d] => .ok (integer d.year)
  | month, [.date d] => .ok (integer d.month)
  | day, [.date d] => .ok (integer d.day)
  | ordinal, [.date d] => do
    d.requirePlace
    return integer d.ordinal
  | pred, [.date d] => do
    d.requirePlace
    return ofOption .date d.pred?
  | succ, [.date d] => do
    d.requirePlace
    return ofOption .date d.succ?
  | addDelta, [.date d, .delta x] => do
    d.requireMove x.wholeDays
    return ofOption .date (d.addDelta? x)
  | subDelta, [.date d, .delta x] => do
    d.requireMove x.wholeDays
    return ofOption .date (d.subDelta? x)
  | addDays, [.date d, .days n] => do
    d.requireMove n.count
    return ofOption .date (d.addDays? n.count)
  | subDays, [.date d, .days n] => do
    d.requireMove n.count
    return ofOption .date (d.addDays? (-n.count))
  | addMonths, [.date d, .months n] => .ok (ofOption .date (d.addMonths? n))
  | subMonths, [.date d, .months n] => .ok (ofOption .date (d.subMonths? n))
  | withYear, [.date d, n] => do return .date (← d.withYear (← n.asInteger))
  | withMonth, [.date d, n] => do return .date (← d.withMonth (← n.asInteger))
  | withDay, [.date d, n] => do return .date (← d.withDay (← n.asInteger))
  | withOrdinal, [.date d, n] => do return .date (← d.withOrdinal (← n.asInteger))
  | since, [.date a, .date b] => Value.betweenDates a b
  | atTime, [.date d, .time t] => .ok (.localDateTime ⟨d, t⟩)
  | atHms, [.date d, h, m, s] => do return .localDateTime ⟨d, ← timeOf h m s (integer 0)⟩
  | atHmsFraction nanosPerUnit, [.date d, h, m, s, n] => do
    if nanosPerUnit = 1 then
      return .localDateTime ⟨d, ← timeOf h m s n⟩
    let n ← n.asInteger
    return .localDateTime ⟨d, ← timeOf h m s (integer (n * nanosPerUnit))⟩
  | toMicro, [.date d] => do return .microDate (← d.toMicro)
  | format, [.date d] => .ok (text d.format)
  | dayNumber, [.date d] => do
    d.requirePlace
    return integer d.dayNumber
  | _, _ => .error .arguments

def TimeOp.eval : TimeOp → List Value → Outcome Value
  | new, args => do
    return .time (← timeOf (argument args 0) (argument args 1) (argument args 2)
      (argument args 3))
  | ofMicro, [.microTime m] => do return .time (← TimeOfDay.ofMicro m)
  | ofMicro, [v] => .error (.mismatch (.expected "datetime.time" v.kind))
  | parse, [v] => do return .time (← TimeOfDay.parse (← v.asText))
  | hour, [.time t] => .ok (integer t.hour)
  | minute, [.time t] => .ok (integer t.minute)
  | second, [.time t] => .ok (integer t.second)
  | nanosecond, [.time t] => .ok (integer t.frac)
  | secondsFromMidnight, [.time t] => .ok (integer t.secs)
  | addDelta, [.time t, .delta x] => .ok (timeAndCarry (t.addDelta x))
  | subDelta, [.time t, .delta x] => .ok (timeAndCarry (t.subDelta x))
  | addOffset, [.time t, .offset o] => .ok (timeAndCarry (t.addOffset o))
  | subOffset, [.time t, .offset o] => .ok (timeAndCarry (t.subOffset o))
  | since, [.time a, .time b] => .ok (.delta (a.since b))
  | withHour, [.time t, n] => do return .time (← t.withHour (← n.asInteger))
  | withMinute, [.time t, n] => do return .time (← t.withMinute (← n.asInteger))
  | withSecond, [.time t, n] => do return .time (← t.withSecond (← n.asInteger))
  | withNanosecond, [.time t, n] => do return .time (← t.withNanosecond (← n.asInteger))
  | toMicro, [.time t] => do return .microTime (← t.toMicro)
  | format, [.time t] => .ok (text t.format)
  | _, _ => .error .arguments

def LocalOp.eval : LocalOp → List Value → Outcome Value
  | new, y :: m :: d :: rest => do
    let date ← dateOf y m d
    let time ← timeOf (argument rest 0) (argument rest 1) (argument rest 2) (argument rest 3)
    return .localDateTime ⟨date, time⟩
  | ofParts, [.date d, .time t] => .ok (.localDateTime ⟨d, t⟩)
  | ofParts, [_, _] => .error (.mismatch (.expectedPair "a NaiveDate and a NaiveTime"))
  | ofDate, [.date d] => .ok (.localDateTime ⟨d, TimeOfDay.midnight⟩)
  | ofDate, [_] => .error (.mismatch (.expectedPair "a NaiveDate and a NaiveTime"))
  | ofMicro, [.microDateTime m] => do return .localDateTime (← LocalDateTime.ofMicro m)
  | ofMicro, [v] => .error (.mismatch (.expected "datetime.datetime" v.kind))
  | parse, [v] => do return .localDateTime (← LocalDateTime.parse (← v.asText))
  | year, [.localDateTime t] => .ok (integer t.date.year)
  | month, [.localDateTime t] => .ok (integer t.date.month)
  | day, [.localDateTime t] => .ok (integer t.date.day)
  | ordinal, [.localDateTime t] => do
    t.date.requirePlace
    return integer t.date.ordinal
  | hour, [.localDateTime t] => .ok (integer t.time.hour)
  | minute, [.localDateTime t] => .ok (integer t.time.minute)
  | second, [.localDateTime t] => .ok (integer t.time.second)
  | nanosecond, [.localDateTime t] => .ok (integer t.time.frac)
  | date, [.localDateTime t] => .ok (.date t.date)
  | time, [.localDateTime t] => .ok (.time t.time)
  | addDelta, [.localDateTime t, .delta x] => do
    t.requireAdd x
    return ofOption .localDateTime (t.addDelta? x)
  | subDelta, [.localDateTime t, .delta x] => do
    t.requireSub x
    return ofOption .localDateTime (t.subDelta? x)
  | addMonths, [.localDateTime t, .months n] => .ok (ofOption .localDateTime (t.addMonths? n))
  | subMonths, [.localDateTime t, .months n] => .ok (ofOption .localDateTime (t.subMonths? n))
  | addDays, [.localDateTime t, .days n] => do
    t.date.requireMove n.count
    return ofOption .localDateTime (t.addDays? n)
  | subDays, [.localDateTime t, .days n] => do
    t.date.requireMove n.count
    return ofOption .localDateTime (t.subDays? n)
  | addOffset, [.localDateTime t, .offset o] => do
    t.requireAddOffset o
    return ofOption .localDateTime (t.addOffset? o)
  | subOffset, [.localDateTime t, .offset o] => do
    t.requireSubOffset o
    return ofOption .localDateTime (t.subOffset? o)
  | addOffsetAnyway, [.localDateTime t, .offset o] => do
    t.requireAddOffset o
    return .localDateTime (t.addOffset o)
  | subOffsetAnyway, [.localDateTime t, .offset o] => do
    t.requireSubOffset o
    return .localDateTime (t.subOffset o)
  | since, [.localDateTime a, .localDateTime b] => Value.between a b
  | withYear, [.localDateTime t, n] => do return .localDateTime (← t.withYear (← n.asInteger))
  | withMonth, [.localDateTime t, n] => do return .localDateTime (← t.withMonth (← n.asInteger))
  | withDay, [.localDateTime t, n] => do return .localDateTime (← t.withDay (← n.asInteger))
  | withOrdinal, [.localDateTime t, n] => do
    return .localDateTime (← t.withOrdinal (← n.asInteger))
  | withHour, [.localDateTime t, n] => do return .localDateTime (← t.withHour (← n.asInteger))
  | withMinute, [.localDateTime t, n] => do return .localDateTime (← t.withMinute (← n.asInteger))
  | withSecond, [.localDateTime t, n] => do return .localDateTime (← t.withSecond (← n.asInteger))
  | withNanosecond, [.localDateTime t, n] => do
    return .localDateTime (← t.withNanosecond (← n.asInteger))
  | atUtc, [.localDateTime t] => .ok (.offsetDateTime ⟨t, Offset.utc⟩)
  | toMicro, [.localDateTime t] => do return .microDateTime (← t.toMicro)
  | format, [.localDateTime t] => .ok (text t.format)
  | _, _ => .error .arguments

def MomentOp.eval : MomentOp → List Value → Outcome Value
  | new, [.localDateTime t, .offset o] => .ok (.offsetDateTime ⟨t, o⟩)
  | new, [_, _] => .error (.mismatch (.expectedPair "a NaiveDateTime and a FixedOffset"))
  | utc, [.offsetDateTime t] => .ok (.localDateTime t.utc)
  | localDateTime, [.offsetDateTime t] => do
    t.requireLocal
    return .localDateTime t.localDateTime
  | offset, [.offsetDateTime t] => .ok (.offset t.offset)
  | timestamp, [.offsetDateTime t] => do
    t.utc.date.requirePlace
    return integer t.timestamp
  | timestampNanos, [.offsetDateTime t] => .ok (integer t.timestampNanos)
  | addDelta, [.offsetDateTime t, .delta x] => do
    t.utc.requireAdd x
    return ofOption .offsetDateTime (t.addDelta? x)
  | subDelta, [.offsetDateTime t, .delta x] => do
    t.utc.requireSub x
    return ofOption .offsetDateTime (t.subDelta? x)
  | toMicro, [.offsetDateTime t] => do
    t.requireLocal
    return .microDateTime (← t.toMicro)
  | format, [.offsetDateTime t] => do
    t.requireLocal
    return text t.format
  | _, _ => .error .arguments

/-- An offset that may be missing. -/
def microOffset : Value → Outcome (Option Int)
  | .nothing => .ok none
  | .integer secs => do return some (← Micro.checkOffset secs)
  | _ => .error .arguments

def MicroOp.eval : MicroOp → List Value → Outcome Value
  | delta, [.integer days, .integer secs, .integer micros] => do
    return .microDelta (← Micro.Delta.ofTotal (Micro.Delta.mk days secs micros).total)
  | date, [.integer y, .integer m, .integer d] => do return .microDate (← Micro.Date.new? y m d)
  | time, [.integer h, .integer m, .integer s, .integer us, offset] => do
    let offset ← microOffset offset
    return .microTime { ← Micro.Time.new? h m s us with offset := offset }
  | dateTime, [.integer y, .integer mo, .integer d, .integer h, .integer m, .integer s,
      .integer us, offset] => do
    let offset ← microOffset offset
    let date ← Micro.Date.new? y mo d
    return .microDateTime ⟨date, { ← Micro.Time.new? h m s us with offset := offset }⟩
  | _, _ => .error .arguments

/-- The fields of a date. -/
def dateFields (d : Date) : Value := integers [d.year, d.month, d.day]

def CalendarOp.eval : CalendarOp → List Value → Outcome Value
  | isLeap, [.integer y] => .ok (truth (decide (Calendar.IsLeap y)))
  | daysInMonth, [.integer y, .integer m] => do
    Calendar.requireMonth m
    return integer (Calendar.daysInMonth y m)
  | daysInYear, [.integer y] => .ok (integer (Calendar.daysInYear y))
  | daysBeforeYear, [.integer y] => .ok (integer (Calendar.daysBeforeYear y))
  | daysBeforeMonth, [.integer y, .integer m] => do
    Calendar.requireMonth m
    return integer (Calendar.daysBeforeMonth y m)
  | dayNumber, [.integer y, .integer m, .integer d] => do
    Calendar.requireMonth m
    return integer (Date.mk y m d).dayNumber
  | ofDayNumber, [.integer n] => .ok (dateFields (Date.ofDayNumber n))
  | addMonths, [.integer y, .integer m, .integer d, .integer n] =>
    .ok (dateFields ((Date.mk y m d).shiftMonths n))
  | _, _ => .error .arguments

def FieldsOp.eval : FieldsOp → List Value → Outcome Value
  | date, [v] => do
    let (y, m, d) ← Date.parseFields (← v.asText)
    return integers [y, m, d]
  | time, [v] => do
    let (h, m, s, n) ← TimeOfDay.parseFields (← v.asText)
    return integers [h, m, s, n]
  | localDateTime, [v] => do
    let ((y, mo, d), (h, m, s, n)) ← LocalDateTime.parseFields (← v.asText)
    return integers [y, mo, d, h, m, s, n]
  | delta, [v] => do
    let (negative, secs, nanos) ← Delta.parseFields (← v.asText)
    return .tuple [truth negative, integer secs, integer nanos]
  | _, _ => .error .arguments

def GeneralOp.eval : GeneralOp → List Value → Outcome Value
  | arithmetic op, [a, b] => Value.arithmetic op a b
  | compare op, [a, b] => do return truth (← Value.compare op a b)
  | equal, [a, b] => .ok (truth (a.same b))
  | notEqual, [a, b] => .ok (truth (!a.same b))
  | unary op, [v] => Value.unary op v
  | truthy, [v] => .ok (truth v.truthy)
  | display, [v] => do
    v.requireShown
    return text v.display
  | shown, [v] => do
    v.requireShown
    return text v.shown
  | sum, [v] => do Value.sum (← v.elements)
  | sort, [v] => do return .list (← Value.sort (← v.elements))
  | distinct, [v] => do return .list (← Value.distinct (← v.elements))
  | copy, [v] => do return .list [truth (← v.isOwnCopy), truth (← v.isOwnDeepCopy)]
  | pack, [v] => do
    let (layout, payload) ← v.pack
    return .list [text layout.name, payload]
  | repack, [v] => v.repack
  | unpack layout, [v] => Value.unpack layout v
  | divide, [.integer a, .integer b] =>
    if b = 0 then .error .integerByZero else .ok (integer (a.tdiv b))
  | checkRange, [v, .integer lo, .integer hi, .text name] => do
    return integer (← v.asBounded lo hi name)
  | _, _ => .error .arguments

/-- The result of an operation on its arguments. -/
def Operation.eval : Operation → List Value → Outcome Value
  | delta op => op.eval
  | span op => op.eval
  | offset op => op.eval
  | step op => op.eval
  | date op => op.eval
  | time op => op.eval
  | localDateTime op => op.eval
  | moment op => op.eval
  | micro op => op.eval
  | calendar op => op.eval
  | fields op => op.eval
  | general op => op.eval

end CivilTime
