import CivilTime.Calculator.Value
import CivilTime.Micro.Arithmetic

/-!
# Operators

The arithmetic operators and the comparisons on values of all kinds, and what can
be made of comparisons: sorting, and leaving out repetitions. An operator that
does not fit its operands names their kinds.
-/

namespace CivilTime.Value

/-- The fault of a result that is out of range. -/
def exceeds (op : Arithmetic) (a b : Kind) (scaled : Bool) : Limit :=
  .result op a.name b.name scaled

/-- A duration with microseconds as the right operand of a sum. -/
def operandOfMicro (m : Micro.Delta) : Outcome Delta :=
  (Delta.ofMicro m).mapError fun _ => .outOfRange .operandConversion

/-- The fault of a sum without a meaning. -/
def noSum (a b : Kind) : Mismatch := if a.isSequence then .joining a b else .arithmetic .add a b

/-- The fault of a product without a meaning. -/
def noProduct (a b : Kind) : Mismatch :=
  if a.isSequence then .repeating b
  else if b.isSequence then .repeating a
  else .arithmetic .mul a b

/-- The delta from one date to another. -/
def betweenDates (a b : Date) : Outcome Value := do
  a.requirePlace
  b.requirePlace
  return delta (a.since b)

/-- The delta from one datetime to another. -/
def between (a b : LocalDateTime) : Outcome Value := do
  a.date.requirePlace
  b.date.requirePlace
  match a.since? b with
  | some d => return delta d
  | none => throw .tooFarApart

/-- The sum of two values. -/
def add : Value → Value → Outcome Value
  | integer a, integer b => .ok (integer (a + b))
  | text a, text b => .ok (text (a ++ b))
  | bytes a, bytes b => .ok (bytes (a ++ b))
  | list as, list bs => .ok (list (as ++ bs))
  | tuple as, tuple bs => .ok (tuple (as ++ bs))
  | delta a, delta b => delta <$> orExceeds (a.add? b) (exceeds .add .delta .delta true)
  | date a, delta b => do
    a.requireMove b.wholeDays
    date <$> orExceeds (a.addDelta? b) (exceeds .add .date .delta true)
  | date a, days b => do
    a.requireMove b.count
    date <$> orExceeds (a.addDays? b.count) (exceeds .add .date .days false)
  | date a, months b => date <$> orExceeds (a.addMonths? b) (exceeds .add .date .months false)
  | time a, delta b => .ok (time (a.addDelta b).1)
  | localDateTime a, delta b => do
    a.requireAdd b
    localDateTime <$> orExceeds (a.addDelta? b) (exceeds .add .localDateTime .delta true)
  | localDateTime a, microDelta b => do
    let b ← operandOfMicro b
    a.requireAdd b
    localDateTime <$> orExceeds (a.addDelta? b) (exceeds .add .localDateTime .delta true)
  | localDateTime a, offset b => do
    a.requireAddOffset b
    localDateTime <$> orExceeds (a.addOffset? b) (exceeds .add .localDateTime .offset false)
  | localDateTime a, months b => localDateTime <$> orExceeds (a.addMonths? b)
      (exceeds .add .localDateTime .months false)
  | localDateTime a, days b => do
    a.date.requireMove b.count
    localDateTime <$> orExceeds (a.addDays? b) (exceeds .add .localDateTime .days false)
  | offsetDateTime a, delta b => do
    a.utc.requireAdd b
    offsetDateTime <$> orExceeds (a.addDelta? b) (exceeds .add .offsetDateTime .delta true)
  | microDelta a, microDelta b => microDelta <$> a.add b
  | microDate a, microDelta b | microDelta b, microDate a => microDate <$> a.addDays b.days
  | microDateTime a, microDelta b | microDelta b, microDateTime a =>
    microDateTime <$> a.addMicros b.total
  | a, b => .error (.mismatch (noSum a.kind b.kind))

/-- The difference of two values. -/
def sub : Value → Value → Outcome Value
  | integer a, integer b => .ok (integer (a - b))
  | delta a, delta b => delta <$> orExceeds (a.sub? b) (exceeds .sub .delta .delta true)
  | date a, date b => betweenDates a b
  | date a, delta b => do
    a.requireMove b.wholeDays
    date <$> orExceeds (a.subDelta? b) (exceeds .sub .date .delta true)
  | date a, days b => do
    a.requireMove b.count
    date <$> orExceeds (a.addDays? (-b.count)) (exceeds .sub .date .days false)
  | date a, months b => date <$> orExceeds (a.subMonths? b) (exceeds .sub .date .months false)
  | time a, time b => .ok (delta (a.since b))
  | time a, delta b => .ok (time (a.subDelta b).1)
  | localDateTime a, localDateTime b => between a b
  | localDateTime a, delta b => do
    a.requireSub b
    localDateTime <$> orExceeds (a.subDelta? b) (exceeds .sub .localDateTime .delta true)
  | localDateTime a, microDelta b => do
    let b ← operandOfMicro b
    a.requireSub b
    localDateTime <$> orExceeds (a.subDelta? b) (exceeds .sub .localDateTime .delta true)
  | localDateTime a, offset b => do
    a.requireSubOffset b
    localDateTime <$> orExceeds (a.subOffset? b) (exceeds .sub .localDateTime .offset false)
  | localDateTime a, months b => localDateTime <$> orExceeds (a.subMonths? b)
      (exceeds .sub .localDateTime .months false)
  | localDateTime a, days b => do
    a.date.requireMove b.count
    localDateTime <$> orExceeds (a.subDays? b) (exceeds .sub .localDateTime .days false)
  | offsetDateTime a, offsetDateTime b => between a.utc b.utc
  | offsetDateTime a, delta b => do
    a.utc.requireSub b
    offsetDateTime <$> orExceeds (a.subDelta? b) (exceeds .sub .offsetDateTime .delta true)
  | microDelta a, microDelta b => microDelta <$> a.sub b
  | microDate a, microDate b => .ok (microDelta (a.since b))
  | microDate a, microDelta b => microDate <$> a.addDays (-b.days)
  | microDateTime a, microDateTime b => microDelta <$> a.since b
  | microDateTime a, microDelta b => microDateTime <$> a.addMicros (-b.total)
  | a, b => .error (.mismatch (.arithmetic .sub a.kind b.kind))

/-- An integer multiple of a delta. -/
def scale (d : Delta) (k : Int) : Outcome Value := do
  let k ← Delta.checkMultiplier k
  delta <$> orExceeds (d.mul? k) (.result .mul Kind.delta.name "i32" true)

/-- Why a sequence is too long to be made by repetition. -/
def tooLong (k : Kind) (length : Int) : Excess :=
  if length ≤ maxI64 then .memory
  else if k = .text then .repeatedText
  else if k = .bytes then .repeatedBytes
  else .memory

/-- The parts of a sequence `k` times over, and none of them if `k` is negative. The
number has to fit into a word, and the result must not be too long to be held. -/
def repeated {α : Type} (kind : Kind) (as : List α) (k : Int) : Outcome (List α) :=
  if ¬(minI64 ≤ k ∧ k ≤ maxI64) then .error (.excess .repeating)
  else if as.isEmpty then .ok []
  else if maxU32 < as.length * k then .error (.excess (tooLong kind (as.length * k)))
  else .ok (List.replicate k.toNat as).flatten

/-- The product of two values. -/
def mul : Value → Value → Outcome Value
  | integer a, integer b => .ok (integer (a * b))
  | delta d, integer k | integer k, delta d => scale d k
  | text s, integer k | integer k, text s => do
    return text (String.ofList (← repeated .text s.toList k))
  | bytes bs, integer k | integer k, bytes bs => bytes <$> repeated .bytes bs k
  | list vs, integer k | integer k, list vs => list <$> repeated .list vs k
  | tuple vs, integer k | integer k, tuple vs => tuple <$> repeated .tuple vs k
  | microDelta d, integer k | integer k, microDelta d => microDelta <$> d.mul k
  | a, b => .error (.mismatch (noProduct a.kind b.kind))

/-- The quotient of two values. A quotient that is no value of any kind is refused. -/
def div : Value → Value → Outcome Value
  | delta d, integer k => do
    if k = 0 then
      throw .deltaByZero
    let k ← Delta.checkDivisor k
    delta <$> orExceeds (d.div? k) (.result .div Kind.delta.name "i32" true)
  | microDelta d, integer k => microDelta <$> d.div k
  | integer _, integer k => .error (if k = 0 then .quotientByZero else .arguments)
  | microDelta _, microDelta d => .error (if d.total = 0 then .quotientByZero else .arguments)
  | a, b => .error (.mismatch (.arithmetic .div a.kind b.kind))

/-- An arithmetic operator. -/
def arithmetic : Arithmetic → Value → Value → Outcome Value
  | .add => add
  | .sub => sub
  | .mul => mul
  | .div => div

/-- An operator with one operand. -/
def unary : Unary → Value → Outcome Value
  | .neg, integer n => .ok (integer (-n))
  | .pos, integer n => .ok (integer n)
  | .abs, integer n => .ok (integer n.natAbs)
  | .neg, delta d => .ok (delta (-d))
  | .pos, delta d => .ok (delta d)
  | .abs, delta d => .ok (delta d.abs)
  | .neg, microDelta d => microDelta <$> d.neg
  | .pos, microDelta d => .ok (microDelta d)
  | .abs, microDelta d => microDelta <$> d.abs
  | op, v => .error (.mismatch (.unary op v.kind))

/-- Whether a value counts as true: amounts do unless they are zero, texts and
lists unless they are empty, and all else does. -/
def truthy : Value → Bool
  | nothing => false
  | truth b => b
  | integer n => n ≠ 0
  | text s => s.toList ≠ []
  | bytes bs => bs ≠ []
  | list vs | tuple vs => !vs.isEmpty
  | delta d => !d.isZero
  | span s => !s.isZero
  | microDelta d => d ≠ ⟨0, 0, 0⟩
  | _ => true

/-! ## Comparisons -/

mutual

/-- Whether two values are equal. Values of different kinds never are. Moments
are equal whatever their offsets. -/
def same : Value → Value → Bool
  | nothing, nothing => true
  | truth a, truth b => a = b
  | integer a, integer b => a = b
  | real a, real b => a = b
  | text a, text b => a = b
  | bytes a, bytes b => a = b
  | list as, list bs => sameAll as bs
  | tuple as, tuple bs => sameAll as bs
  | delta a, delta b => a = b
  | span a, span b => a = b
  | offset a, offset b => a = b
  | months a, months b => a = b
  | days a, days b => a = b
  | date a, date b => a = b
  | time a, time b => a = b
  | localDateTime a, localDateTime b => a = b
  | offsetDateTime a, offsetDateTime b => a.sameMoment b
  | microDelta a, microDelta b => a = b
  | microDate a, microDate b => a = b
  | microTime a, microTime b => a.sameMoment b
  | microDateTime a, microDateTime b => a.sameMoment b
  | zone a, zone b => a.id = b.id
  | _, _ => false

/-- Whether two lists have equal values in the same order. -/
def sameAll : List Value → List Value → Bool
  | [], [] => true
  | a :: as, b :: bs => same a b && sameAll as bs
  | _, _ => false

end

/-- How two values of an ordered type compare. -/
def compareBy {α : Type} [LT α] [DecidableRel (fun a b : α => a < b)] (a b : α) : Ordering :=
  if a < b then .lt else if b < a then .gt else .eq

/-- How two values compare, if they have an order that does not depend on parts. -/
def order? : Value → Value → Option Ordering
  | integer a, integer b => some (compareBy a b)
  | text a, text b => some (compareBy a b)
  | bytes a, bytes b => some (compareBy a b)
  | delta a, delta b => some (compareBy a b)
  | offset a, offset b => some (compareBy a b)
  | months a, months b => some (compareBy a b)
  | days a, days b => some (compareBy a b)
  | date a, date b => some (compareBy a b)
  | time a, time b => some (compareBy a b)
  | localDateTime a, localDateTime b => some (compareBy a b)
  | offsetDateTime a, offsetDateTime b => some (compareBy a b)
  | microDelta a, microDelta b => some (compareBy a b)
  | microDate a, microDate b => some (compareBy a b)
  | microTime a, microTime b => a.compare? b
  | microDateTime a, microDateTime b => a.compare? b
  | _, _ => none

/-- Why two values have no order. -/
def incomparable (op : Comparison) : Kind → Kind → Mismatch
  | .microTime, .microTime => .mixedOffsets .microTime
  | .microDateTime, .microDateTime => .mixedOffsets .microDateTime
  | .microDate, .microDateTime | .microDateTime, .microDate => .dateTimeAndDate
  | a, b => .comparison op a b

/-- What a comparison says about two values that compare in a certain way. -/
def holds : Comparison → Ordering → Bool
  | .lt, o => o = .lt
  | .le, o => o ≠ .gt
  | .gt, o => o = .gt
  | .ge, o => o ≠ .lt

mutual

/-- A comparison by order. Lists and tuples compare as their first parts that differ
do, and by length if there are none. -/
def compare (op : Comparison) : Value → Value → Outcome Bool
  | list as, list bs => compareAll op as bs
  | tuple as, tuple bs => compareAll op as bs
  | a, b =>
    match order? a b with
    | some o => .ok (holds op o)
    | none => .error (.mismatch (incomparable op a.kind b.kind))

@[inherit_doc compare]
def compareAll (op : Comparison) : List Value → List Value → Outcome Bool
  | a :: as, b :: bs => if same a b then compareAll op as bs else compare op a b
  | [], [] => .ok (holds op .eq)
  | [], _ :: _ => .ok (holds op .lt)
  | _ :: _, [] => .ok (holds op .gt)

end

/-! ## Lists -/

/-- Puts a value into a sorted list, after all that are not greater. -/
def insertSorted (v : Value) : List Value → Outcome (List Value)
  | [] => .ok [v]
  | w :: ws => do
    if ← compare .lt v w then
      return v :: w :: ws
    return w :: (← insertSorted v ws)

/-- Sorts a list in ascending order. Equal values keep their order. -/
def sort (vs : List Value) : Outcome (List Value) :=
  vs.foldlM (fun sorted v => insertSorted v sorted) []

/-- The values of a list without repetitions, in order of first appearance. All have
to be possible keys. -/
def distinct (vs : List Value) : Outcome (List Value) :=
  match firstObstacle? vs with
  | some kind => .error (.mismatch (.key kind))
  | none => .ok (vs.foldl (fun found v => if found.any (same · v) then found else found ++ [v]) [])

/-- The sum of a list, starting from the zero delta. -/
def sum (vs : List Value) : Outcome Value := vs.foldlM add (delta Delta.zero)

end CivilTime.Value
