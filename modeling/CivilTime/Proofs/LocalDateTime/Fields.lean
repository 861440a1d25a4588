import Mathlib.Logic.Function.Basic
import CivilTime.Calculator.Operation
import CivilTime.Proofs.TimeOfDay.Grammar
import CivilTime.Proofs.TimeOfDay.Validity

/-!
# Replacing fields

A valid time of day is made of the values of its four fields, and of no others. Replacing one of
them in the packed seconds is making the time anew with another value in its place: the two succeed
alike, although a replacement only checks what it touches. In a datetime, replacing a field of the
time leaves the date alone, and the other way round.
-/

namespace CivilTime

namespace TimeOfDay

/-- The fields that times of day are made of. -/
inductive Field where
  | hour | minute | second | nanosecond
  deriving DecidableEq, Repr

/-- The value of a field. -/
def field (t : TimeOfDay) : Field → Int
  | .hour => t.hour
  | .minute => t.minute
  | .second => t.second
  | .nanosecond => t.frac

/-- Makes a time of the values of its fields. -/
def ofFields (v : Field → Int) : Outcome TimeOfDay :=
  new? (v .hour) (v .minute) (v .second) (v .nanosecond)

/-- Replaces the value of a field. -/
def replace (t : TimeOfDay) : Field → Int → Outcome TimeOfDay
  | .hour => t.withHour
  | .minute => t.withMinute
  | .second => t.withSecond
  | .nanosecond => t.withNanosecond

variable {t u : TimeOfDay} {f : Field} {x : Int} {v : Field → Int}

theorem field_eq_iff :
    t.field = v ↔ (t.hour = v .hour ∧ t.minute = v .minute) ∧ t.second = v .second ∧
      t.frac = v .nanosecond := by
  refine ⟨fun h => h ▸ ⟨⟨rfl, rfl⟩, rfl, rfl⟩, fun ⟨⟨hhour, hminute⟩, hsecond, hfrac⟩ => ?_⟩
  funext f
  cases f with
  | hour => exact hhour
  | minute => exact hminute
  | second => exact hsecond
  | nanosecond => exact hfrac

/-! ## Making times -/

theorem ofFields_field (ht : t.Valid) : ofFields t.field = .ok t := new?_of_valid ht

theorem gives_ofFields (v : Field → Int) : Gives (ofFields v) fun u => u.Valid ∧ u.field = v := by
  intro u h
  refine ⟨gives_new? _ _ _ _ u h, field_eq_iff.mpr ?_⟩
  obtain ⟨hbounds, -, -, rfl⟩ := new?_eq_ok.mp h
  simp only [hour, minute, second, and_true]
  omega

/-- A time of the values is a valid one that has them. -/
theorem ofFields_eq_ok_iff : ofFields v = .ok u ↔ u.Valid ∧ u.field = v := by
  refine ⟨gives_ofFields v u, ?_⟩
  rintro ⟨hu, rfl⟩
  exact ofFields_field hu

/-! ## Replacing a field -/

theorem gives_replace_valid (ht : t.Valid) (f : Field) (x : Int) :
    Gives (t.replace f x) Valid := by
  cases f with
  | hour => exact kept_valid.gives_withHour ht x
  | minute => exact kept_valid.gives_withMinute ht x
  | second => exact kept_valid.gives_withSecond ht x
  | nanosecond => exact kept_valid.gives_withNanosecond ht x

/-- The field has the new value, and the others have kept theirs. -/
theorem gives_replace_field (t : TimeOfDay) (f : Field) (x : Int) :
    Gives (t.replace f x) (·.field = Function.update t.field f x) := by
  intro u h
  rw [field_eq_iff]
  cases f with
  | hour =>
    simp only [replace, withHour, bind_eq_ok, require_eq_ok, pure_eq_ok] at h
    obtain ⟨-, hx, rfl⟩ := h
    change (_ = x ∧ _ = t.minute) ∧ _ = t.second ∧ t.frac = t.frac
    simp only [hour, minute, second, and_true]
    omega
  | minute =>
    simp only [replace, withMinute, bind_eq_ok, require_eq_ok, pure_eq_ok] at h
    obtain ⟨-, hx, rfl⟩ := h
    change (_ = t.hour ∧ _ = x) ∧ _ = t.second ∧ t.frac = t.frac
    simp only [hour, minute, second, and_true]
    omega
  | second =>
    simp only [replace, withSecond, bind_eq_ok, require_eq_ok, pure_eq_ok] at h
    obtain ⟨-, hx, -, -, rfl⟩ := h
    change (_ = t.hour ∧ _ = t.minute) ∧ _ = x ∧ t.frac = t.frac
    simp only [hour, minute, second, and_true]
    omega
  | nanosecond =>
    simp only [replace, withNanosecond, bind_eq_ok, require_eq_ok, pure_eq_ok] at h
    obtain ⟨-, -, -, -, rfl⟩ := h
    exact ⟨⟨rfl, rfl⟩, rfl, rfl⟩

/-- A value is accepted for a field if some valid time has it beside the other fields. -/
theorem exists_replace (hu : u.Valid) (h : u.field = Function.update t.field f x) :
    ∃ w, t.replace f x = .ok w := by
  obtain ⟨hsecs, hfrac, hleap⟩ := hu
  simp only [secondsPerDay, InLeapSecond] at hsecs hleap
  obtain ⟨⟨hhour, hminute⟩, hsecond, hnanos⟩ := field_eq_iff.mp h
  simp only [hour, minute, second] at hhour hminute hsecond
  cases f with
  | hour =>
    change _ = x at hhour
    simp only [replace, withHour, bind_eq_ok, require_eq_ok, pure_eq_ok]
    exact ⟨_, ⟨⟩, by omega, rfl⟩
  | minute =>
    change _ = x at hminute
    simp only [replace, withMinute, bind_eq_ok, require_eq_ok, pure_eq_ok]
    exact ⟨_, ⟨⟩, by omega, rfl⟩
  | second =>
    change u.secs % 60 = x at hsecond
    change u.frac = t.frac at hnanos
    have hkept : t.InLeapSecond → x = 59 := by
      rw [InLeapSecond, ← hnanos, ← hsecond]
      exact hleap
    simp only [replace, withSecond, bind_eq_ok, require_eq_ok, pure_eq_ok]
    exact ⟨_, ⟨⟩, by omega, ⟨⟩, hkept, rfl⟩
  | nanosecond =>
    change _ = t.secs % 60 at hsecond
    change _ = x at hnanos
    simp only [replace, withNanosecond, bind_eq_ok, require_eq_ok, pure_eq_ok]
    exact ⟨_, ⟨⟩, by omega, ⟨⟩, by omega, rfl⟩

/-- Replacing a field is making the time with the value in its place. -/
theorem replace_eq_ok_iff (ht : t.Valid) :
    t.replace f x = .ok u ↔ ofFields (Function.update t.field f x) = .ok u := by
  rw [ofFields_eq_ok_iff]
  refine ⟨fun h => ⟨gives_replace_valid ht f x u h, gives_replace_field t f x u h⟩, ?_⟩
  rintro ⟨hu, hfields⟩
  obtain ⟨w, hw⟩ := exists_replace hu hfields
  have hsame : ofFields u.field = .ok w :=
    ofFields_eq_ok_iff.mpr ⟨gives_replace_valid ht f x w hw,
      (gives_replace_field t f x w hw).trans hfields.symm⟩
  rw [ofFields_field hu] at hsame
  exact hw.trans hsame.symm

/-! ## The operations on fields -/

namespace Field

open Value (integer time localDateTime)

/-- The operation that reads a field. -/
def getter : Field → TimeOp
  | hour => .hour
  | minute => .minute
  | second => .second
  | nanosecond => .nanosecond

/-- The operation that replaces a field. -/
def setter : Field → TimeOp
  | hour => .withHour
  | minute => .withMinute
  | second => .withSecond
  | nanosecond => .withNanosecond

/-- The operation that replaces a field in a datetime. -/
def localSetter : Field → LocalOp
  | hour => .withHour
  | minute => .withMinute
  | second => .withSecond
  | nanosecond => .withNanosecond

/-- The arguments that a time is made of. -/
def arguments (v : Field → Int) : List Value :=
  [integer (v .hour), integer (v .minute), integer (v .second), integer (v .nanosecond)]

theorem eval_new (v : Field → Int) : TimeOp.new.eval (arguments v) = time <$> ofFields v := rfl

theorem eval_getter (f : Field) (t : TimeOfDay) :
    f.getter.eval [time t] = .ok (integer (t.field f)) := by
  cases f <;> rfl

theorem eval_setter (f : Field) (t : TimeOfDay) (v : Value) :
    f.setter.eval [time t, v] = v.asInteger >>= fun x => time <$> t.replace f x := by
  cases f <;> rfl

theorem eval_localSetter (f : Field) (d : LocalDateTime) (v : Value) :
    f.localSetter.eval [localDateTime d, v] =
      v.asInteger >>= fun x => localDateTime <$> d.mapTime (·.replace f x) := by
  cases f <;> rfl

end Field

end TimeOfDay

/-! ## Dates and datetimes -/

namespace Date

/-- What can be replaced in a date. -/
inductive Field where
  | year | month | day | ordinal
  deriving DecidableEq, Repr

/-- Replaces a part of a date. -/
def replace (d : Date) : Field → Int → Outcome Date
  | .year => d.withYear
  | .month => d.withMonth
  | .day => d.withDay
  | .ordinal => d.withOrdinal

namespace Field

open Value (date localDateTime)

/-- The operation that replaces a part of a date. -/
def setter : Field → DateOp
  | year => .withYear
  | month => .withMonth
  | day => .withDay
  | ordinal => .withOrdinal

/-- The operation that replaces a part of the date of a datetime. -/
def localSetter : Field → LocalOp
  | year => .withYear
  | month => .withMonth
  | day => .withDay
  | ordinal => .withOrdinal

theorem eval_setter (f : Field) (d : Date) (v : Value) :
    f.setter.eval [date d, v] = v.asInteger >>= fun x => date <$> d.replace f x := by
  cases f <;> rfl

theorem eval_localSetter (f : Field) (d : LocalDateTime) (v : Value) :
    f.localSetter.eval [localDateTime d, v] =
      v.asInteger >>= fun x => localDateTime <$> d.mapDate (·.replace f x) := by
  cases f <;> rfl

end Field

end Date

namespace Value

variable {t : TimeOfDay}

open TimeOfDay.Field (arguments eval_getter eval_new)

/-- In a datetime a field of the time is replaced as in the time alone, and the date is kept. -/
theorem eval_localSetter_time (f : TimeOfDay.Field) (d : LocalDateTime) (v : Value) :
    f.localSetter.eval [localDateTime d, v] =
      f.setter.eval [time d.time, v] >>= fun u => LocalOp.ofParts.eval [date d.date, u] := by
  rw [f.eval_localSetter, f.eval_setter]
  cases v.asInteger with
  | error fault => rfl
  | ok x =>
    rw [ok_bind, ok_bind, LocalDateTime.mapTime]
    cases d.time.replace f x <;> rfl

/-- In a datetime a part of the date is replaced as in the date alone, and the time is kept. -/
theorem eval_localSetter_date (f : Date.Field) (d : LocalDateTime) (v : Value) :
    f.localSetter.eval [localDateTime d, v] =
      f.setter.eval [date d.date, v] >>= fun e => LocalOp.ofParts.eval [e, time d.time] := by
  rw [f.eval_localSetter, f.eval_setter]
  cases v.asInteger with
  | error fault => rfl
  | ok x =>
    rw [ok_bind, ok_bind, LocalDateTime.mapDate]
    cases d.date.replace f x <;> rfl

theorem eval_setter_eq_ok_iff (ht : t.Valid) (f : TimeOfDay.Field) (x : Int) (v : Value) :
    f.setter.eval [time t, integer x] = .ok v ↔
      TimeOp.new.eval (arguments (Function.update t.field f x)) = .ok v := by
  rw [f.eval_setter, eval_new]
  simp only [asInteger, ok_bind, map_eq_ok, TimeOfDay.replace_eq_ok_iff ht]

/-- A field of a valid time is replaced exactly if a time can be made with the new value in its
place, and this is the result: the field reads as the new value, and the others read as before. A
time is what its own values make. A datetime keeps its date if a field of its time is replaced, and
its time if a part of its date is. -/
theorem setters_agree_with_making (ht : t.Valid) :
    (∀ (f : TimeOfDay.Field) (x : Int),
      (f.setter.eval [time t, integer x]).toOption =
        (TimeOp.new.eval (arguments (Function.update t.field f x))).toOption ∧
      Gives (f.setter.eval [time t, integer x]) fun u =>
        ∀ g : TimeOfDay.Field, g.getter.eval [u] =
          .ok (integer (Function.update t.field f x g))) ∧
    ((∀ f : TimeOfDay.Field, f.getter.eval [time t] = .ok (integer (t.field f))) ∧
      TimeOp.new.eval (arguments t.field) = .ok (time t)) ∧
    ∀ (d : LocalDateTime) (v : Value),
      (∀ f : TimeOfDay.Field, f.localSetter.eval [localDateTime d, v] =
        f.setter.eval [time d.time, v] >>= fun u => LocalOp.ofParts.eval [date d.date, u]) ∧
      ∀ f : Date.Field, f.localSetter.eval [localDateTime d, v] =
        f.setter.eval [date d.date, v] >>= fun e => LocalOp.ofParts.eval [e, time d.time] := by
  refine ⟨fun f x => ⟨?agree, ?read⟩, ⟨fun f => eval_getter f t, ?same⟩, fun d v =>
    ⟨fun f => eval_localSetter_time f d v, fun f => eval_localSetter_date f d v⟩⟩
  case agree =>
    ext v
    rw [toOption_eq_some, toOption_eq_some, eval_setter_eq_ok_iff ht]
  case read =>
    intro v hv g
    rw [eval_setter_eq_ok_iff ht, eval_new] at hv
    obtain ⟨u, hu, rfl⟩ := map_eq_ok.mp hv
    rw [eval_getter, (TimeOfDay.gives_ofFields _ u hu).2]
  case same =>
    rw [eval_new, TimeOfDay.ofFields_field ht]
    rfl

/-- In the leap second at the end of a day: no other second has it, another hour does, and its
datetime keeps the date. -/
theorem setters_agree_with_making_leap_second :
    let t : TimeOfDay := ⟨86399, 1500000000⟩
    ((TimeOp.withSecond.eval [time t, integer 58]).toOption = none ∧
      (TimeOp.new.eval [integer 23, integer 59, integer 58, integer 1500000000]).toOption = none) ∧
    (∃ u, TimeOp.withHour.eval [time t, integer 0] = .ok u ∧
      TimeOp.hour.eval [u] = .ok (integer 0) ∧
      TimeOp.nanosecond.eval [u] = .ok (integer 1500000000)) ∧
    TimeOp.new.eval [integer 23, integer 59, integer 59, integer 1500000000] = .ok (time t) ∧
    LocalOp.withHour.eval [localDateTime ⟨⟨2016, 12, 31⟩, t⟩, integer 0] =
      .ok (localDateTime ⟨⟨2016, 12, 31⟩, ⟨3599, 1500000000⟩⟩) := by
  intro t
  obtain ⟨hagree, ⟨-, hsame⟩, hlocal⟩ := setters_agree_with_making (t := t) (by decide)
  have hnone := (hagree .second 58).1
  have hread := (hagree .hour 0).2 (time ⟨3599, 1500000000⟩) rfl
  exact ⟨⟨hnone, rfl⟩, ⟨_, rfl, hread .hour, hread .nanosecond⟩, hsame,
    (hlocal ⟨⟨2016, 12, 31⟩, t⟩ (integer 0)).1 .hour⟩

end Value

end CivilTime
