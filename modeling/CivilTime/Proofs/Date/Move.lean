import CivilTime.Proofs.Delta.Count
import CivilTime.Proofs.LocalDateTime.Difference

/-!
# Moving dates by days

There are six ways to move a date by days: forward and back by a count of days or by the whole days
of a delta, and to the next day and the one before. All of them add a number to that of the day, and
fail exactly where this leads out of the supported range. So one move after the other is the move by
both numbers, and each move has one that leads back.
-/

namespace CivilTime

namespace Value

theorem ofOption_eq_date_iff {r : Option Date} {d : Date} :
    Except.ok (ofOption date r) = (.ok (date d) : Outcome Value) ↔ r = some d := by
  cases r with
  | none => simp [ofOption]
  | some e => simp [ofOption]

theorem ofOption_eq_nothing_iff {r : Option Date} :
    Except.ok (ofOption date r) = (.ok nothing : Outcome Value) ↔ r = none := by
  cases r with
  | none => simp [ofOption]
  | some e => simp [ofOption]

end Value

namespace Date

variable {d e : Date} {m n : Int}

/-! ## Adding days -/

/-- Going on from a day that was reached is going all the way from the start. -/
theorem addDays?_of_eq_some (hd : d.InRange) (h : d.addDays? m = some e) (n : Int) :
    e.addDays? n = d.addDays? (m + n) := by
  obtain ⟨he, hnumber⟩ := (addDays?_eq_some_iff hd).mp h
  refine Option.ext fun day => ?_
  rw [addDays?_eq_some_iff he, addDays?_eq_some_iff hd, hnumber, Int.add_assoc]

/-- Beyond an end of the range there is nothing farther on either. -/
theorem addDays?_eq_none_of_beyond (hd : d.InRange) (h : d.addDays? m = none)
    (hsign : 0 ≤ m ∧ 0 ≤ n ∨ m ≤ 0 ∧ n ≤ 0) : d.addDays? (m + n) = none := by
  have hbounds := hd.dayNumber_bounds
  rw [addDays?_eq_none_iff hd] at h ⊢
  omega

theorem addDays?_eq_some_comm (hd : d.InRange) (he : e.InRange) :
    d.addDays? n = some e ↔ e.addDays? (-n) = some d := by
  rw [addDays?_eq_some_iff hd, addDays?_eq_some_iff he, and_iff_right hd, and_iff_right he]
  omega

/-! ## Moves -/

/-- The ways to move a date by days. -/
inductive Move where
  | addDays (n : Days)
  | subDays (n : Days)
  | addDelta (x : Delta) (hx : x.Canonical)
  | subDelta (x : Delta) (hx : x.Canonical)
  | succ
  | pred

namespace Move

open Value (date days delta ofOption)

/-- The number of days that a move adds. Of a delta these are the whole days, rounded toward
zero. -/
def count : Move → Int
  | addDays n => n.count
  | subDays n => -n.count
  | addDelta x _ => x.total.tdiv Delta.Scale.days.nanos
  | subDelta x _ => -x.total.tdiv Delta.Scale.days.nanos
  | succ => 1
  | pred => -1

/-- The move in the other direction. -/
def reverse : Move → Move
  | addDays n => subDays n
  | subDays n => addDays n
  | addDelta x hx => subDelta x hx
  | subDelta x hx => addDelta x hx
  | succ => pred
  | pred => succ

/-- The operation of the calculator for a move. It gives a date or nothing. -/
def call : Move → Date → Outcome Value
  | addDays n, d => DateOp.addDays.eval [date d, days n]
  | subDays n, d => DateOp.subDays.eval [date d, days n]
  | addDelta x _, d => DateOp.addDelta.eval [date d, delta x]
  | subDelta x _, d => DateOp.subDelta.eval [date d, delta x]
  | succ, d => DateOp.succ.eval [date d]
  | pred, d => DateOp.pred.eval [date d]

@[simp] theorem count_reverse (m : Move) : m.reverse.count = -m.count := by
  cases m with
  | addDays | addDelta | succ => rfl
  | subDays | subDelta | pred => exact (Int.neg_neg _).symm

/-- The whole days of a difference are the days between the dates. -/
theorem count_addDelta_since (d e : Date) :
    (addDelta (e.since d) (canonical_since e d)).count = e.dayNumber - d.dayNumber := by
  rw [count, total_since]
  exact Int.mul_tdiv_cancel _ (by decide)

/-- Every move adds its number of days. -/
theorem call_eq (hd : d.IsReal) (m : Move) :
    m.call d = .ok (ofOption date (d.addDays? m.count)) := by
  cases m with
  | addDays n | subDays n =>
    rw [call, DateOp.eval, requireMove_of_isReal hd]
    rfl
  | addDelta x hx | subDelta x hx =>
    rw [call, DateOp.eval, requireMove_of_isReal hd, count, ← Delta.wholeDays_eq_tdiv hx]
    rfl
  | succ | pred =>
    rw [call, DateOp.eval, requirePlace_of_isReal hd]
    rfl

theorem call_eq_date_iff (hd : d.IsReal) (m : Move) :
    m.call d = .ok (date e) ↔ d.addDays? m.count = some e := by
  rw [call_eq hd, Value.ofOption_eq_date_iff]

theorem call_eq_nothing_iff (hd : d.IsReal) (m : Move) :
    m.call d = .ok .nothing ↔ d.addDays? m.count = none := by
  rw [call_eq hd, Value.ofOption_eq_nothing_iff]

end Move

end Date

namespace Value

open Date (Move)

variable {d e : Date}

/-! ## Operators

Where a move gives nothing, an operator fails. -/

/-- Going on with days in the same direction is going all the way, also where it fails. -/
theorem orExceeds_addDays?_bind (hd : d.InRange) {m n : Int}
    (hsign : 0 ≤ m ∧ 0 ≤ n ∨ m ≤ 0 ∧ n ≤ 0) {limit : Limit} {next : Value → Outcome Value}
    (hnext : ∀ e : Date, e.IsReal → next (date e) = date <$> orExceeds (e.addDays? n) limit) :
    (date <$> orExceeds (d.addDays? m) limit) >>= next =
      date <$> orExceeds (d.addDays? (m + n)) limit := by
  cases h : d.addDays? m with
  | none =>
    rw [Date.addDays?_eq_none_of_beyond hd h hsign]
    rfl
  | some e =>
    have he := ((Date.addDays?_eq_some_iff hd).mp h).1
    rw [← Date.addDays?_of_eq_some hd h]
    exact hnext e he.2

theorem add_days_eq (hd : d.IsReal) (n : Days) :
    add (date d) (days n) =
      date <$> orExceeds (d.addDays? n.count) (exceeds .add .date .days false) := by
  rw [add, Date.requireMove_of_isReal hd]
  rfl

theorem sub_days_eq (hd : d.IsReal) (n : Days) :
    sub (date d) (days n) =
      date <$> orExceeds (d.addDays? (-n.count)) (exceeds .sub .date .days false) := by
  rw [sub, Date.requireMove_of_isReal hd]
  rfl

theorem add_days_add_days (hd : d.InRange) {m n : Days} (hm : 0 ≤ m.count) (hn : 0 ≤ n.count) :
    (add (date d) (days m) >>= fun v => add v (days n)) =
      add (date d) (days ⟨m.count + n.count⟩) := by
  rw [add_days_eq hd.2, add_days_eq hd.2]
  exact orExceeds_addDays?_bind hd (.inl ⟨hm, hn⟩) fun e he => add_days_eq he n

theorem sub_days_sub_days (hd : d.InRange) {m n : Days} (hm : 0 ≤ m.count) (hn : 0 ≤ n.count) :
    (sub (date d) (days m) >>= fun v => sub v (days n)) =
      sub (date d) (days ⟨m.count + n.count⟩) := by
  rw [sub_days_eq hd.2, sub_days_eq hd.2, Int.neg_add]
  exact orExceeds_addDays?_bind hd (.inr ⟨by omega, by omega⟩) fun e he => sub_days_eq he n

/-- Each move of a date by days gives the day whose number is that of the date and the days of the
move together, and nothing exactly if the supported range has no such day. One move after another
is any move by the days of both, each move has another one that leads back, and sums and
differences with days are joined alike. The difference of two dates leads from one to the other. -/
theorem days_move_dates (hd : d.InRange) :
    (∀ m : Move,
      (∀ e, m.call d = .ok (date e) ↔ e.InRange ∧ e.dayNumber = d.dayNumber + m.count) ∧
      (m.call d = .ok nothing ↔ ¬(Date.min.dayNumber ≤ d.dayNumber + m.count ∧
        d.dayNumber + m.count ≤ Date.max.dayNumber))) ∧
    (∀ m n both : Move, both.count = m.count + n.count → ∀ e, m.call d = .ok (date e) →
      n.call e = both.call d) ∧
    (∀ (m : Move) (e), e.InRange → (m.call d = .ok (date e) ↔ m.reverse.call e = .ok (date d))) ∧
    (∀ m n : Days, m.InRange → n.InRange →
      (add (date d) (days m) >>= fun v => add v (days n)) =
        add (date d) (days ⟨m.count + n.count⟩) ∧
      (sub (date d) (days m) >>= fun v => sub v (days n)) =
        sub (date d) (days ⟨m.count + n.count⟩)) ∧
    ∀ e, e.InRange → DateOp.since.eval [date e, date d] = .ok (delta (e.since d)) ∧
      DateOp.addDelta.eval [date d, delta (e.since d)] = .ok (date e) := by
  refine ⟨fun m => ⟨fun e => ?day, ?none⟩, ?composed, ?reversed, ?operators, ?difference⟩
  case day => rw [m.call_eq_date_iff hd.2, Date.addDays?_eq_some_iff hd]
  case none => rw [m.call_eq_nothing_iff hd.2, Date.addDays?_eq_none_iff hd]
  case composed =>
    intro m n both hboth e h
    rw [m.call_eq_date_iff hd.2] at h
    have he := ((Date.addDays?_eq_some_iff hd).mp h).1
    rw [n.call_eq he.2, both.call_eq hd.2, Date.addDays?_of_eq_some hd h, hboth]
  case reversed =>
    intro m e he
    rw [m.call_eq_date_iff hd.2, m.reverse.call_eq_date_iff he.2, Move.count_reverse]
    exact Date.addDays?_eq_some_comm hd he
  case operators =>
    intro m n hm hn
    exact ⟨add_days_add_days hd hm.1 hn.1, sub_days_sub_days hd hm.1 hn.1⟩
  case difference =>
    intro e he
    refine ⟨betweenDates_of_isReal he.2 hd.2, ?_⟩
    refine ((Move.addDelta (e.since d) (Date.canonical_since e d)).call_eq_date_iff hd.2).mpr ?_
    rw [Move.count_addDelta_since, Date.addDays?_eq_some_iff hd]
    exact ⟨he, by omega⟩

/-- Around the leap day of the year zero: a day on, back by minus one and a half days, in one step
or two, and farther than the calendar reaches. -/
theorem days_move_dates_leap_day :
    let d : Date := ⟨0, 2, 28⟩
    let back : Delta := ⟨-129600, 0⟩
    ((Move.addDays ⟨1⟩).call d = .ok (date ⟨0, 2, 29⟩) ∧
      DateOp.subDelta.eval [date d, delta back] = .ok (date ⟨0, 2, 29⟩) ∧
      (Move.addDays ⟨maxU64⟩).call d = .ok nothing) ∧
    (Move.addDays ⟨2⟩).call ⟨0, 2, 29⟩ = (Move.addDays ⟨3⟩).call d ∧
    Move.pred.call ⟨0, 2, 29⟩ = .ok (date d) ∧
    (add (date d) (days ⟨1⟩) >>= fun v => add v (days ⟨2⟩)) = add (date d) (days ⟨3⟩) := by
  intro d back
  obtain ⟨hexact, hcomposed, hreversed, hoperators, -⟩ := days_move_dates (d := d) (by decide)
  have hday : (Move.addDays ⟨1⟩).call d = .ok (date ⟨0, 2, 29⟩) :=
    ((hexact _).1 _).mpr ⟨by decide, by decide⟩
  have hsucc : Move.succ.call d = .ok (date ⟨0, 2, 29⟩) :=
    ((hexact _).1 _).mpr ⟨by decide, by decide⟩
  refine ⟨⟨hday, ?_, ((hexact _).2).mpr (by decide)⟩, ?_, ?_, ?_⟩
  · exact ((hexact (.subDelta back (by decide))).1 _).mpr ⟨by decide, by decide⟩
  · exact hcomposed (.addDays ⟨1⟩) (.addDays ⟨2⟩) (.addDays ⟨3⟩) (by decide) _ hday
  · exact (hreversed .succ _ (by decide)).mp hsucc
  · exact (hoperators ⟨1⟩ ⟨2⟩ ⟨by decide, by decide⟩ ⟨by decide, by decide⟩).1

end Value

end CivilTime
