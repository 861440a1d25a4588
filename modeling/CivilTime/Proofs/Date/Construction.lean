import CivilTime.Date.Text
import CivilTime.Proofs.Date.Grammar
import CivilTime.Proofs.Date.Succession
import CivilTime.Proofs.Micro

/-!
# The dates that can be made

Dates are made of year, month and day, of texts and of dates with microseconds, are moved by
days and months, and have parts replaced. Whatever is made is a day of the supported range, and
every such day is made of its own numbers. The days right before and after the range are not
among them: they only arise as local dates.
-/

namespace CivilTime.Date

open Calendar

variable {d e : Date}

/-- The date is the result of some calls. Moving by a delta, and to the next day or the day
before, is moving by days. -/
inductive Made : Date → Prop
  | new {year month day : Int} {d : Date} (h : new? year month day = .ok d) : Made d
  | parse {s : String} {d : Date} (h : parse s = .ok d) : Made d
  | ofMicro {m : Micro.Date} (hm : m.InRange) : Made (ofMicro m)
  | min : Made min
  | max : Made max
  | addDays {d e : Date} {n : Int} (hd : Made d) (h : d.addDays? n = some e) : Made e
  | addMonths {d e : Date} {m : Months} (hd : Made d) (h : d.addMonths? m = some e) : Made e
  | subMonths {d e : Date} {m : Months} (hd : Made d) (h : d.subMonths? m = some e) : Made e
  | withYear {d e : Date} {year : Int} (hd : Made d) (h : d.withYear year = .ok e) : Made e
  | withMonth {d e : Date} {month : Int} (hd : Made d) (h : d.withMonth month = .ok e) : Made e
  | withDay {d e : Date} {day : Int} (hd : Made d) (h : d.withDay day = .ok e) : Made e
  | withOrdinal {d e : Date} {n : Int} (hd : Made d) (h : d.withOrdinal n = .ok e) : Made e

theorem gives_new?_inRange (year month day : Int) : Gives (new? year month day) InRange := by
  intro d h
  obtain ⟨hrange, rfl⟩ := new?_eq_ok.mp h
  exact hrange

theorem gives_parse_inRange (s : String) : Gives (parse s) InRange := by
  intro d h
  obtain ⟨-, -, -, -, hrange⟩ := parse_eq_ok_iff_text.mp h
  exact hrange

theorem inRange_ofMicro {m : Micro.Date} (hm : m.InRange) : (ofMicro m).InRange := by
  obtain ⟨hyear, hreal⟩ := hm
  refine ⟨?_, hreal⟩
  simp only [YearInRange, ofMicro, minYear, maxYear]
  omega

/-! ## Months -/

/-- The day of the month becomes one that the month has. -/
theorem isReal_shiftMonths (h : d.IsReal) (n : Int) : (d.shiftMonths n).IsReal := by
  have hmonth : 1 ≤ (d.month - 1 + n) % 12 + 1 ∧ (d.month - 1 + n) % 12 + 1 ≤ 12 := by omega
  have hlast := one_le_daysInMonth (d.year + (d.month - 1 + n) / 12) hmonth
  have hday := h.2.1
  refine ⟨hmonth, ?_, ?_⟩
  · simp only [shiftMonths]
    omega
  · simp only [shiftMonths]
    omega

theorem inRange_shiftMonths? (hd : d.InRange) {n : Int} (h : d.shiftMonths? n = some e) :
    e.InRange := by
  rw [shiftMonths?] at h
  split at h
  case isTrue hyear =>
    obtain rfl := Option.some.inj h
    exact ⟨hyear, isReal_shiftMonths hd.2 n⟩
  case isFalse => cases h

/-- Either way of moving by months checks the number of months first. -/
theorem inRange_monthSteps (hd : d.InRange) {m : Months} {n : Int}
    (h : (if m.count = 0 then some d
      else if m.count > maxI32 then none else d.shiftMonths? n) = some e) : e.InRange := by
  split at h
  case isTrue => exact Option.some.inj h ▸ hd
  case isFalse =>
    split at h
    case isTrue => cases h
    case isFalse => exact inRange_shiftMonths? hd h

/-! ## What is made -/

theorem gives_withOrdinal_inRange (hd : d.InRange) (n : Int) :
    Gives (d.withOrdinal n) InRange := by
  intro e h
  simp only [withOrdinal, bind_eq_ok, require_eq_ok, pure_eq_ok] at h
  obtain ⟨-, hn, rfl⟩ := h
  exact ⟨hd.1, isReal_ofOrdinal hn⟩

theorem Made.inRange (h : d.Made) : d.InRange := by
  induction h with
  | new h => exact gives_new?_inRange _ _ _ _ h
  | parse h => exact gives_parse_inRange _ _ h
  | ofMicro hm => exact inRange_ofMicro hm
  | min => exact ⟨by decide, isReal_min⟩
  | max => exact ⟨by decide, isReal_max⟩
  | addDays _ h ihd => exact ((addDays?_eq_some_iff ihd).mp h).1
  | addMonths _ h ihd => exact inRange_monthSteps ihd h
  | subMonths _ h ihd => exact inRange_monthSteps ihd h
  | withYear _ h _ => exact gives_new?_inRange _ _ _ _ h
  | withMonth _ h _ => exact gives_new?_inRange _ _ _ _ h
  | withDay _ h _ => exact gives_new?_inRange _ _ _ _ h
  | withOrdinal _ h ihd => exact gives_withOrdinal_inRange ihd _ _ h

/-- The dates that can be made are those in range. -/
theorem made_iff_inRange : d.Made ↔ d.InRange :=
  ⟨Made.inRange, fun h => .new (new?_eq_ok.mpr ⟨h, rfl⟩)⟩

end CivilTime.Date
