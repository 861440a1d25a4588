import CivilTime.Calculator.Program
import CivilTime.Proofs.Calculator.Operations

/-!
# Sound runs

A program is fair if the values written in it are sound, and if on its way it neither
shifts a time by more than allowed nor reads a packed time unchecked. All that a fair
program reports is sound.

Times are always on the clock, and valid as long as no leap second is moved to another
second of the minute. Local times in a zone are moved as well, on the way to universal
time, by what the policy and the offset make together.
-/

namespace CivilTime

open Value Zone

/-! ## Shifts in zones -/

/-- The seconds by which a local time in a zone is moved to universal time. -/
def Zone.Table.shift? (z : Table) (t : LocalDateTime) (policy : Option Policy) (key : String) :
    Option Int := do
  let before ← (z.offsetFor false t).toOption
  let after ← (z.offsetFor true t).toOption
  let resolved ← (resolve (← policy) before after t.display key).toOption
  return resolved.2 - resolved.1

/-- The time that is moved to universal time when a local time is placed at an offset or
in a zone, with the seconds. -/
def localizeShift? (fs : Files) (s : Store) (t : LocalDateTime) (policy : Value) :
    Value → Option (TimeOfDay × Int)
  | .offset o => some (t.time, -o.secs)
  | .text key => do
    let zone ← (s.use fs key).1.toOption
    let k ← zone.table.shift? t (policyOf policy) key
    return (t.time, k)
  | _ => none

@[inherit_doc TimeOp.shift?]
def ZoneCommand.shift? (fs : Files) (s : Store) :
    ZoneCommand → List Value → Option (TimeOfDay × Int)
  | localize, [.localDateTime t, tz] => localizeShift? fs s t (.text "compatible") tz
  | localize, [.localDateTime t, tz, policy] => localizeShift? fs s t policy tz
  | _, _ => none

@[inherit_doc TimeOp.shift?]
def Command.shift? (fs : Files) (s : Store) : Command → List Value → Option (TimeOfDay × Int)
  | .operation op, args => op.shift? args
  | .zone command, args => command.shift? fs s args

/-! ## Fair programs -/

/-- The operation may be applied to the arguments. -/
def Operation.Fair (allowed : TimeOfDay → Int → Prop) (op : Operation) (args : List Value) : Prop :=
  op.Checked ∧ ∀ t k, op.shift? args = some (t, k) → allowed t k

/-- The command may be performed on the arguments. -/
def Command.Fair (allowed : TimeOfDay → Int → Prop) (fs : Files) (s : Store) :
    Command → List Value → Prop
  | .operation op, args => op.Fair allowed args
  | .zone command, args => ∀ t k, command.shift? fs s args = some (t, k) → allowed t k

mutual

/-- Values written in the argument are sound, and operations in it fair. -/
def Term.Fair (p : TimeOfDay → Prop) (allowed : TimeOfDay → Int → Prop)
    (results : List (Outcome Value)) : Term → Prop
  | .value v => v.Sound p
  | .list ts => Term.AllFair p allowed results ts
  | .apply op args => Term.AllFair p allowed results args ∧
      ∀ vs, Term.evalAll results args = .ok vs → op.Fair allowed vs
  | .result _ => True

@[inherit_doc Term.Fair]
def Term.AllFair (p : TimeOfDay → Prop) (allowed : TimeOfDay → Int → Prop)
    (results : List (Outcome Value)) : List Term → Prop
  | [] => True
  | t :: ts => Term.Fair p allowed results t ∧ Term.AllFair p allowed results ts

end

/-- The arguments of the step are fair, and so is what it does with them. -/
def Step.Fair (p : TimeOfDay → Prop) (allowed : TimeOfDay → Int → Prop) (fs : Files)
    (results : List (Outcome Value)) (s : Store) (step : Step) : Prop :=
  Term.AllFair p allowed results step.args ∧
    ∀ vs, Term.evalAll results step.args = .ok vs → step.command.Fair allowed fs s vs

/-- All steps from given results and a given store on are fair. -/
def FairFrom (p : TimeOfDay → Prop) (allowed : TimeOfDay → Int → Prop) (fs : Files) :
    List (Outcome Value) → Store → List Step → Prop
  | _, _, [] => True
  | results, s, step :: steps =>
    step.Fair p allowed fs results s ∧
      FairFrom p allowed fs (results ++ [(step.perform fs results s).1])
        (step.perform fs results s).2.1 steps

/-- All steps of a program are fair. -/
def Fair (p : TimeOfDay → Prop) (allowed : TimeOfDay → Int → Prop) (fs : Files)
    (steps : List Step) : Prop :=
  FairFrom p allowed fs [] Store.empty steps

variable {p : TimeOfDay → Prop} {allowed : TimeOfDay → Int → Prop}

/-! ## Arguments -/

section

variable {results : List (Outcome Value)}

theorem gives_resultOf (hr : ∀ r ∈ results, Gives r (Sound p)) (index : Nat) :
    Gives (resultOf results index) (Sound p) := by
  rw [resultOf]
  split
  case h_1 v hv => exact hr _ (List.mem_of_getElem? hv)
  case h_2 => exact gives_error

mutual

theorem Term.gives_eval (hp : TimeOfDay.Kept p allowed) (hr : ∀ r ∈ results, Gives r (Sound p)) :
    ∀ t : Term, t.Fair p allowed results → Gives (t.eval results) (Sound p)
  | .value _, h => gives_ok.mpr h
  | .list ts, h => (Term.gives_evalAll hp hr ts h).bind fun _ hvs => gives_pure.mpr hvs
  | .apply op args, h => gives_bind.mpr fun vs hvs =>
      op.gives_eval hp (Term.gives_evalAll hp hr args h.1 vs hvs) (h.2 vs hvs).2 (h.2 vs hvs).1
  | .result index, _ => gives_resultOf hr index

theorem Term.gives_evalAll (hp : TimeOfDay.Kept p allowed) (hr : ∀ r ∈ results, Gives r (Sound p)) :
    ∀ ts : List Term, Term.AllFair p allowed results ts →
      Gives (Term.evalAll results ts) (AllSound p)
  | [], _ => gives_ok.mpr trivial
  | t :: ts, h => (Term.gives_eval hp hr t h.1).bind fun _ hv =>
      (Term.gives_evalAll hp hr ts h.2).bind fun _ hvs => gives_pure.mpr ⟨hv, hvs⟩

end

end

/-! ## Local times in zones -/

section

variable {t : LocalDateTime} {r : OffsetDateTime} {key : String}

theorem withOffset_time {o : Offset} (h : t.withOffset o = .ok r) :
    r.utc.time = (t.time.shift (-o.secs)).1 := by
  obtain ⟨utc, hutc, rfl⟩ := Option.map_eq_some_iff.mp (orExceeds_eq_ok.mp h)
  exact LocalDateTime.time_shifted? hutc

theorem withOffsets_time {policy : Policy} {before after : Int}
    (h : t.withOffsets policy before after key = .ok r) :
    ∃ resolved, resolve policy before after t.display key = .ok resolved ∧
      r.utc.time = (t.time.shift (resolved.2 - resolved.1)).1 := by
  simp only [LocalDateTime.withOffsets, bind_eq_ok, orExceeds_eq_ok] at h
  obtain ⟨resolved, hresolve, moved, hmoved, hr⟩ := h
  refine ⟨resolved, hresolve, ?_⟩
  rw [withOffset_time hr, LocalDateTime.time_shifted? hmoved]
  exact t.time.shift_shift _ _

theorem inZone_time {policy : Option Policy} {z : Table} (h : t.inZone policy z key = .ok r) :
    ∃ k, z.shift? t policy key = some k ∧ r.utc.time = (t.time.shift k).1 := by
  rw [LocalDateTime.inZone.eq_def] at h
  by_cases hyears : 1 ≤ t.date.year ∧ t.date.year ≤ 9999
  · simp only [if_neg (not_not_intro hyears)] at h
    obtain ⟨-, -, h⟩ := bind_eq_ok.mp h
    cases policy with
    | none => cases h
    | some policy =>
      simp only [bind_eq_ok] at h
      obtain ⟨before, hbefore, after, hafter, h⟩ := h
      obtain ⟨resolved, hresolve, htime⟩ := withOffsets_time h
      refine ⟨_, ?_, htime⟩
      simp [Zone.Table.shift?, hbefore, hafter, hresolve, Except.toOption]
  · simp only [if_pos hyears] at h
    cases h

end

/-! ## Steps -/

theorem pathValue_sound (s : Store) : (pathValue s).Sound p := by
  rw [pathValue, Sound, allSound_iff]
  intro v hv
  obtain ⟨path, -, rfl⟩ := List.mem_map.mp hv
  trivial

theorem gives_setPath (s : Store) (v : Value) : Gives (setPath s v).1 (Sound p) := by
  rw [setPath]
  split
  case h_1 => exact gives_ok.mpr (pathValue_sound _)
  case h_2 => exact gives_error

theorem gives_acquire (fs : Files) (s : Store) (v : Value) :
    Gives (acquire fs s v).1 (Sound p) := by
  rw [acquire.eq_def]
  split
  case h_1 key => exact gives_map.mpr (gives_of_forall fun _ => trivial)
  case h_2 =>
    split
    case h_1 => exact gives_error
    case h_2 => exact gives_then fun _ => gives_throw

theorem gives_clear (s : Store) (vs : List Value) : Gives (clear s vs).1 (Sound p) := by
  fun_cases clear s vs with
  | case1 | case2 => exact gives_ok.mpr trivial
  | case3 v _ _ keys =>
    rw [clearKeys]
    split
    case h_1 => exact gives_error
    case h_2 => exact gives_ok.mpr trivial
  | case4 => exact gives_error

/-- The moment at which it is `t` has the time of day of `t`, shifted. -/
theorem gives_localize (fs : Files) (s : Store) (t : LocalDateTime) (policy tz : Value) :
    Gives (localize fs s t policy tz).1 fun v =>
      ∃ k, localizeShift? fs s t policy tz = some (t.time, k) ∧ v.Shows (t.time.shift k).1 := by
  cases tz with
  | offset o =>
    refine gives_then fun _ => gives_map.mpr fun r hr => ⟨_, rfl, .inr fun p => ?_⟩
    rw [Sound, withOffset_time hr]
  | text key =>
    rw [localize]
    refine gives_bind.mpr fun zone hzone => gives_bind.mpr fun r hr => gives_pure.mpr ?_
    obtain ⟨k, hk, htime⟩ := inZone_time hr
    refine ⟨k, ?_, .inr fun p => ?_⟩
    · simp [localizeShift?, hzone, hk, Except.toOption]
    · rw [Sound, htime]
  | _ => exact gives_error

theorem ZoneCommand.gives_shifted {fs : Files} {s : Store} {command : ZoneCommand}
    {vs : List Value} {t : TimeOfDay} {k : Int} (h : command.shift? fs s vs = some (t, k)) :
    Gives (command.perform fs s vs).1 (Shows (t.shift k).1) := by
  rw [shift?.eq_def] at h
  split at h
  case h_1 u tz =>
    refine (gives_localize fs s u _ tz).mono ?_
    rintro v ⟨k', hk', hv⟩
    cases h.symm.trans hk'
    exact hv
  case h_2 u tz policy =>
    refine (gives_localize fs s u policy tz).mono ?_
    rintro v ⟨k', hk', hv⟩
    cases h.symm.trans hk'
    exact hv
  case h_3 => cases h

theorem ZoneCommand.gives_perform (hp : TimeOfDay.Kept p allowed) {fs : Files} {s : Store}
    {vs : List Value} (command : ZoneCommand) (h : AllSound p vs)
    (hshift : ∀ t k, command.shift? fs s vs = some (t, k) → allowed t k) :
    Gives (command.perform fs s vs).1 (Sound p) := by
  fun_cases ZoneCommand.perform fs s command vs with
  | case1 v => exact gives_setPath s v
  | case2 entries => exact gives_ok.mpr (pathValue_sound _)
  | case3 v => exact gives_acquire fs s v
  | case4 => exact gives_clear s vs
  | case5 t tz =>
    refine (gives_localize fs s t _ tz).mono ?_
    rintro v ⟨k, hk, hv⟩
    exact hv.sound (hp.shift h.1 (hshift _ _ hk))
  | case6 t tz policy =>
    refine (gives_localize fs s t policy tz).mono ?_
    rintro v ⟨k, hk, hv⟩
    exact hv.sound (hp.shift h.1 (hshift _ _ hk))
  | case7 => exact gives_error

theorem Step.gives_perform (hp : TimeOfDay.Kept p allowed) {fs : Files}
    {results : List (Outcome Value)} {s : Store} {step : Step}
    (hr : ∀ r ∈ results, Gives r (Sound p)) (h : step.Fair p allowed fs results s) :
    Gives (step.perform fs results s).1 (Sound p) := by
  obtain ⟨hargs, hcommand⟩ := h
  rw [Step.perform]
  split
  case h_1 => exact gives_error
  case h_2 vs hvs =>
    have hsound := Term.gives_evalAll hp hr step.args hargs vs hvs
    have hfair := hcommand vs hvs
    split
    case h_1 op hop =>
      rw [hop] at hfair
      exact op.gives_eval hp hsound hfair.2 hfair.1
    case h_2 command hc =>
      rw [hc] at hfair
      exact command.gives_perform hp hsound hfair

/-- A step that shifts a time gives the shifted time, if it gives one. -/
theorem Step.gives_shifted {fs : Files} {results : List (Outcome Value)} {s : Store} {step : Step}
    {vs : List Value} {t : TimeOfDay} {k : Int} (hvs : Term.evalAll results step.args = .ok vs)
    (h : step.command.shift? fs s vs = some (t, k)) :
    Gives (step.perform fs results s).1 (Shows (t.shift k).1) := by
  rw [Step.perform, hvs]
  rcases step with ⟨command | command, args⟩
  · exact Operation.gives_shifted h
  · exact ZoneCommand.gives_shifted h

/-! ## Runs -/

/-- With sound results so far, the remaining steps report sound results. -/
theorem sound_runFrom (hp : TimeOfDay.Kept p allowed) {fs : Files} {steps : List Step}
    {results : List (Outcome Value)} {s : Store} (hr : ∀ r ∈ results, Gives r (Sound p))
    (h : FairFrom p allowed fs results s steps) :
    ∀ report ∈ runFrom fs results s steps, Gives report.outcome (Sound p) := by
  induction steps generalizing results s with
  | nil =>
    intro report hreport
    cases hreport
  | cons step steps ih =>
    obtain ⟨hstep, hsteps⟩ := h
    have hresult := step.gives_perform hp hr hstep
    intro report hreport
    rcases List.mem_cons.mp hreport with rfl | hreport
    · exact hresult
    · refine ih ?_ hsteps report hreport
      intro r hmem
      rcases List.mem_append.mp hmem with hmem | hmem
      · exact hr r hmem
      · rw [List.mem_singleton.mp hmem]
        exact hresult

theorem sound_run (hp : TimeOfDay.Kept p allowed) {fs : Files} {steps : List Step}
    (h : Fair p allowed fs steps) : ∀ report ∈ run fs steps, Gives report.outcome (Sound p) :=
  sound_runFrom hp (fun _ hr => nomatch hr) h

/-! ## Valid times -/

section

open TimeOfDay

/-- The times that a program reports are on the clock, whatever it shifts them by. -/
theorem onClock_run {fs : Files} {steps : List Step} (h : Fair OnClock (fun _ _ => True) fs steps) :
    ∀ report ∈ run fs steps, Gives report.outcome (Sound OnClock) :=
  sound_run kept_onClock h

/-- Valid times stay valid, except for a leap second that a shift takes away from the end
of a minute. This is the case in single operations and in whole programs. A step with
such a shift gives a time that is not valid, if it gives one. -/
theorem valid_throughout {t : TimeOfDay} (ht : t.Valid) {x : Delta} (hx : x.Canonical) (o : Offset)
    (hour minute second nanosecond : Int) (text : String) {m : Micro.Time} (hm : m.InRange) :
    ((t.addDelta x).1.Valid ∧ (t.subDelta x).1.Valid) ∧
    (((t.addOffset o).1.Valid ↔ t.KeepsSecond o.secs) ∧
      ((t.subOffset o).1.Valid ↔ t.KeepsSecond o.secs)) ∧
    (Gives (t.withHour hour) Valid ∧ Gives (t.withMinute minute) Valid ∧
      Gives (t.withSecond second) Valid ∧ Gives (t.withNanosecond nanosecond) Valid) ∧
    (Gives (new? hour minute second nanosecond) Valid ∧ Gives (parse text) Valid ∧
      Gives (ofMicro m) Valid) ∧
    (∀ fs steps, Fair Valid KeepsSecond fs steps →
      ∀ report ∈ run fs steps, Gives report.outcome (Sound Valid)) ∧
    ∀ (fs : Files) results s (step : Step) vs k, Term.evalAll results step.args = .ok vs →
      step.command.shift? fs s vs = some (t, k) →
      Gives (step.perform fs results s).1 fun v =>
        v = .nothing ∨ (v.Sound Valid ↔ t.KeepsSecond k) := by
  refine ⟨?sums, ?shifts, ?fields, ?made, ?runs, ?steps⟩
  case sums => exact ⟨kept_valid.addDelta ht hx, kept_valid.subDelta ht hx⟩
  case shifts =>
    refine ⟨shift_valid_iff ht _, (shift_valid_iff ht _).trans ?_⟩
    exact keepsSecond_neg
  case fields =>
    exact ⟨kept_valid.gives_withHour ht hour, kept_valid.gives_withMinute ht minute,
      kept_valid.gives_withSecond ht second, kept_valid.gives_withNanosecond ht nanosecond⟩
  case made =>
    exact ⟨gives_new? hour minute second nanosecond, gives_parse text, gives_ofMicro hm⟩
  case runs =>
    intro fs steps hfair
    exact sound_run kept_valid hfair
  case steps =>
    intro fs results s step vs k hvs hshift
    refine (step.gives_shifted hvs hshift).mono fun v hv => hv.imp_right fun hv => ?_
    exact (hv Valid).trans (shift_valid_iff ht k)

theorem valid_throughout_leap_second :
    (⟨86399, 1500000000⟩ : TimeOfDay).Valid ∧
    ((⟨86399, 1500000000⟩ : TimeOfDay).addDelta ⟨-1, 0⟩).1.Valid ∧
    ((⟨86399, 1500000000⟩ : TimeOfDay).addOffset ⟨-5400⟩).1.Valid ∧
    ∀ report ∈ run ⟨[], []⟩ [⟨.operation (.time .addOffset),
        [.value (.time ⟨86399, 1500000000⟩), .value (.offset ⟨-5400⟩)]⟩],
      Gives report.outcome (Sound Valid) := by
  have ht : (⟨86399, 1500000000⟩ : TimeOfDay).Valid := by decide
  obtain ⟨⟨hadd, -⟩, ⟨hshift, -⟩, -, -, hruns, -⟩ :=
    valid_throughout ht (x := ⟨-1, 0⟩) (by decide) ⟨-5400⟩ 23 59 59 0 "23:59:60"
      (m := ⟨23, 59, 59, 0, none⟩) (by simp [Micro.Time.InRange])
  refine ⟨ht, hadd, hshift.mpr (by decide), hruns _ _ ⟨⟨⟨ht, trivial, trivial⟩, ?_⟩, trivial⟩⟩
  intro vs hvs
  cases hvs
  refine ⟨trivial, fun u k h => ?_⟩
  cases h
  decide

/-- An offset of one second takes a leap second into the next minute. -/
theorem addOffset_leap_second_moved :
    ¬∀ (t : TimeOfDay) (o : Offset), t.Valid → o.InRange → (t.addOffset o).1.Valid := by
  intro h
  have hmoved := h ⟨86399, 1000000000⟩ ⟨1⟩ (by decide) ⟨by decide, by decide⟩
  revert hmoved
  decide

end

end CivilTime
