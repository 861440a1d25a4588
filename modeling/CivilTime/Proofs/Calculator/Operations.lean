import CivilTime.Proofs.Calculator.Soundness

/-!
# Operations on sound values

Every operation of the calculator makes sound values of sound ones, with two provisos.
A shift of a time between local and universal time has to be allowed, and packed times
and datetimes, which are taken as they are, must not come from elsewhere.
-/

namespace CivilTime

open Value

/-! ## Shifts -/

/-- The time that an operation moves between local and universal time, with the seconds. -/
def TimeOp.shift? : TimeOp → List Value → Option (TimeOfDay × Int)
  | addOffset, [.time t, .offset o] => some (t, o.secs)
  | subOffset, [.time t, .offset o] => some (t, -o.secs)
  | _, _ => none

@[inherit_doc TimeOp.shift?]
def LocalOp.shift? : LocalOp → List Value → Option (TimeOfDay × Int)
  | addOffset, [.localDateTime t, .offset o] => some (t.time, o.secs)
  | addOffsetAnyway, [.localDateTime t, .offset o] => some (t.time, o.secs)
  | subOffset, [.localDateTime t, .offset o] => some (t.time, -o.secs)
  | subOffsetAnyway, [.localDateTime t, .offset o] => some (t.time, -o.secs)
  | _, _ => none

@[inherit_doc TimeOp.shift?]
def MomentOp.shift? : MomentOp → List Value → Option (TimeOfDay × Int)
  | localDateTime, [.offsetDateTime t] => some (t.utc.time, t.offset.secs)
  | _, _ => none

@[inherit_doc TimeOp.shift?]
def GeneralOp.shift? : GeneralOp → List Value → Option (TimeOfDay × Int)
  | arithmetic .add, [.localDateTime t, .offset o] => some (t.time, o.secs)
  | arithmetic .sub, [.localDateTime t, .offset o] => some (t.time, -o.secs)
  | _, _ => none

@[inherit_doc TimeOp.shift?]
def Operation.shift? : Operation → List Value → Option (TimeOfDay × Int)
  | time op, args => op.shift? args
  | localDateTime op, args => op.shift? args
  | moment op, args => op.shift? args
  | general op, args => op.shift? args
  | _, _ => none

/-- Packed data of this form is checked when it is read. -/
def Layout.Checked : Layout → Prop
  | time | localDateTime | offsetDateTime => False
  | _ => True

/-- The operation does not read packed data unchecked. -/
def Operation.Checked : Operation → Prop
  | general (.unpack layout) => layout.Checked
  | _ => True

variable {p : TimeOfDay → Prop} {allowed : TimeOfDay → Int → Prop} {args : List Value}

/-! ## Making values of several arguments -/

theorem gives_timeOf (hp : TimeOfDay.Kept p allowed) (hour minute second nanosecond : Value) :
    Gives (timeOf hour minute second nanosecond) p :=
  gives_then fun h => gives_then fun m => gives_then fun s => gives_then fun n =>
    (TimeOfDay.gives_new? h m s n).mono fun _ => hp.of_valid

theorem gives_returned {α : Type} {x : Outcome α} {make : α → Value}
    (h : Gives x fun a => (make a).Sound p) : Gives (x >>= fun a => pure (make a)) (Sound p) :=
  h.bind fun _ ha => gives_pure.mpr ha

@[simp] theorem sound_timeAndCarry {r : TimeOfDay × Int} : (timeAndCarry r).Sound p ↔ p r.1 := by
  simp [timeAndCarry, pair]

@[simp] theorem sound_integers (ns : List Int) : (integers ns).Sound p := by
  rw [integers, Sound, allSound_iff]
  intro v hv
  obtain ⟨n, -, rfl⟩ := List.mem_map.mp hv
  trivial

/-! ## The operations -/

theorem DeltaOp.gives_eval (op : DeltaOp) (h : AllSound p args) :
    Gives (op.eval args) (Sound p) := by
  fun_cases DeltaOp.eval op args with
  | case3 m => exact gives_returned (Delta.gives_ofMicro h.1)
  | case9 d => exact gives_ok.mpr (Delta.canonical_abs h.1)
  | case10 a b =>
    exact gives_ok.mpr (sound_ofOption.mpr fun d hd => Delta.canonical_add? h.1 h.2.1 hd)
  | case11 a b =>
    exact gives_ok.mpr (sound_ofOption.mpr fun d hd => Delta.canonical_sub? h.1 h.2.1 hd)
  | case12 d k =>
    refine gives_then fun n => gives_then fun k => gives_pure.mpr ?_
    exact sound_ofOption.mpr fun d hd => Delta.canonical_mul? hd
  | case13 d k =>
    refine gives_then fun n => gives_then fun k => gives_pure.mpr ?_
    exact sound_ofOption.mpr fun d hd => Delta.canonical_div? h.1 hd
  | case14 d => exact gives_returned (Delta.gives_toMicro h.1)
  | _ => simp

theorem SpanOp.gives_eval (op : SpanOp) (args : List Value) : Gives (op.eval args) (Sound p) := by
  fun_cases SpanOp.eval op args <;> simp

theorem OffsetOp.gives_eval (op : OffsetOp) (args : List Value) :
    Gives (op.eval args) (Sound p) := by
  fun_cases OffsetOp.eval op args <;> simp

theorem StepOp.gives_eval (op : StepOp) (args : List Value) : Gives (op.eval args) (Sound p) := by
  fun_cases StepOp.eval op args <;> simp

theorem DateOp.gives_eval (hp : TimeOfDay.Kept p allowed) (op : DateOp) (h : AllSound p args) :
    Gives (op.eval args) (Sound p) := by
  fun_cases DateOp.eval op args with
  | case21 a b => exact gives_betweenDates a b
  | case22 d t => exact gives_ok.mpr h.2.1
  | case23 d hour m s => exact gives_returned (gives_timeOf hp _ _ _ _)
  | case24 d hour m s n => exact gives_returned (gives_timeOf hp _ _ _ _)
  | case25 nanosPerUnit d hour m s n =>
    apply gives_then
    intro n
    exact gives_returned (gives_timeOf hp _ _ _ _)
  | _ => simp

theorem TimeOp.gives_eval (hp : TimeOfDay.Kept p allowed) (op : TimeOp) (h : AllSound p args)
    (hshift : ∀ t k, op.shift? args = some (t, k) → allowed t k) :
    Gives (op.eval args) (Sound p) := by
  fun_cases TimeOp.eval op args with
  | case1 => exact gives_returned (gives_timeOf hp _ _ _ _)
  | case2 m => exact gives_returned ((TimeOfDay.gives_ofMicro h.1).mono fun _ => hp.of_valid)
  | case4 v =>
    apply gives_then
    intro s
    exact gives_returned ((TimeOfDay.gives_parse s).mono fun _ => hp.of_valid)
  | case10 t x => exact gives_ok.mpr (sound_timeAndCarry.mpr (hp.addDelta h.1 h.2.1))
  | case11 t x => exact gives_ok.mpr (sound_timeAndCarry.mpr (hp.subDelta h.1 h.2.1))
  | case12 t o | case13 t o =>
    exact gives_ok.mpr (sound_timeAndCarry.mpr (hp.shift h.1 (hshift _ _ rfl)))
  | case14 a b => exact gives_ok.mpr (TimeOfDay.canonical_since a b)
  | case15 t n =>
    apply gives_then
    intro n
    exact gives_returned (hp.gives_withHour h.1 n)
  | case16 t n =>
    apply gives_then
    intro n
    exact gives_returned (hp.gives_withMinute h.1 n)
  | case17 t n =>
    apply gives_then
    intro n
    exact gives_returned (hp.gives_withSecond h.1 n)
  | case18 t n =>
    apply gives_then
    intro n
    exact gives_returned (hp.gives_withNanosecond h.1 n)
  | case19 t =>
    refine t.gives_toMicro.bind ?_
    intro m hm
    exact gives_pure.mpr (hm m.offset)
  | _ => simp

theorem LocalOp.gives_eval (hp : TimeOfDay.Kept p allowed) (op : LocalOp) (h : AllSound p args)
    (hshift : ∀ t k, op.shift? args = some (t, k) → allowed t k) :
    Gives (op.eval args) (Sound p) := by
  fun_cases LocalOp.eval op args with
  | case1 y m d rest =>
    apply gives_then
    intro date
    exact gives_returned (gives_timeOf hp _ _ _ _)
  | case2 d t => exact gives_ok.mpr h.2.1
  | case4 d => exact gives_ok.mpr (hp.of_valid TimeOfDay.valid_midnight)
  | case6 m => exact gives_returned ((LocalDateTime.gives_ofMicro h.1).mono fun _ => hp.of_valid)
  | case8 v =>
    apply gives_then
    intro s
    exact gives_returned ((LocalDateTime.gives_parse s).mono fun _ => hp.of_valid)
  | case18 t => exact gives_ok.mpr h.1
  | case19 t x =>
    refine gives_then fun _ => gives_pure.mpr ?_
    exact sound_ofOption.mpr fun u hu => hp.addDelta? h.1 h.2.1 hu
  | case20 t x =>
    refine gives_then fun _ => gives_pure.mpr ?_
    exact sound_ofOption.mpr fun u hu => hp.subDelta? h.1 h.2.1 hu
  | case21 t n | case22 t n =>
    exact gives_ok.mpr (sound_ofOption.mpr fun u hu => LocalDateTime.setDate?_keeps h.1 hu)
  | case23 t n | case24 t n =>
    refine gives_then fun _ => gives_pure.mpr ?_
    exact sound_ofOption.mpr fun u hu => LocalDateTime.setDate?_keeps h.1 hu
  | case25 t o | case26 t o =>
    refine gives_then fun _ => gives_pure.mpr ?_
    exact sound_ofOption.mpr fun u hu => hp.shifted? h.1 (hshift _ _ rfl) hu
  | case27 t o | case28 t o =>
    apply gives_then
    intro _
    exact gives_pure.mpr (hp.shift h.1 (hshift _ _ rfl))
  | case29 a b => exact gives_between a b
  | case30 t n | case31 t n | case32 t n | case33 t n =>
    apply gives_then
    intro n
    exact gives_returned (LocalDateTime.gives_mapDate h.1 _)
  | case34 t n =>
    apply gives_then
    intro n
    exact gives_returned (LocalDateTime.gives_mapTime (hp.gives_withHour h.1 n))
  | case35 t n =>
    apply gives_then
    intro n
    exact gives_returned (LocalDateTime.gives_mapTime (hp.gives_withMinute h.1 n))
  | case36 t n =>
    apply gives_then
    intro n
    exact gives_returned (LocalDateTime.gives_mapTime (hp.gives_withSecond h.1 n))
  | case37 t n =>
    apply gives_then
    intro n
    exact gives_returned (LocalDateTime.gives_mapTime (hp.gives_withNanosecond h.1 n))
  | case38 t => exact gives_ok.mpr h.1
  | case39 t =>
    refine t.gives_toMicro.bind ?_
    intro m hm
    exact gives_pure.mpr (hm m.time.offset)
  | _ => simp

theorem OffsetDateTime.gives_toMicro (t : OffsetDateTime) :
    Gives t.toMicro (·.time.InRange) :=
  t.localDateTime.gives_toMicro.bind fun _ hm => gives_then fun _ => gives_pure.mpr (hm _)

theorem MomentOp.gives_eval (hp : TimeOfDay.Kept p allowed) (op : MomentOp) (h : AllSound p args)
    (hshift : ∀ t k, op.shift? args = some (t, k) → allowed t k) :
    Gives (op.eval args) (Sound p) := by
  fun_cases MomentOp.eval op args with
  | case1 t o => exact gives_ok.mpr h.1
  | case3 t => exact gives_ok.mpr h.1
  | case4 t =>
    apply gives_then
    intro _
    exact gives_pure.mpr (hp.shift h.1 (hshift _ _ rfl))
  | case8 t x =>
    refine gives_then fun _ => gives_pure.mpr ?_
    exact sound_ofOption.mpr fun u hu => hp.utc_addDelta? h.1 h.2.1 hu
  | case9 t x =>
    refine gives_then fun _ => gives_pure.mpr ?_
    exact sound_ofOption.mpr fun u hu => hp.utc_subDelta? h.1 h.2.1 hu
  | case10 t =>
    apply gives_then
    intro _
    exact gives_returned t.gives_toMicro
  | _ => simp

theorem MicroOp.gives_eval (op : MicroOp) (args : List Value) : Gives (op.eval args) (Sound p) := by
  fun_cases MicroOp.eval op args with
  | case3 hour m s us offset =>
    apply gives_then
    intro offset
    refine (Micro.Time.gives_new? _ _ _ _).bind ?_
    intro t ht
    exact gives_pure.mpr (ht offset)
  | case4 y mo d hour m s us offset =>
    apply gives_then
    intro offset
    apply gives_then
    intro date
    refine (Micro.Time.gives_new? _ _ _ _).bind ?_
    intro t ht
    exact gives_pure.mpr (ht offset)
  | _ => simp

theorem CalendarOp.gives_eval (op : CalendarOp) (args : List Value) :
    Gives (op.eval args) (Sound p) := by
  fun_cases CalendarOp.eval op args <;> simp [dateFields]

theorem FieldsOp.gives_eval (op : FieldsOp) (args : List Value) :
    Gives (op.eval args) (Sound p) := by
  fun_cases FieldsOp.eval op args <;> simp

/-! ## Operations on values of all kinds -/

namespace Value

variable {v : Value} {vs : List Value}

theorem gives_elements (h : v.Sound p) : Gives v.elements (AllSound p) := by
  fun_cases elements v with
  | case1 vs | case2 vs => exact gives_ok.mpr h
  | case3 s =>
    refine gives_ok.mpr (allSound_iff.mpr fun w hw => ?_)
    obtain ⟨c, -, rfl⟩ := List.mem_map.mp hw
    trivial
  | case4 bs =>
    refine gives_ok.mpr (allSound_iff.mpr fun w hw => ?_)
    obtain ⟨b, -, rfl⟩ := List.mem_map.mp hw
    trivial
  | case5 v => exact gives_error

/-- A sum of a list is a delta all along. -/
theorem gives_sum (h : AllSound p vs) : Gives (sum vs) (Sound p) := by
  have hdelta : Gives (sum vs) fun v => ∃ d : Delta, v = delta d ∧ d.Canonical := by
    refine gives_foldlM ⟨Delta.zero, rfl, Delta.canonical_zero⟩ ?_
    rintro _ ⟨d, rfl, hd⟩ v hv
    have hsound := allSound_iff.mp h v hv
    cases v with
    | delta e =>
      refine gives_map.mpr (gives_orExceeds.mpr fun u hu => ⟨u, rfl, ?_⟩)
      exact Delta.canonical_add? hd hsound hu
    | _ => exact gives_error
  refine hdelta.mono ?_
  rintro _ ⟨d, rfl, hd⟩
  exact hd

theorem gives_insertSorted (hv : v.Sound p) (h : AllSound p vs) :
    Gives (insertSorted v vs) (AllSound p) := by
  induction vs with
  | nil => exact gives_ok.mpr ⟨hv, trivial⟩
  | cons w ws ih =>
    refine gives_then fun first => ?_
    cases first with
    | true => exact gives_pure.mpr ⟨hv, h⟩
    | false => exact (ih h.2).bind fun us hus => gives_pure.mpr ⟨h.1, hus⟩

theorem gives_sort (h : AllSound p vs) : Gives (sort vs) (AllSound p) := by
  refine gives_foldlM trivial fun sorted hsorted v hv => ?_
  exact gives_insertSorted (allSound_iff.mp h v hv) hsorted

theorem gives_distinct (h : AllSound p vs) : Gives (distinct vs) (AllSound p) := by
  have hfold (found : List Value) (hfound : AllSound p found) :
      AllSound p (vs.foldl (fun found v => if found.any (same · v) then found else found ++ [v])
        found) := by
    induction vs generalizing found with
    | nil => exact hfound
    | cons v vs ih =>
      rw [List.foldl_cons]
      refine ih h.2 _ ?_
      split
      · exact hfound
      · exact allSound_append.mpr ⟨hfound, h.1, trivial⟩
  rw [distinct]
  split
  · exact gives_error
  · exact gives_ok.mpr (hfold [] trivial)

theorem gives_pack (v : Value) : Gives v.pack (·.2.Sound p) := by
  fun_cases pack v <;> simp

theorem gives_unpack {layout : Layout} (h : layout.Checked) (v : Value) :
    Gives (unpack layout v) (Sound p) := by
  fun_cases unpack layout v with
  | case5 | case6 | case7 => exact h.elim
  | _ => simp

/-- What was packed is unpacked with the same time. -/
theorem gives_repack (h : v.Sound p) : Gives v.repack (Sound p) := by
  cases v with
  | time t =>
    simp only [repack, pack, gives_bind, gives_pure, unpack, gives_map]
    refine (gives_bind.mp t.gives_unpack_pack).mono fun bs hbs => hbs.mono fun u hu => ?_
    rw [hu]
    exact h
  | localDateTime t =>
    simp only [repack, pack, gives_bind, gives_pure, unpack, gives_map]
    refine (gives_bind.mp t.gives_unpack_pack).mono fun bs hbs => hbs.mono fun u hu => ?_
    rw [Sound, hu]
    exact h
  | offsetDateTime t =>
    simp only [repack, pack, gives_bind, gives_pure, unpack, gives_map]
    refine (gives_bind.mp t.gives_unpack_pack).mono fun bs hbs => hbs.mono fun u hu => ?_
    rw [Sound, hu]
    exact h
  | _ => simp [repack, pack, unpack]

end Value

theorem GeneralOp.gives_eval (hp : TimeOfDay.Kept p allowed) (op : GeneralOp) (h : AllSound p args)
    (hshift : ∀ t k, op.shift? args = some (t, k) → allowed t k)
    (hchecked : (Operation.general op).Checked) : Gives (op.eval args) (Sound p) := by
  fun_cases GeneralOp.eval op args with
  | case1 op a b =>
    cases op with
    | add => exact gives_add hp h.1 h.2.1 fun t o ht ho => hshift _ _ (by rw [ht, ho]; rfl)
    | sub => exact gives_sub hp h.1 h.2.1 fun t o ht ho => hshift _ _ (by rw [ht, ho]; rfl)
    | mul => exact gives_mul h.1 h.2.1
    | div => exact gives_div h.1
  | case5 op v => exact gives_unary op h.1
  | case9 v =>
    refine (gives_elements h.1).bind ?_
    intro vs hvs
    exact gives_sum hvs
  | case10 v =>
    refine (gives_elements h.1).bind ?_
    intro vs hvs
    exact gives_returned (gives_sort hvs)
  | case11 v =>
    refine (gives_elements h.1).bind ?_
    intro vs hvs
    exact gives_returned (gives_distinct hvs)
  | case13 v => exact (gives_pack v).bind fun r hr => gives_pure.mpr ⟨trivial, hr, trivial⟩
  | case14 v => exact gives_repack h.1
  | case15 layout v => exact gives_unpack hchecked v
  | _ => simp

/-- Sound arguments lead to a sound result, unless the operation shifts a time by more
than allowed or reads a packed time unchecked. -/
theorem Operation.gives_eval (hp : TimeOfDay.Kept p allowed) (op : Operation) (h : AllSound p args)
    (hshift : ∀ t k, op.shift? args = some (t, k) → allowed t k) (hchecked : op.Checked) :
    Gives (op.eval args) (Sound p) := by
  cases op with
  | delta op => exact op.gives_eval h
  | span op => exact op.gives_eval args
  | offset op => exact op.gives_eval args
  | step op => exact op.gives_eval args
  | date op => exact op.gives_eval hp h
  | time op => exact op.gives_eval hp h hshift
  | localDateTime op => exact op.gives_eval hp h hshift
  | moment op => exact op.gives_eval hp h hshift
  | micro op => exact op.gives_eval args
  | calendar op => exact op.gives_eval args
  | fields op => exact op.gives_eval args
  | general op => exact op.gives_eval hp h hshift hchecked

/-! ## Shifted times -/

section

variable {t : TimeOfDay} {k : Int}

/-- The value is nothing, or the only time of day in it is the given one. -/
def Value.Shows (t : TimeOfDay) (v : Value) : Prop :=
  v = .nothing ∨ ∀ p : TimeOfDay → Prop, v.Sound p ↔ p t

theorem Value.Shows.sound {v : Value} (h : v.Shows t) (ht : p t) : v.Sound p := by
  rcases h with rfl | h
  · exact trivial
  · exact (h p).mpr ht

theorem Value.shows_of_shifted? {u moved : LocalDateTime} {s : TimeOfDay × Int}
    (h : u.shifted? s = some moved) : (localDateTime moved).Shows s.1 :=
  .inr fun p => by rw [Sound, LocalDateTime.time_shifted? h]

theorem Value.shows_shifted? (u : LocalDateTime) (s : TimeOfDay × Int) :
    (ofOption localDateTime (u.shifted? s)).Shows s.1 := by
  cases h : u.shifted? s with
  | none => exact .inl rfl
  | some moved => exact shows_of_shifted? h

theorem TimeOp.gives_shifted {op : TimeOp} (h : op.shift? args = some (t, k)) :
    Gives (op.eval args) (Shows (t.shift k).1) := by
  rw [shift?.eq_def] at h
  split at h
  case h_1 | h_2 =>
    cases h
    exact gives_ok.mpr (.inr fun p => sound_timeAndCarry)
  case h_3 => cases h

theorem LocalOp.gives_shifted {op : LocalOp} (h : op.shift? args = some (t, k)) :
    Gives (op.eval args) (Shows (t.shift k).1) := by
  rw [shift?.eq_def] at h
  split at h
  case h_1 u o | h_3 u o =>
    cases h
    exact gives_then fun _ => gives_pure.mpr (shows_shifted? u _)
  case h_2 u o | h_4 u o =>
    cases h
    exact gives_then fun _ => gives_pure.mpr (.inr fun p => Iff.rfl)
  case h_5 => cases h

theorem MomentOp.gives_shifted {op : MomentOp} (h : op.shift? args = some (t, k)) :
    Gives (op.eval args) (Shows (t.shift k).1) := by
  rw [shift?.eq_def] at h
  split at h
  case h_1 u =>
    cases h
    exact gives_then fun _ => gives_pure.mpr (.inr fun p => Iff.rfl)
  case h_2 => cases h

theorem GeneralOp.gives_shifted {op : GeneralOp} (h : op.shift? args = some (t, k)) :
    Gives (op.eval args) (Shows (t.shift k).1) := by
  rw [shift?.eq_def] at h
  split at h
  case h_1 u o | h_2 u o =>
    cases h
    refine gives_then fun _ => gives_map.mpr (gives_orExceeds.mpr fun moved hmoved => ?_)
    exact shows_of_shifted? hmoved
  case h_3 => cases h

/-- An operation that shifts a time gives the shifted time, if it gives one. -/
theorem Operation.gives_shifted {op : Operation} (h : op.shift? args = some (t, k)) :
    Gives (op.eval args) (Shows (t.shift k).1) := by
  cases op with
  | time op => exact op.gives_shifted h
  | localDateTime op => exact op.gives_shifted h
  | moment op => exact op.gives_shifted h
  | general op => exact op.gives_shifted h
  | _ => cases h

end

end CivilTime
