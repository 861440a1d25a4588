import CivilTime.Calculator.Operation
import CivilTime.Proofs.LocalDateTime.Difference
import CivilTime.Proofs.LocalDateTime.Validity
import CivilTime.Proofs.Packed

/-!
# Sound values

A value is sound if the deltas in it are canonical and its times of day have a property
that operations keep, such as to be valid. The operators give sound results for sound
operands. Only moving a datetime by an offset asks for more.
-/

namespace CivilTime

namespace Value

variable {p : TimeOfDay → Prop}

mutual

/-- Deltas are canonical, and so are the fields of values with microseconds. The times of
day in a value have a given property. -/
def Sound (p : TimeOfDay → Prop) : Value → Prop
  | delta d => d.Canonical
  | time t => p t
  | localDateTime t => p t.time
  | offsetDateTime t => p t.utc.time
  | microDelta d => d.InRange
  | microTime t => t.InRange
  | microDateTime t => t.time.InRange
  | list vs | tuple vs => AllSound p vs
  | _ => True

@[inherit_doc Sound]
def AllSound (p : TimeOfDay → Prop) : List Value → Prop
  | [] => True
  | v :: vs => Sound p v ∧ AllSound p vs

end

attribute [simp] Sound AllSound

theorem allSound_iff {vs : List Value} : AllSound p vs ↔ ∀ v ∈ vs, v.Sound p := by
  induction vs with
  | nil => simp
  | cons v vs ih => rw [AllSound, ih, List.forall_mem_cons]

@[simp] theorem sound_ofOption {α : Type} {make : α → Value} {o : Option α} :
    (ofOption make o).Sound p ↔ ∀ a, o = some a → (make a).Sound p := by
  cases o with
  | none => simp [ofOption]
  | some a => simp [ofOption]

@[simp] theorem allSound_append {vs ws : List Value} :
    AllSound p (vs ++ ws) ↔ AllSound p vs ∧ AllSound p ws := by
  simp only [allSound_iff, List.forall_mem_append]

theorem gives_result {α : Type} {result : Option α} {limit : Limit} {make : α → Value}
    (h : ∀ u, result = some u → (make u).Sound p) :
    Gives (make <$> orExceeds result limit) (Sound p) :=
  gives_map.mpr (gives_orExceeds.mpr h)

/-! ## Operators -/

variable {allowed : TimeOfDay → Int → Prop} {a b : Value}

theorem gives_betweenDates (a b : Date) : Gives (betweenDates a b) (Sound p) :=
  gives_then fun _ => gives_then fun _ => gives_pure.mpr (Date.canonical_since a b)

theorem gives_between (a b : LocalDateTime) : Gives (between a b) (Sound p) := by
  refine gives_then fun _ => gives_then fun _ => ?_
  split
  case h_1 d hd =>
    exact gives_pure.mpr (Delta.canonical_add? (Date.canonical_since _ _)
      (TimeOfDay.canonical_since _ _) hd)
  case h_2 => exact gives_throw

theorem gives_operandOfMicro {m : Micro.Delta} (hm : m.InRange) :
    Gives (operandOfMicro m) Delta.Canonical :=
  gives_mapError.mpr (Delta.gives_ofMicro hm)

/-- A sum is sound if a datetime is only moved by an offset where that is allowed. -/
theorem gives_add (hp : TimeOfDay.Kept p allowed) (ha : a.Sound p) (hb : b.Sound p)
    (hshift : ∀ t o, a = localDateTime t → b = offset o → allowed t.time o.secs) :
    Gives (add a b) (Sound p) := by
  fun_cases add a b with
  | case4 as bs | case5 as bs => exact gives_ok.mpr (allSound_append.mpr ⟨ha, hb⟩)
  | case6 a b =>
    apply gives_result
    intro u hu
    exact Delta.canonical_add? ha hb hu
  | case10 a b => exact gives_ok.mpr (hp.addDelta ha hb)
  | case11 a b =>
    apply gives_then
    intro _
    apply gives_result
    intro u hu
    exact hp.addDelta? ha hb hu
  | case12 a b =>
    refine (gives_operandOfMicro hb).bind fun x hx => ?_
    apply gives_then
    intro _
    apply gives_result
    intro u hu
    exact hp.addDelta? ha hx hu
  | case13 a b =>
    apply gives_then
    intro _
    apply gives_result
    intro u hu
    exact hp.shifted? ha (hshift a b rfl rfl) hu
  | case14 a b =>
    apply gives_result
    intro u hu
    exact LocalDateTime.setDate?_keeps ha hu
  | case15 a b =>
    apply gives_then
    intro _
    apply gives_result
    intro u hu
    exact LocalDateTime.setDate?_keeps ha hu
  | case16 a b =>
    apply gives_then
    intro _
    apply gives_result
    intro u hu
    exact hp.utc_addDelta? ha hb hu
  | case17 a b => exact gives_map.mpr (Micro.Delta.gives_ofTotal _)
  | case20 a b | case21 b a => exact gives_map.mpr (Micro.DateTime.gives_addMicros a _)
  | _ => simp

theorem gives_sub (hp : TimeOfDay.Kept p allowed) (ha : a.Sound p) (hb : b.Sound p)
    (hshift : ∀ t o, a = localDateTime t → b = offset o → allowed t.time (-o.secs)) :
    Gives (sub a b) (Sound p) := by
  fun_cases sub a b with
  | case2 a b =>
    apply gives_result
    intro u hu
    exact Delta.canonical_sub? ha hb hu
  | case3 a b => exact gives_betweenDates a b
  | case7 a b => exact gives_ok.mpr (TimeOfDay.canonical_since a b)
  | case8 a b => exact gives_ok.mpr (hp.subDelta ha hb)
  | case9 a b => exact gives_between a b
  | case10 a b =>
    apply gives_then
    intro _
    apply gives_result
    intro u hu
    exact hp.subDelta? ha hb hu
  | case11 a b =>
    refine (gives_operandOfMicro hb).bind fun x hx => ?_
    apply gives_then
    intro _
    apply gives_result
    intro u hu
    exact hp.subDelta? ha hx hu
  | case12 a b =>
    apply gives_then
    intro _
    apply gives_result
    intro u hu
    exact hp.shifted? ha (hshift a b rfl rfl) hu
  | case13 a b =>
    apply gives_result
    intro u hu
    exact LocalDateTime.setDate?_keeps ha hu
  | case14 a b =>
    apply gives_then
    intro _
    apply gives_result
    intro u hu
    exact LocalDateTime.setDate?_keeps ha hu
  | case15 a b => exact gives_between a.utc b.utc
  | case16 a b =>
    apply gives_then
    intro _
    apply gives_result
    intro u hu
    exact hp.utc_subDelta? ha hb hu
  | case17 a b => exact gives_map.mpr (Micro.Delta.gives_ofTotal _)
  | case18 a b => exact gives_ok.mpr (Micro.Delta.inRange_ofDays _)
  | case20 a b => exact gives_map.mpr (Micro.DateTime.gives_since a b)
  | case21 a b => exact gives_map.mpr (Micro.DateTime.gives_addMicros a _)
  | _ => simp

theorem gives_scale (d : Delta) (k : Int) : Gives (scale d k) (Sound p) := by
  rw [scale]
  exact gives_then fun k => gives_result fun u hu => Delta.canonical_mul? hu

theorem gives_repeated {kind : Kind} {vs : List Value} (h : AllSound p vs) (k : Int) :
    Gives (repeated kind vs k) (AllSound p) := by
  rw [repeated]
  refine gives_ite (fun _ => gives_error) fun _ => ?_
  refine gives_ite (fun _ => gives_ok.mpr trivial) fun _ => ?_
  refine gives_ite (fun _ => gives_error) fun _ => gives_ok.mpr ?_
  rw [allSound_iff] at h ⊢
  intro v hv
  obtain ⟨ws, hws, hv⟩ := List.mem_flatten.mp hv
  rw [List.eq_of_mem_replicate hws] at hv
  exact h v hv

theorem gives_mul (ha : a.Sound p) (hb : b.Sound p) : Gives (mul a b) (Sound p) := by
  fun_cases mul a b with
  | case2 d k | case3 k d => exact gives_scale d k
  | case8 vs k | case10 vs k => exact gives_map.mpr (gives_repeated ha k)
  | case9 k vs | case11 k vs => exact gives_map.mpr (gives_repeated hb k)
  | case12 d k | case13 k d => exact gives_map.mpr (Micro.Delta.gives_ofTotal _)
  | _ => simp

theorem gives_div (ha : a.Sound p) : Gives (div a b) (Sound p) := by
  fun_cases div a b with
  | case2 d k jp hk =>
    apply gives_then
    intro k
    apply gives_result
    intro u hu
    exact Delta.canonical_div? ha hu
  | case3 d k => exact gives_map.mpr (Micro.Delta.gives_div d k)
  | _ => simp

theorem gives_unary (op : Unary) (ha : a.Sound p) : Gives (unary op a) (Sound p) := by
  fun_cases unary op a with
  | case4 d => exact gives_ok.mpr (Delta.canonical_neg ha)
  | case5 d => exact gives_ok.mpr ha
  | case6 d => exact gives_ok.mpr (Delta.canonical_abs ha)
  | case7 d | case9 d => exact gives_map.mpr (Micro.Delta.gives_ofTotal _)
  | case8 d => exact gives_ok.mpr ha
  | _ => simp

end Value

end CivilTime
