import CivilTime.Micro

/-!
# Outcomes

What it means that a computation which can fail has succeeded: each of its steps has,
and every check on the way has passed. What all results of a computation have in common,
or all faults, is found out step by step.
-/

namespace CivilTime

section

variable {α β : Type} {x : Outcome α} {a : α} {b : β}

theorem ok_bind {f : α → Outcome β} : .ok a >>= f = f a := rfl

theorem bind_eq_ok {f : α → Outcome β} : x >>= f = .ok b ↔ ∃ a, x = .ok a ∧ f a = .ok b := by
  cases x with
  | error fault => exact ⟨nofun, fun ⟨_, h, _⟩ => nomatch h⟩
  | ok a => exact ⟨fun h => ⟨a, rfl, h⟩, fun ⟨_, h, hf⟩ => Except.ok.inj h ▸ hf⟩

theorem map_eq_ok {f : α → β} : f <$> x = .ok b ↔ ∃ a, x = .ok a ∧ f a = b := by
  cases x with
  | error fault => exact ⟨nofun, fun ⟨_, h, _⟩ => nomatch h⟩
  | ok a =>
    refine ⟨fun h => ⟨a, rfl, Except.ok.inj h⟩, ?_⟩
    rintro ⟨_, h, rfl⟩
    obtain rfl := Except.ok.inj h
    rfl

theorem map_eq_error {f : α → β} {fault : Fault} : f <$> x = .error fault ↔ x = .error fault := by
  cases x with
  | ok a => exact ⟨nofun, nofun⟩
  | error cause =>
    constructor <;>
      · rintro ⟨⟩
        rfl

theorem pure_eq_ok {a' : α} : (pure a : Outcome α) = .ok a' ↔ a = a' :=
  ⟨Except.ok.inj, congrArg Except.ok⟩

theorem toOption_eq_some : x.toOption = some a ↔ x = .ok a := by
  cases x with
  | error fault => exact ⟨nofun, nofun⟩
  | ok r => exact ⟨fun h => congrArg Except.ok (Option.some.inj h),
      fun h => congrArg some (Except.ok.inj h)⟩

theorem mapError_eq_ok {f : Fault → Fault} : x.mapError f = .ok a ↔ x = .ok a := by
  cases x with
  | error fault => exact ⟨nofun, nofun⟩
  | ok r => exact Iff.rfl

theorem orExceeds_eq_ok {result : Option α} {limit : Limit} :
    orExceeds result limit = .ok a ↔ result = some a := by
  cases result with
  | none => exact ⟨nofun, nofun⟩
  | some r => exact ⟨fun h => congrArg some (Except.ok.inj h),
      fun h => congrArg Except.ok (Option.some.inj h)⟩

end

section

variable {p : Prop} [Decidable p]

theorem require_eq_ok {rule : Rule} {u : Unit} : require p rule = .ok u ↔ p := by
  rw [require]
  split
  case isTrue h => exact ⟨fun _ => h, fun _ => rfl⟩
  case isFalse h => exact ⟨nofun, fun hp => absurd hp h⟩

theorem requireField_eq_ok {field : MicroField} {u : Unit} :
    Micro.requireField p field = .ok u ↔ p := by
  rw [Micro.requireField]
  split
  case isTrue h => exact ⟨fun _ => h, fun _ => rfl⟩
  case isFalse h => exact ⟨nofun, fun hp => absurd hp h⟩

end

theorem checkRange_eq_ok {n lo hi m : Int} {name : String} :
    checkRange n lo hi name = .ok m ↔ (lo ≤ n ∧ n ≤ hi) ∧ n = m := by
  rw [checkRange]
  split
  case isTrue h => exact ⟨fun hok => ⟨h, Except.ok.inj hok⟩, fun hm => congrArg Except.ok hm.2⟩
  case isFalse h => exact ⟨nofun, fun hm => absurd hm.1 h⟩

/-! ## What results have in common -/

/-- If there is a result, it has the property. -/
def Gives {α : Type} (x : Outcome α) (p : α → Prop) : Prop := ∀ a, x = .ok a → p a

section

variable {α β : Type} {x : Outcome α} {p q : α → Prop} {a : α}

@[simp] theorem gives_ok : Gives (.ok a) p ↔ p a :=
  ⟨fun h => h a rfl, fun h _ ha => Except.ok.inj ha ▸ h⟩

@[simp] theorem gives_pure : Gives (pure a) p ↔ p a := gives_ok

@[simp] theorem gives_error {fault : Fault} : Gives (.error fault) p := nofun

@[simp] theorem gives_throw {fault : Fault} : Gives (throw fault) p := nofun

@[simp] theorem gives_true : Gives x fun _ => True := fun _ _ => trivial

theorem Gives.mono (h : Gives x p) (hpq : ∀ a, p a → q a) : Gives x q :=
  fun a ha => hpq a (h a ha)

@[simp] theorem gives_bind {f : α → Outcome β} {q : β → Prop} :
    Gives (x >>= f) q ↔ Gives x fun a => Gives (f a) q := by
  constructor
  · intro h a ha b hb
    exact h b (bind_eq_ok.mpr ⟨a, ha, hb⟩)
  · intro h b hb
    obtain ⟨a, ha, hb⟩ := bind_eq_ok.mp hb
    exact h a ha b hb

@[simp] theorem gives_map {f : α → β} {q : β → Prop} :
    Gives (f <$> x) q ↔ Gives x fun a => q (f a) := by
  constructor
  · intro h a ha
    exact h (f a) (map_eq_ok.mpr ⟨a, ha, rfl⟩)
  · intro h b hb
    obtain ⟨a, ha, rfl⟩ := map_eq_ok.mp hb
    exact h a ha

@[simp] theorem gives_mapError {f : Fault → Fault} : Gives (x.mapError f) p ↔ Gives x p := by
  cases x with
  | error fault => exact ⟨nofun, nofun⟩
  | ok a => exact Iff.rfl

@[simp] theorem gives_orExceeds {result : Option α} {limit : Limit} :
    Gives (orExceeds result limit) p ↔ ∀ a, result = some a → p a := by
  simp only [Gives, orExceeds_eq_ok]

theorem gives_of_forall (h : ∀ a, p a) : Gives x p := fun a _ => h a

theorem Gives.bind {f : α → Outcome β} {q : β → Prop} (h : Gives x p)
    (hf : ∀ a, p a → Gives (f a) q) : Gives (x >>= f) q :=
  gives_bind.mpr (h.mono hf)

/-- It does not matter what comes first if the rest gives the property anyway. -/
theorem gives_then {f : α → Outcome β} {q : β → Prop} (h : ∀ a, Gives (f a) q) :
    Gives (x >>= f) q :=
  gives_bind.mpr (gives_of_forall h)

theorem gives_ite {c : Prop} [Decidable c] {y : Outcome α} (hx : c → Gives x p)
    (hy : ¬c → Gives y p) : Gives (if c then x else y) p := by
  split
  case isTrue h => exact hx h
  case isFalse h => exact hy h

/-- A list is worked through with what the steps keep. -/
theorem gives_foldlM {f : β → α → Outcome β} {inv : β → Prop} {as : List α} {b : β} (hb : inv b)
    (hf : ∀ b, inv b → ∀ a ∈ as, Gives (f b a) inv) : Gives (as.foldlM f b) inv := by
  induction as generalizing b with
  | nil => exact gives_ok.mpr hb
  | cons a as ih =>
    rw [List.foldlM_cons, gives_bind]
    refine (hf b hb a List.mem_cons_self).mono fun b' hb' => ih hb' ?_
    intro b hb a ha
    exact hf b hb a (List.mem_cons_of_mem _ ha)

theorem gives_mapM {f : α → Outcome β} {q : β → Prop} {as : List α}
    (hf : ∀ a ∈ as, Gives (f a) q) : Gives (as.mapM f) (∀ b ∈ ·, q b) := by
  induction as with
  | nil => exact gives_ok.mpr (List.forall_mem_nil _)
  | cons a as ih =>
    rw [List.mapM_cons, gives_bind]
    refine (hf a List.mem_cons_self).mono fun b hb => ?_
    refine (ih fun a ha => hf a (List.mem_cons_of_mem _ ha)).bind fun bs hbs => ?_
    exact gives_pure.mpr (List.forall_mem_cons.mpr ⟨hb, hbs⟩)

end

/-! ## What faults have in common -/

/-- If there is a fault, it has the property. -/
def FailsWith {α : Type} (x : Outcome α) (p : Fault → Prop) : Prop :=
  ∀ fault, x = .error fault → p fault

section

variable {α β : Type} {x : Outcome α} {p : Fault → Prop}

@[simp] theorem failsWith_ok {a : α} : FailsWith (.ok a) p := nofun

@[simp] theorem failsWith_pure {a : α} : FailsWith (pure a : Outcome α) p := failsWith_ok

@[simp] theorem failsWith_error {fault : Fault} :
    FailsWith (.error fault : Outcome α) p ↔ p fault :=
  ⟨fun h => h fault rfl, fun h _ hf => Except.error.inj hf ▸ h⟩

theorem FailsWith.bind {f : α → Outcome β} (h : FailsWith x p) (hf : ∀ a, FailsWith (f a) p) :
    FailsWith (x >>= f) p := by
  cases x with
  | error fault => exact failsWith_error.mpr (h fault rfl)
  | ok a => exact hf a

theorem FailsWith.map (h : FailsWith x p) (f : α → β) : FailsWith (f <$> x) p := by
  cases x with
  | error fault => exact failsWith_error.mpr (h fault rfl)
  | ok a => exact failsWith_ok

/-- A fault that stands for all others is the only one. -/
theorem failsWith_mapError_const (x : Outcome α) (fault : Fault) :
    FailsWith (x.mapError fun _ => fault) (· = fault) := by
  cases x with
  | error _ => exact failsWith_error.mpr rfl
  | ok a => exact failsWith_ok

/-- Without a result there is the only fault that there can be. -/
theorem FailsWith.eq_error_iff {fault : Fault} (h : FailsWith x (· = fault)) :
    x = .error fault ↔ ¬∃ a, x = .ok a := by
  cases x with
  | error _ => exact ⟨fun _ => nofun, fun _ => congrArg Except.error (h _ rfl)⟩
  | ok a => exact ⟨nofun, fun hnone => absurd ⟨a, rfl⟩ hnone⟩

theorem failsWith_ite {c : Prop} [Decidable c] {y : Outcome α} (hx : c → FailsWith x p)
    (hy : ¬c → FailsWith y p) : FailsWith (if c then x else y) p := by
  split
  case isTrue h => exact hx h
  case isFalse h => exact hy h

theorem failsWith_mapM {f : α → Outcome β} {as : List α} (hf : ∀ a ∈ as, FailsWith (f a) p) :
    FailsWith (as.mapM f) p := by
  induction as with
  | nil => exact failsWith_pure
  | cons a as ih =>
    rw [List.mapM_cons]
    refine (hf a List.mem_cons_self).bind fun b => FailsWith.bind (ih ?_) fun _ => failsWith_pure
    exact fun a ha => hf a (List.mem_cons_of_mem _ ha)

end

end CivilTime
