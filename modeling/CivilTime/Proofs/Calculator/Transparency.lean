import CivilTime.Proofs.Calculator.Calls

/-!
# Keeping zones makes no difference

As long as the search path and the files stay the same, all that the store knows is what would
be loaded again. So each call ends as it would if nothing were kept, apart from zones that are
loaded again being others.
-/

namespace CivilTime

namespace Zone

/-- A zone, no matter when it was loaded. -/
def Loaded.anyTime (z : Loaded) : Loaded := { z with id := 0 }

namespace Store

variable {fs : Files} {path : List String} {s s' : Store} {a : Action} {key : String} {z : Loaded}

/-! ## Faithful stores -/

/-- What the store knows is what would be loaded. -/
structure Faithful (fs : Files) (path : List String) (s : Store) : Prop where
  path_eq : s.path = path
  loaded : ∀ z ∈ s.known, (load fs path z.key).1 = .ok z.table

/-- A store that keeps nothing checks each key and loads its zone. -/
theorem get_unused (fs : Files) (path : List String) (key : String) :
    ((unused path).get fs key).1 = Loaded.mk 0 key <$> (load fs path key).1 :=
  get_of_unknown rfl

theorem faithful_unused (fs : Files) (path : List String) : (unused path).Faithful fs path :=
  ⟨rfl, List.forall_mem_nil _⟩

theorem Faithful.mono (h : s.Faithful fs path) (hpath : s'.path = s.path)
    (hknown : s'.known ⊆ s.known) : s'.Faithful fs path :=
  ⟨hpath.trans h.path_eq, fun z hz => h.loaded z (hknown hz)⟩

/-- A key that is looked up has the zone that would be loaded, or the same fault. -/
theorem Faithful.get_fst (h : s.Faithful fs path) (key : String) :
    Loaded.anyTime <$> (s.get fs key).1 = Loaded.mk 0 key <$> (load fs path key).1 := by
  cases hknown : s.find? key with
  | some z =>
    obtain ⟨hz, rfl⟩ := mem_of_find? hknown
    rw [get_of_known hknown, h.loaded z hz]
    rfl
  | none =>
    rw [get_of_unknown hknown, h.path_eq]
    cases (load fs path key).1 <;> rfl

theorem Faithful.table_get (h : s.Faithful fs path) (key : String) :
    Loaded.table <$> (s.get fs key).1 = (load fs path key).1 := by
  calc
    Loaded.table <$> (s.get fs key).1
    _ = Loaded.table <$> (Loaded.anyTime <$> (s.get fs key).1) := by
      cases (s.get fs key).1 <;> rfl
    _ = Loaded.table <$> (Loaded.mk 0 key <$> (load fs path key).1) := by rw [h.get_fst]
    _ = (load fs path key).1 := by cases (load fs path key).1 <;> rfl

theorem Faithful.get (h : s.Faithful fs path) (key : String) :
    (s.get fs key).2.1.Faithful fs path := by
  have hlooked := looked_get fs s key
  generalize (s.get fs key).1 = outcome, (s.get fs key).2.1 = s' at hlooked ⊢
  cases hlooked with
  | known hz => exact h.mono rfl (List.Subset.refl _)
  | failed => exact h
  | loaded hnew hload =>
    refine ⟨h.path_eq, fun z hz => ?_⟩
    rcases List.mem_append.mp hz with hz | hz
    · exact h.loaded z hz
    · rw [List.mem_singleton.mp hz, ← h.path_eq]
      exact hload

theorem Faithful.use (h : s.Faithful fs path) (key : String) :
    (s.use fs key).2.1.Faithful fs path :=
  (h.get key).mono rfl List.filter_sublist.subset

theorem Faithful.acquire (h : s.Faithful fs path) (key : String) :
    (s.acquire fs key).2.1.Faithful fs path := by
  rcases acquire_cases fs s key with ⟨held, hs⟩ | ⟨hs, -⟩
  · rw [hs]
    exact (h.get key).mono rfl List.filter_sublist.subset
  · rw [hs]
    exact h

end Store

/-- The action neither changes the search path nor uses other files. -/
def Action.Within (fs : Files) : Action → Prop
  | setPath _ | setPathFrom _ => False
  | acquire fs' _ | use fs' _ => fs' = fs
  | nothing | clear | clearKeys _ | release _ => True

theorem Store.Faithful.apply {fs : Files} {path : List String} {s : Store} {a : Action}
    (h : s.Faithful fs path) (ha : a.Within fs) : (a.apply s).Faithful fs path := by
  cases a with
  | nothing => exact h
  | setPath | setPathFrom => cases ha
  | acquire fs' key =>
    obtain rfl : fs' = fs := ha
    exact h.acquire key
  | use fs' key =>
    obtain rfl : fs' = fs := ha
    exact h.use key
  | clear => exact h.mono rfl (List.nil_subset _)
  | clearKeys keys =>
    exact h.mono rfl (List.filter_sublist.trans List.filter_sublist).subset
  | release ids => exact h.mono rfl List.filter_sublist.subset

end Zone

open Zone

/-! ## Calls on faithful stores -/

/-- The call neither changes the search path nor uses other files. -/
def Call.Within (fs : Files) : Call → Prop
  | perform _ .setPath _ | perform _ .setPathFrom _ => False
  | perform fs' _ _ => fs' = fs
  | release _ => True

theorem Call.within_action {fs : Files} {call : Call} (h : call.Within fs) :
    call.action.Within fs := by
  cases call with
  | release ids => trivial
  | perform fs' command args =>
    rw [Call.action]
    fun_cases ZoneCommand.action fs' command args with
    | case1 | case2 | case3 => cases h
    | case4 v =>
      obtain rfl : fs' = fs := h
      cases textOf? v with
      | none => trivial
      | some key => rfl
    | case5 =>
      fun_cases clearAction args <;> trivial
    | case6 _ tz | case7 _ tz =>
      obtain rfl : fs' = fs := h
      cases textOf? tz with
      | none => trivial
      | some key => rfl
    | case8 => trivial

/-- A value, no matter when the zones in it were loaded. -/
def Value.anyTime : Value → Value
  | zone z => .zone z.anyTime
  | v => v

/-- How a call ends, if it is one. -/
def Call.outcome? (s : Store) : Call → Option (Outcome Value)
  | perform fs command args => some (command.perform fs s args).1
  | release _ => none

/-- How calls end that are made one after the other. -/
def outcomes (s : Store) : List Call → List (Outcome Value)
  | [] => []
  | call :: calls => (call.outcome? s).toList ++ outcomes (call.store s) calls

section

variable {fs : Files} {path : List String} {s s' : Store}

theorem acquire_fst_congr (hs : s.Faithful fs path) (hs' : s'.Faithful fs path) (v : Value) :
    Value.anyTime <$> (acquire fs s v).1 = Value.anyTime <$> (acquire fs s' v).1 := by
  cases htext : textOf? v with
  | none =>
    obtain ⟨fault, h⟩ := exists_acquire_eq htext
    rw [h, h]
  | some key =>
    obtain rfl := textOf?_eq_some htext
    have hzone (s : Store) : Value.anyTime <$> (acquire fs s (.text key)).1 =
        Value.zone <$> (Loaded.anyTime <$> (s.get fs key).1) := by
      rw [acquire_text]
      cases (s.get fs key).1 <;> rfl
    rw [hzone, hzone, hs.get_fst, hs'.get_fst]

theorem localize_fst_congr (hs : s.Faithful fs path) (hs' : s'.Faithful fs path)
    (t : LocalDateTime) (policy tz : Value) :
    (localize fs s t policy tz).1 = (localize fs s' t policy tz).1 := by
  cases tz with
  | text key =>
    have htable (s : Store) : (localize fs s t policy (.text key)).1 = (do
        let table ← Loaded.table <$> (s.get fs key).1
        return .offsetDateTime (← t.inZone (policyOf policy) table key)) := by
      rw [localize, Store.use]
      cases s.get fs key with
      | mk outcome rest => cases outcome <;> rfl
    rw [htable, htable, hs.table_get, hs'.table_get]
  | _ => rfl

theorem clear_fst (s s' : Store) (args : List Value) : (clear s args).1 = (clear s' args).1 := by
  cases args with
  | nil => rfl
  | cons v rest => cases v <;> cases rest <;> rfl

/-- Calls end in the same way on faithful stores. -/
theorem outcome?_congr (hs : s.Faithful fs path) (hs' : s'.Faithful fs path) {call : Call}
    (h : call.Within fs) :
    (call.outcome? s).map (Value.anyTime <$> ·) = (call.outcome? s').map (Value.anyTime <$> ·) := by
  cases call with
  | release ids => rfl
  | perform fs' command args =>
    refine congrArg some ?_
    fun_cases ZoneCommand.perform fs' s command args with
    | case1 | case2 => cases h
    | case3 v =>
      obtain rfl : fs' = fs := h
      exact acquire_fst_congr hs hs' v
    | case4 => exact congrArg _ (clear_fst s s' args)
    | case5 t tz =>
      obtain rfl : fs' = fs := h
      exact congrArg _ (localize_fst_congr hs hs' t _ tz)
    | case6 t tz policy =>
      obtain rfl : fs' = fs := h
      exact congrArg _ (localize_fst_congr hs hs' t policy tz)
    | case7 => rw [ZoneCommand.perform] <;> first | rfl | assumption

theorem Zone.Store.Faithful.call (hs : s.Faithful fs path) {call : Call} (h : call.Within fs) :
    (call.store s).Faithful fs path := by
  cases call with
  | release ids => exact hs.apply (a := .release ids) trivial
  | perform fs' command args =>
    rw [Call.store, store_perform]
    exact hs.apply (Call.within_action h)

theorem map_outcomes (hs : s.Faithful fs path) (hs' : s'.Faithful fs path) {calls : List Call}
    (h : ∀ call ∈ calls, call.Within fs) :
    (outcomes s calls).map (Value.anyTime <$> ·) =
      (calls.filterMap (·.outcome? s')).map (Value.anyTime <$> ·) := by
  -- The first store goes on with each call, the second stays as it is. Both are faithful.
  induction calls generalizing s with
  | nil => rfl
  | cons call calls ih =>
    rw [List.forall_mem_cons] at h
    have hfirst := outcome?_congr hs hs' h.1
    have hrest := ih (hs.call h.1) h.2
    rw [outcomes, List.map_append, hrest]
    cases call with
    | release ids => rfl
    | perform fs' command args => exact congrArg (· :: _) (Option.some.inj hfirst)

end

/-- As long as the search path and the files stay the same, calls end as if each of them were the
first. -/
theorem outcomes_eq_first {fs : Files} (path : List String) {calls : List Call}
    (h : ∀ call ∈ calls, call.Within fs) :
    (outcomes (.unused path) calls).map (Value.anyTime <$> ·) =
      (calls.filterMap (·.outcome? (.unused path))).map (Value.anyTime <$> ·) :=
  map_outcomes (Store.faithful_unused fs path) (Store.faithful_unused fs path) h

/-- A zone is loaded, forgotten and loaded again. -/
theorem outcomes_eq_first_cleared :
    let fs : Files := ⟨[], [("Bare/Zone", plainFile)]⟩
    let lookUp : Call := .perform fs .acquire [.text "Bare/Zone"]
    let zone : Value := .zone ⟨0, "Bare/Zone", ⟨0, 0, [], .fixed 0⟩⟩
    (∀ call ∈ [lookUp, .perform fs .clear [], lookUp], call.Within fs) ∧
      (outcomes (.unused []) [lookUp, .perform fs .clear [], lookUp]).map (Value.anyTime <$> ·) =
        [.ok zone, .ok .nothing, .ok zone] := by
  intro fs lookUp zone
  have hwithin : ∀ call ∈ [lookUp, .perform fs .clear [], lookUp], call.Within fs := by
    rintro call (- | ⟨_, - | ⟨_, - | ⟨_, ⟨⟩⟩⟩⟩) <;> rfl
  have hload : (load fs [] "Bare/Zone").1 = .ok ⟨0, 0, [], .fixed 0⟩ :=
    (load_of_bundle valid_bareZone rfl (by decide +kernel)).trans ofContent_plainFile
  have hzone : lookUp.outcome? (.unused []) = some (.ok zone) := by
    change some (ZoneCommand.acquire.perform fs (.unused []) [.text "Bare/Zone"]).1 = _
    rw [ZoneCommand.perform, acquire_text, Store.get_unused, hload]
    rfl
  refine ⟨hwithin, (outcomes_eq_first [] hwithin).trans ?_⟩
  simp only [List.filterMap_cons, hzone]
  rfl

end CivilTime
