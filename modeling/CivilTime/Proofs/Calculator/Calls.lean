import CivilTime.Proofs.Calculator.Run
import CivilTime.Proofs.Zone.Recency

/-!
# Calls on zones

The commands on zones can be called in any order and with any arguments, while files change
and zones that were held are let go. Each call is one action on the store or none, whether it
succeeds or fails. So the store after any calls keeps the zones that were used last.
-/

namespace CivilTime

open Zone

/-! ## What a command does to the store -/

/-- The keys among some values. Nothing counts from the first value on that cannot be a key. -/
def keysAmong (vs : List Value) : List String :=
  (vs.takeWhile fun v => v.keyObstacle?.isNone).filterMap textOf?

/-- What forgetting zones does to the store. -/
def clearAction : List Value → Action
  | [] | [.nothing] => .clear
  | v :: _ =>
    match v.elements with
    | .ok keys => .clearKeys (keysAmong keys)
    | .error _ => .nothing

/-- What a command does to the store. -/
def ZoneCommand.action (fs : Files) : ZoneCommand → List Value → Action
  | setPath, [v] =>
    match pathOf v with
    | .ok path => .setPath path
    | .error _ => .nothing
  | setPathFrom, [.list entries] => .setPathFrom (":".intercalate (entries.filterMap textOf?))
  | acquire, [v] => (textOf? v).elim .nothing (.acquire fs)
  | clear, args => clearAction args
  | localize, [.localDateTime _, tz] => (textOf? tz).elim .nothing (.use fs)
  | localize, [.localDateTime _, tz, _] => (textOf? tz).elim .nothing (.use fs)
  | _, _ => .nothing

theorem textOf?_eq_some {v : Value} {key : String} (h : textOf? v = some key) : v = .text key := by
  cases v <;> cases h
  rfl

theorem acquire_text (fs : Files) (s : Store) (key : String) :
    (acquire fs s (.text key)).1 = .zone <$> (s.get fs key).1 := by
  rw [← Store.acquire_fst]
  rfl

/-- Only texts are looked up. -/
theorem exists_acquire_eq {v : Value} (h : textOf? v = none) :
    ∃ fault, ∀ fs s, acquire fs s v = (.error fault, s, []) := by
  have hother : ∀ key, v ≠ .text key := by
    rintro key rfl
    cases h
  cases hobstacle : v.keyObstacle? with
  | some kind =>
    refine ⟨.mismatch (.key kind), fun fs s => ?_⟩
    rw [acquire, hobstacle]
    exact hother
  | none =>
    cases hshown : v.requireShown with
    | error fault =>
      refine ⟨fault, fun fs s => ?_⟩
      rw [acquire, hobstacle, hshown]
      · rfl
      · exact hother
    | ok _ =>
      refine ⟨.zoneNotFound v.shown, fun fs s => ?_⟩
      rw [acquire, hobstacle, hshown]
      · rfl
      · exact hother

/-- A key is acquired with success exactly if its zone is found. -/
theorem acquire_eq_ok_iff {fs : Files} {s : Store} {v : Value} {z : Loaded} :
    (acquire fs s v).1 = .ok (.zone z) ↔
      ((textOf? v).elim .nothing (.acquire fs) : Action).found? s = some z := by
  cases htext : textOf? v with
  | none =>
    obtain ⟨fault, h⟩ := exists_acquire_eq htext
    rw [h]
    exact ⟨nofun, nofun⟩
  | some key =>
    obtain rfl := textOf?_eq_some htext
    rw [acquire_text, map_eq_ok, Option.elim_some, Action.found?, toOption_eq_some]
    constructor
    · rintro ⟨w, hget, hzone⟩
      rwa [← Value.zone.inj hzone]
    · intro hget
      exact ⟨z, hget, rfl⟩

theorem store_acquire (fs : Files) (s : Store) (v : Value) :
    (acquire fs s v).2.1 = ((textOf? v).elim .nothing (.acquire fs) : Action).apply s := by
  cases htext : textOf? v with
  | none =>
    obtain ⟨fault, h⟩ := exists_acquire_eq htext
    rw [h]
    rfl
  | some key =>
    obtain rfl := textOf?_eq_some htext
    rfl

theorem store_localize (fs : Files) (s : Store) (t : LocalDateTime) (policy tz : Value) :
    (localize fs s t policy tz).2.1 =
      ((textOf? tz).elim .nothing (.use fs) : Action).apply s := by
  cases tz <;> rfl

theorem store_clear (s : Store) (args : List Value) :
    (clear s args).2.1 = (clearAction args).apply s := by
  cases args with
  | nil => rfl
  | cons v rest =>
    cases v <;> cases rest <;> rfl

theorem clearAction_of_elements {v : Value} {keys : List Value} (h : v.elements = .ok keys)
    (args : List Value) : clearAction (v :: args) = .clearKeys (keysAmong keys) := by
  rw [clearAction, h]
  rintro rfl
  cases h

theorem store_perform (fs : Files) (s : Store) (command : ZoneCommand) (args : List Value) :
    (command.perform fs s args).2.1 = (command.action fs args).apply s := by
  fun_cases ZoneCommand.perform fs s command args with
  | case1 v =>
    rw [setPath, ZoneCommand.action]
    cases pathOf v <;> rfl
  | case2 entries => rfl
  | case3 v => exact store_acquire fs s v
  | case4 => exact store_clear s args
  | case5 t tz => exact store_localize fs s t _ tz
  | case6 t tz policy => exact store_localize fs s t policy tz
  | case7 => rw [ZoneCommand.action] <;> first | rfl | assumption

/-! ## Calls -/

/-- What happens between a program and its store: a command is performed, with the files as they
are at that time, or zones that were held are let go. -/
inductive Call where
  | perform (fs : Files) (command : ZoneCommand) (args : List Value)
  | release (ids : List Nat)

/-- What a call does to the store. -/
def Call.action : Call → Action
  | perform fs command args => command.action fs args
  | release ids => .release ids

/-- The store after a call. -/
def Call.store (s : Store) : Call → Store
  | perform fs command args => (command.perform fs s args).2.1
  | release ids => s.release ids

/-- The store after some calls. -/
def storeAfter (s : Store) (calls : List Call) : Store := calls.foldl Call.store s

theorem storeAfter_eq (s : Store) (calls : List Call) :
    storeAfter s calls = s.after (calls.map Call.action) := by
  rw [storeAfter, Store.after, List.foldl_map]
  congr
  funext s call
  cases call with
  | perform fs command args => exact store_perform fs s command args
  | release ids => rfl

theorem storeAfter_split (s : Store) (before : List Call) (call : Call) (after : List Call) :
    storeAfter s (before ++ call :: after) =
      (call.action.apply (storeAfter s before)).after (after.map Call.action) := by
  rw [storeAfter_eq, storeAfter_eq, List.map_append, Store.after_append]
  rfl

theorem settled_storeAfter (calls : List Call) : (storeAfter .empty calls).Settled := by
  rw [storeAfter_eq]
  exact Store.settled_after (Store.settled_unused []) _

/-- The zones that are found in the course of some calls. -/
def foundBy (s : Store) (calls : List Call) : List Loaded := s.found (calls.map Call.action)

theorem mem_recent_storeAfter {before after : List Call} {call : Call} {z : Loaded}
    (hz : call.action.found? (storeAfter .empty before) = some z)
    (hclears : ∀ c ∈ after, c.action.clears z.key = false)
    (hfew : (Store.otherKeys (foundBy (storeAfter .empty (before ++ [call])) after) z.key).card <
      Store.capacity) :
    z ∈ (storeAfter .empty (before ++ call :: after)).recent := by
  rw [storeAfter_split] at hfew ⊢
  exact Store.mem_recent_of_found? (settled_storeAfter before) hz
    (List.forall_mem_map.mpr hclears) hfew

/-- After some calls the store `s` keeps the zones that were used last. -/
structure KeepsLastUsed (calls : List Call) (s : Store) : Prop where
  few : s.recent.length ≤ Store.capacity
  distinct : s.recentKeys.Nodup
  /-- The recent zones are the last of those whose keys have been looked up with success and
  not been cleared since, in the order of their last look-ups. -/
  in_order : s.recentKeys <:+ (Store.empty.lookedUp [] (calls.map Call.action)).dedup
  known : ∀ z ∈ s.recent, s.find? z.key = some z
  valid : ∀ z, z ∈ s.recent ∨ z ∈ s.known → Key.Valid z.key.toList
  /-- A zone that was found stays recent while its key is not cleared and fewer than eight other
  keys are found. It is given when its key is looked up next, and no file is read. -/
  stays : ∀ before call after z, calls = before ++ call :: after →
    call.action.found? (storeAfter .empty before) = some z →
    (∀ c ∈ after, c.action.clears z.key = false) →
    (Store.otherKeys (foundBy (storeAfter .empty (before ++ [call])) after) z.key).card <
      Store.capacity →
    z ∈ s.recent ∧ ∀ fs, s.get fs z.key = (.ok z, s.touch z, [])
  forgets_all : ∀ fs args, args = [] ∨ args = [.nothing] →
    storeAfter s [.perform fs .clear args] = { s with known := [], recent := [] }
  forgets_some : ∀ fs v args keys, v.elements = .ok keys →
    storeAfter s [.perform fs .clear (v :: args)] =
      { s with
        known := s.known.filter (·.key ∉ keysAmong keys)
        recent := s.recent.filter (·.key ∉ keysAmong keys) }

/-- Whatever is called, with success or not, the store keeps the zones that were used last. -/
theorem keepsLastUsed (calls : List Call) : KeepsLastUsed calls (storeAfter .empty calls) := by
  have hsettled := settled_storeAfter calls
  have hcoherent := hsettled.coherent
  refine ⟨hcoherent.length_recent, hcoherent.nodup_recent, ?_, ?_, ?_, ?_, ?_, ?_⟩
  · rw [storeAfter_eq]
    exact Store.recentKeys_after_suffix (Store.settled_unused []) (List.suffix_refl _) _
  · intro z hz
    exact hcoherent.find?_of_mem (hcoherent.known_of_recent z hz)
  · rintro z (hz | hz)
    · exact hcoherent.valid_known z (hcoherent.known_of_recent z hz)
    · exact hcoherent.valid_known z hz
  · rintro before call after z rfl hfound hclears hfew
    have hrecent := mem_recent_storeAfter hfound hclears hfew
    have hknown := hcoherent.find?_of_mem (hcoherent.known_of_recent z hrecent)
    exact ⟨hrecent, fun fs => Store.get_of_known hknown⟩
  · rintro fs args (rfl | rfl) <;> rfl
  · intro fs v args keys hkeys
    rw [← hsettled.clearKeys_eq]
    exact (store_clear _ _).trans (congrArg _ (clearAction_of_elements hkeys args))

/-- The zone is given when it has been let go and all files are gone. -/
theorem keepsLastUsed_without_files :
    let fs : Files := ⟨[], [("Bare/Zone", plainFile)]⟩
    let z : Loaded := ⟨0, "Bare/Zone", ⟨0, 0, [], .fixed 0⟩⟩
    ((storeAfter .empty [.perform fs .acquire [.text "Bare/Zone"], .release [0]]).get ⟨[], []⟩
      "Bare/Zone").1 = .ok z := by
  intro fs z
  have hload : (load fs [] "Bare/Zone").1 = .ok z.table :=
    (load_of_bundle valid_bareZone rfl (by decide +kernel)).trans ofContent_plainFile
  let call : Call := .perform fs .acquire [.text "Bare/Zone"]
  have hgiven : (acquire fs .empty (.text "Bare/Zone")).1 = .ok (.zone z) := by
    rw [acquire_text, Store.get_of_unknown rfl]
    exact congrArg (fun outcome => Value.zone <$> Loaded.mk 0 "Bare/Zone" <$> outcome) hload
  have hfound := acquire_eq_ok_iff.mp hgiven
  have hclears : ∀ c ∈ [Call.release [0]], c.action.clears z.key = false :=
    List.forall_mem_singleton.mpr rfl
  obtain ⟨-, hget⟩ :=
    (keepsLastUsed [call, .release [0]]).stays [] call _ z rfl hfound hclears (Nat.succ_pos 7)
  exact congrArg Prod.fst (hget ⟨[], []⟩)

/-! ## Runs -/

theorem Step.exists_call (fs : Files) (results : List (Outcome Value)) (s : Store) (step : Step) :
    ∃ calls, (step.perform fs results s).2.1 = storeAfter s calls := by
  rw [Step.perform]
  split
  case h_1 => exact ⟨[], rfl⟩
  case h_2 args _ =>
    split
    case h_1 => exact ⟨[], rfl⟩
    case h_2 command _ => exact ⟨[.perform fs command args], rfl⟩

/-- Every report of a program shows the store after some calls. -/
theorem exists_calls_of_mem_runFrom {fs : Files} {steps : List Step}
    {results : List (Outcome Value)} {s : Store} {r : Report} (h : r ∈ runFrom fs results s steps) :
    ∃ calls, r.recent = (storeAfter s calls).recentKeys ∧
      r.known = (storeAfter s calls).knownKeys := by
  induction steps generalizing results s with
  | nil => cases h
  | cons step steps ih =>
    obtain ⟨first, hfirst⟩ := step.exists_call fs results s
    rw [runFrom] at h
    generalize step.perform fs results s = effect at h hfirst
    rcases List.mem_cons.mp h with rfl | h
    · exact ⟨first, congrArg Store.recentKeys hfirst, congrArg Store.knownKeys hfirst⟩
    · obtain ⟨calls, hrecent, hknown⟩ := ih h
      rw [hfirst, storeAfter, storeAfter, ← List.foldl_append] at hrecent hknown
      exact ⟨first ++ calls, hrecent, hknown⟩

/-- A program reports at most eight recent keys. They are known, and may be looked up. -/
theorem recent_of_mem_run {fs : Files} {steps : List Step} {r : Report} (h : r ∈ run fs steps) :
    r.recent.length ≤ Store.capacity ∧ r.recent.Nodup ∧
      ∀ key ∈ r.recent, key ∈ r.known ∧ Key.Valid key.toList := by
  obtain ⟨calls, hrecent, hknown⟩ := exists_calls_of_mem_runFrom h
  have hcoherent := (settled_storeAfter calls).coherent
  rw [hrecent, hknown, Store.recentKeys, List.length_map]
  refine ⟨hcoherent.length_recent, hcoherent.nodup_recent, List.forall_mem_map.mpr fun z hz => ?_⟩
  have hz := hcoherent.known_of_recent z hz
  exact ⟨List.mem_mergeSort.mpr (List.mem_map_of_mem hz), hcoherent.valid_known z hz⟩

end CivilTime
