import Mathlib.Data.List.Nodup
import CivilTime.Proofs.Zone.Load

/-!
# The tables of the store

Between operations the two tables agree. A recent zone is the one that is known for its key,
there are at most eight recent zones, for different keys, and every known zone is in use and
has a key that may be looked up. Each operation of the store keeps this.
-/

namespace CivilTime.Zone

/-- Someone who holds zones lets go of some, given by their `id`. -/
def Store.release (s : Store) (ids : List Nat) : Store :=
  { s with held := s.held.filter (· ∉ ids) }.prune

namespace Store

variable {fs : Files} {s : Store} {key : String} {z w : Loaded}

/-! ## Coherent tables -/

/-- What holds of the tables at all times, also while an operation is going on. -/
structure Coherent (s : Store) : Prop where
  length_recent : s.recent.length ≤ capacity
  nodup_recent : s.recentKeys.Nodup
  known_of_recent : ∀ z ∈ s.recent, z ∈ s.known
  nodup_known : (s.known.map (·.key)).Nodup
  valid_known : ∀ z ∈ s.known, Key.Valid z.key.toList
  nodup_ids : (s.known.map (·.id)).Nodup
  ids_lt : ∀ z ∈ s.known, z.id < s.fresh

theorem Coherent.eq_of_key_eq (h : s.Coherent) (hz : z ∈ s.known) (hw : w ∈ s.known)
    (hkey : z.key = w.key) : z = w :=
  List.inj_on_of_nodup_map h.nodup_known hz hw hkey

theorem Coherent.eq_of_id_eq (h : s.Coherent) (hz : z ∈ s.known) (hw : w ∈ s.known)
    (hid : z.id = w.id) : z = w :=
  List.inj_on_of_nodup_map h.nodup_ids hz hw hid

theorem find?_eq_none_iff : s.find? key = none ↔ ∀ z ∈ s.known, z.key ≠ key := by
  simp only [find?, List.find?_eq_none, decide_eq_true_eq]

theorem mem_of_find? (h : s.find? key = some z) : z ∈ s.known ∧ z.key = key :=
  ⟨List.mem_of_find?_eq_some h, by simpa using List.find?_some h⟩

theorem Coherent.find?_of_mem (h : s.Coherent) (hz : z ∈ s.known) : s.find? z.key = some z := by
  cases hfound : s.find? z.key with
  | none => exact absurd rfl (find?_eq_none_iff.mp hfound z hz)
  | some w =>
    obtain ⟨hw, hkey⟩ := mem_of_find? hfound
    rw [h.eq_of_key_eq hw hz hkey]

theorem nodup_map_concat {α β : Type} {f : α → β} {xs : List α} {x : α} (h : (xs.map f).Nodup)
    (hx : ∀ y ∈ xs, f y ≠ f x) : ((xs ++ [x]).map f).Nodup := by
  rw [List.map_append, List.nodup_append]
  refine ⟨h, List.nodup_singleton _, ?_⟩
  intro _ hold _ hlast
  obtain ⟨y, hy, rfl⟩ := List.mem_map.mp hold
  rw [List.mem_singleton.mp hlast]
  exact hx y hy

/-! ## Using a zone -/

/-- The recent zones when `z` has been used, the one used longest ago first. The first is left
out if there are too many. -/
def afterUse (s : Store) (z : Loaded) : List Loaded :=
  let used := s.recent.filter (·.key ≠ z.key) ++ [z]
  used.drop (used.length - capacity)

theorem recent_touch (h : s.Coherent) (hz : z ∈ s.known) :
    (s.touch z).recent = s.afterUse z := by
  have hkept : (s.recent.find? (·.key = z.key)).getD z = z := by
    cases hfound : s.recent.find? (·.key = z.key) with
    | none => rfl
    | some w =>
      have hkey : w.key = z.key := by simpa using List.find?_some hfound
      have hw : w ∈ s.known := h.known_of_recent w (List.mem_of_find?_eq_some hfound)
      exact h.eq_of_key_eq hw hz hkey
  have hlength : (s.recent.filter (·.key ≠ z.key) ++ [z]).length ≤ capacity + 1 := by
    have hfilter := List.length_filter_le (·.key ≠ z.key) s.recent
    have hfew := h.length_recent
    rw [List.length_append, List.length_singleton]
    omega
  simp only [touch, hkept, afterUse]
  split
  case isTrue hmany =>
    congr 1
    omega
  case isFalse hfew =>
    rw [Nat.sub_eq_zero_of_le (by omega), List.drop_zero]

theorem length_afterUse (s : Store) (z : Loaded) : (s.afterUse z).length ≤ capacity := by
  rw [afterUse, List.length_drop]
  omega

theorem mem_of_mem_afterUse (hw : w ∈ s.afterUse z) : w ∈ s.recent ∨ w = z := by
  rcases List.mem_append.mp (List.mem_of_mem_drop hw) with hrecent | hlast
  · exact .inl (List.mem_filter.mp hrecent).1
  · exact .inr (List.mem_singleton.mp hlast)

theorem nodup_used (h : s.Coherent) (z : Loaded) :
    ((s.recent.filter (·.key ≠ z.key) ++ [z]).map (·.key)).Nodup := by
  refine nodup_map_concat (h.nodup_recent.sublist (List.filter_sublist.map _)) fun w hw => ?_
  exact of_decide_eq_true (List.mem_filter.mp hw).2

theorem nodup_afterUse (h : s.Coherent) (z : Loaded) : ((s.afterUse z).map (·.key)).Nodup :=
  (nodup_used h z).sublist ((List.drop_sublist _ _).map _)

theorem Coherent.touch (h : s.Coherent) (hz : z ∈ s.known) : (s.touch z).Coherent := by
  have hrecent := recent_touch h hz
  refine { h with length_recent := ?_, nodup_recent := ?_, known_of_recent := ?_ }
  · rw [hrecent]
    exact length_afterUse s z
  · rw [recentKeys, hrecent]
    exact nodup_afterUse h z
  · intro w hw
    rw [hrecent] at hw
    rcases mem_of_mem_afterUse hw with hw | rfl
    · exact h.known_of_recent w hw
    · exact hz

theorem mem_known_insert (s : Store) (key : String) (table : Table) :
    (s.insert key table).1 ∈ (s.insert key table).2.known :=
  List.mem_append_right _ (List.mem_singleton_self _)

theorem Coherent.insert (h : s.Coherent) (hkey : Key.Valid key.toList) (hnew : s.find? key = none)
    (table : Table) : (s.insert key table).2.Coherent := by
  refine { h with known_of_recent := ?_, nodup_known := ?_, valid_known := ?_, nodup_ids := ?_,
                  ids_lt := ?_ }
  · intro w hw
    exact List.mem_append_left _ (h.known_of_recent w hw)
  · exact nodup_map_concat h.nodup_known (find?_eq_none_iff.mp hnew)
  · intro w hw
    rcases List.mem_append.mp hw with hw | hw
    · exact h.valid_known w hw
    · rw [List.mem_singleton.mp hw]
      exact hkey
  · exact nodup_map_concat h.nodup_ids fun w hw => Nat.ne_of_lt (h.ids_lt w hw)
  · intro w hw
    rcases List.mem_append.mp hw with hw | hw
    · exact Nat.lt_succ_of_lt (h.ids_lt w hw)
    · rw [List.mem_singleton.mp hw]
      exact Nat.lt_succ_self _

/-! ## Looking a key up -/

theorem get_of_known (h : s.find? key = some z) : s.get fs key = (.ok z, s.touch z, []) := by
  rw [get, h]

/-- What becomes of the store when a key is looked up: its zone is known, cannot be loaded, or
is loaded and becomes known. A zone that is found is used. -/
inductive Looked (fs : Files) (s : Store) (key : String) : Outcome Loaded → Store → Prop
  | known {z : Loaded} (hz : s.find? key = some z) : Looked fs s key (.ok z) (s.touch z)
  | failed {fault : Fault} (hload : (load fs s.path key).1 = .error fault) :
      Looked fs s key (.error fault) s
  | loaded {table : Table} (hnew : s.find? key = none)
      (hload : (load fs s.path key).1 = .ok table) :
      Looked fs s key (.ok (s.insert key table).1)
        ((s.insert key table).2.touch (s.insert key table).1)

theorem looked_get (fs : Files) (s : Store) (key : String) :
    Looked fs s key (s.get fs key).1 (s.get fs key).2.1 := by
  cases hknown : s.find? key with
  | some z =>
    rw [get_of_known hknown]
    exact .known hknown
  | none =>
    rw [get, hknown]
    cases hload : load fs s.path key with
    | mk outcome notes =>
      cases outcome with
      | ok table => exact .loaded hknown (congrArg Prod.fst hload)
      | error fault => exact .failed (congrArg Prod.fst hload)

theorem get_of_error {fault : Fault} (h : (s.get fs key).1 = .error fault) :
    (s.get fs key).2.1 = s := by
  have hlooked := looked_get fs s key
  rw [h] at hlooked
  generalize (s.get fs key).2.1 = s' at hlooked ⊢
  cases hlooked with
  | failed => rfl

theorem key_of_get (h : (s.get fs key).1 = .ok z) : z.key = key := by
  have hlooked := looked_get fs s key
  rw [h] at hlooked
  generalize (s.get fs key).2.1 = s' at hlooked
  cases hlooked with
  | known hz => exact (mem_of_find? hz).2
  | loaded => rfl

theorem Coherent.get (h : s.Coherent) (fs : Files) (key : String) :
    (s.get fs key).2.1.Coherent := by
  have hlooked := looked_get fs s key
  generalize (s.get fs key).1 = outcome, (s.get fs key).2.1 = s' at hlooked ⊢
  cases hlooked with
  | known hz => exact h.touch (mem_of_find? hz).1
  | failed => exact h
  | loaded hnew hload =>
    exact (h.insert (valid_of_load hload) hnew _).touch (mem_known_insert s key _)

theorem Coherent.recent_get (h : s.Coherent) (fs : Files) (key : String) :
    (s.get fs key).2.1.recent = (s.get fs key).1.toOption.elim s.recent s.afterUse := by
  have hlooked := looked_get fs s key
  generalize (s.get fs key).1 = outcome, (s.get fs key).2.1 = s' at hlooked ⊢
  cases hlooked with
  | known hz => exact recent_touch h (mem_of_find? hz).1
  | failed => rfl
  | loaded hnew hload =>
    exact recent_touch (h.insert (valid_of_load hload) hnew _) (mem_known_insert s key _)

/-- When a key is acquired, either its zone is held from then on and what is not in use is
forgotten, or nothing happens to the store. -/
theorem acquire_cases (fs : Files) (s : Store) (key : String) :
    (∃ held, (s.acquire fs key).2.1 = { (s.get fs key).2.1 with held := held }.prune) ∨
      (s.acquire fs key).2.1 = s ∧ (s.get fs key).2.1 = s := by
  have hsame (fault : Fault) (h : (s.get fs key).1 = .error fault) := get_of_error h
  rw [acquire]
  cases hget : s.get fs key with
  | mk outcome rest =>
    rw [hget] at hsame
    cases outcome with
    | ok z => exact .inl ⟨_, rfl⟩
    | error fault => exact .inr ⟨hsame fault rfl, hsame fault rfl⟩

/-! ## Forgetting -/

theorem inUse_of_mem_recent (hz : z ∈ s.recent) : s.inUse z = true := by
  rw [inUse, Bool.or_eq_true]
  exact .inl (List.any_eq_true.mpr ⟨z, hz, decide_eq_true rfl⟩)

/-- Leaving zones out keeps the tables coherent, as long as all recent zones stay known. -/
theorem Coherent.restrict {s' : Store} (h : s.Coherent) (hknown : s'.known.Sublist s.known)
    (hrecent : s'.recent.Sublist s.recent) (hsubset : ∀ z ∈ s'.recent, z ∈ s'.known)
    (hfresh : s'.fresh = s.fresh) : s'.Coherent where
  length_recent := Nat.le_trans hrecent.length_le h.length_recent
  nodup_recent := h.nodup_recent.sublist (hrecent.map _)
  known_of_recent := hsubset
  nodup_known := h.nodup_known.sublist (hknown.map _)
  valid_known z hz := h.valid_known z (hknown.subset hz)
  nodup_ids := h.nodup_ids.sublist (hknown.map _)
  ids_lt z hz := hfresh ▸ h.ids_lt z (hknown.subset hz)

/-- The tables between operations: in addition, nothing is known that is not in use. -/
structure Settled (s : Store) : Prop where
  coherent : s.Coherent
  inUse : ∀ z ∈ s.known, s.inUse z = true

theorem Coherent.settled_prune (h : s.Coherent) : s.prune.Settled where
  coherent := by
    refine h.restrict List.filter_sublist (List.Sublist.refl _) (fun z hz => ?_) rfl
    exact List.mem_filter.mpr ⟨h.known_of_recent z hz, inUse_of_mem_recent hz⟩
  inUse _ hz := (List.mem_filter.mp hz).2

theorem Coherent.hold (h : s.Coherent) (held : List Nat) : Coherent { s with held := held } :=
  h.restrict (List.Sublist.refl _) (List.Sublist.refl _) h.known_of_recent rfl

/-! ## Operations -/

theorem exists_setPathFrom_eq (s : Store) (text : String) :
    ∃ path, s.setPathFrom text = s.setPath path := by
  rw [setPathFrom]
  split
  case isTrue => exact ⟨_, rfl⟩
  case isFalse => exact ⟨_, rfl⟩

/-- A store that keeps nothing yet. -/
def unused (path : List String) : Store := ⟨path, path, [], [], [], 0⟩

theorem settled_unused (path : List String) : (unused path).Settled where
  coherent := ⟨Nat.zero_le _, List.nodup_nil, List.forall_mem_nil _, List.nodup_nil,
    List.forall_mem_nil _, List.nodup_nil, List.forall_mem_nil _⟩
  inUse := List.forall_mem_nil _

namespace Settled

theorem setPath (h : s.Settled) (path : List String) : (s.setPath path).1.Settled :=
  ⟨{ h.coherent with }, h.inUse⟩

theorem setPathFrom (h : s.Settled) (text : String) : (s.setPathFrom text).1.Settled := by
  obtain ⟨path, hpath⟩ := exists_setPathFrom_eq s text
  rw [hpath]
  exact h.setPath path

theorem use (h : s.Settled) (fs : Files) (key : String) : (s.use fs key).2.1.Settled :=
  (h.coherent.get fs key).settled_prune

theorem acquire (h : s.Settled) (fs : Files) (key : String) : (s.acquire fs key).2.1.Settled := by
  rcases acquire_cases fs s key with ⟨held, hs⟩ | ⟨hs, -⟩
  · rw [hs]
    exact ((h.coherent.get fs key).hold held).settled_prune
  · rw [hs]
    exact h

theorem clear (h : s.Settled) : s.clear.Settled where
  coherent :=
    h.coherent.restrict (List.nil_sublist _) (List.nil_sublist _) (List.forall_mem_nil _) rfl
  inUse := List.forall_mem_nil _

theorem clearKeys (h : s.Settled) (keys : List String) : (s.clearKeys keys).Settled := by
  refine Coherent.settled_prune ?_
  refine h.coherent.restrict List.filter_sublist List.filter_sublist (fun z hz => ?_) rfl
  obtain ⟨hrecent, hkey⟩ := List.mem_filter.mp hz
  exact List.mem_filter.mpr ⟨h.coherent.known_of_recent z hrecent, hkey⟩

theorem release (h : s.Settled) (ids : List Nat) : (s.release ids).Settled :=
  (h.coherent.hold _).settled_prune

/-- Clearing some keys changes nothing for other keys: zones that were in use by the recent ones
still are. -/
theorem clearKeys_eq (h : s.Settled) (keys : List String) :
    s.clearKeys keys =
      { s with known := s.known.filter (·.key ∉ keys), recent := s.recent.filter (·.key ∉ keys) } := by
  rw [Store.clearKeys, prune]
  congr 1
  refine List.filter_eq_self.mpr fun z hz => ?_
  obtain ⟨hknown, hkey⟩ := List.mem_filter.mp hz
  have huse := h.inUse z hknown
  rw [Store.inUse, Bool.or_eq_true] at huse ⊢
  refine huse.imp_left fun hrecent => ?_
  obtain ⟨w, hw, hid⟩ := List.any_eq_true.mp hrecent
  have hsame : w = z :=
    h.coherent.eq_of_id_eq (h.coherent.known_of_recent w hw) hknown (of_decide_eq_true hid)
  rw [hsame] at hw
  exact List.any_eq_true.mpr ⟨z, List.mem_filter.mpr ⟨hw, hkey⟩, decide_eq_true rfl⟩

end Settled

end Store

end CivilTime.Zone
