import Mathlib.Data.Finset.Card
import Mathlib.Data.List.Dedup
import CivilTime.Proofs.Zone.Store

/-!
# The zones used last

Whatever happens to a store, its recent zones are those of the keys that have been looked up
last and not been cleared since. A zone stays among them as long as fewer than eight other
keys are looked up and its own is not cleared, and is given at once when it is asked for.
-/

namespace CivilTime.Zone

/-! ## Actions -/

/-- What can happen to a store. A key is looked up in the files as they are at that time. -/
inductive Action where
  /-- A failure on the way to the store. -/
  | nothing
  | setPath (path : List String)
  | setPathFrom (text : String)
  | acquire (fs : Files) (key : String)
  | use (fs : Files) (key : String)
  | clear
  | clearKeys (keys : List String)
  | release (ids : List Nat)

namespace Action

/-- Whether a key is cleared. -/
def clears : Action → String → Bool
  | clear, _ => true
  | clearKeys keys, key => key ∈ keys
  | _, _ => false

/-- The store afterwards. -/
def apply (s : Store) : Action → Store
  | nothing => s
  | setPath path => (s.setPath path).1
  | setPathFrom text => (s.setPathFrom text).1
  | acquire fs key => (s.acquire fs key).2.1
  | use fs key => (s.use fs key).2.1
  | clear => s.clear
  | clearKeys keys => s.clearKeys keys
  | release ids => s.release ids

/-- The zone of the key that is looked up, if there is one. -/
def found? (s : Store) : Action → Option Loaded
  | acquire fs key | use fs key => (s.get fs key).1.toOption
  | _ => none

end Action

namespace Store

variable {s : Store} {a : Action} {actions : List Action} {keys : List String}
  {older newer : List Loaded} {z w : Loaded}

/-- The store after some actions. -/
def after (s : Store) (actions : List Action) : Store := actions.foldl Action.apply s

/-- The zones that are found in the course of some actions. -/
def found (s : Store) : List Action → List Loaded
  | [] => []
  | a :: actions => (a.found? s).toList ++ found (a.apply s) actions

/-- The keys that have been looked up with success and not been cleared since, in the order of
time. At the start they are `keys`. -/
def lookedUp (s : Store) (keys : List String) : List Action → List String
  | [] => keys
  | a :: actions =>
    lookedUp (a.apply s) (keys.filter (!a.clears ·) ++ (a.found? s).toList.map (·.key)) actions

/-! ## One action -/

theorem settled_apply (h : s.Settled) (a : Action) : (a.apply s).Settled := by
  cases a with
  | nothing => exact h
  | setPath path => exact h.setPath path
  | setPathFrom text => exact h.setPathFrom text
  | acquire fs key => exact h.acquire fs key
  | use fs key => exact h.use fs key
  | clear => exact h.clear
  | clearKeys keys => exact h.clearKeys keys
  | release ids => exact h.release ids

theorem clears_eq_false_of_found? (h : a.found? s = some z) (key : String) :
    a.clears key = false := by
  cases a with
  | nothing | setPath | setPathFrom | acquire | use | release => rfl
  | clear | clearKeys => cases h

theorem exists_get_of_found? (h : a.found? s = some z) : ∃ fs key, (s.get fs key).1 = .ok z := by
  cases a with
  | acquire fs key | use fs key => exact ⟨fs, key, toOption_eq_some.mp h⟩
  | nothing | setPath | setPathFrom | clear | clearKeys | release => cases h

/-- A zone that is known for its key is found under it, and no other. -/
theorem eq_of_found? (h : s.Coherent) (hz : z ∈ s.known) (hw : a.found? s = some w)
    (hkey : w.key = z.key) : w = z := by
  obtain ⟨fs, key, hget⟩ := exists_get_of_found? hw
  obtain rfl : z.key = key := hkey.symm.trans (key_of_get hget)
  rw [get_of_known (h.find?_of_mem hz)] at hget
  exact (Except.ok.inj hget).symm

theorem recent_acquire (fs : Files) (s : Store) (key : String) :
    (s.acquire fs key).2.1.recent = (s.get fs key).2.1.recent := by
  rcases acquire_cases fs s key with ⟨held, hs⟩ | ⟨hs, hget⟩
  · rw [hs]
    rfl
  · rw [hs, hget]

/-- Finding a zone puts it at the end of the recent ones. Otherwise only clearing changes
them. -/
theorem recent_apply (h : s.Settled) (a : Action) :
    (a.apply s).recent =
      (a.found? s).elim (s.recent.filter (!a.clears ·.key)) s.afterUse := by
  have hkept : s.recent = s.recent.filter fun _ => true := (List.filter_true _).symm
  cases a with
  | nothing | setPath | release => exact hkept
  | setPathFrom text =>
    obtain ⟨path, hpath⟩ := exists_setPathFrom_eq s text
    rw [Action.apply, hpath]
    exact hkept
  | acquire fs key =>
    refine (recent_acquire fs s key).trans ((h.coherent.recent_get fs key).trans ?_)
    exact congrArg (fun recent => (s.get fs key).1.toOption.elim recent s.afterUse) hkept
  | use fs key =>
    refine (h.coherent.recent_get fs key).trans ?_
    exact congrArg (fun recent => (s.get fs key).1.toOption.elim recent s.afterUse) hkept
  | clear => exact (List.filter_false _).symm
  | clearKeys keys =>
    refine List.filter_congr fun w _ => ?_
    simp [Action.clears]

theorem after_append (s : Store) (actions actions' : List Action) :
    s.after (actions ++ actions') = (s.after actions).after actions' :=
  List.foldl_append

theorem after_acquire (s : Store) (fs : Files) (key : String) :
    s.after [.acquire fs key] = (s.acquire fs key).2.1 := rfl

theorem settled_after (h : s.Settled) (actions : List Action) : (s.after actions).Settled := by
  induction actions generalizing s with
  | nil => exact h
  | cons a actions ih => exact ih (settled_apply h a)

/-! ## The order of use -/

theorem dedup_filter (p : String → Bool) (keys : List String) :
    (keys.filter p).dedup = keys.dedup.filter p := by
  induction keys with
  | nil => rfl
  | cons key keys ih =>
    by_cases hp : p key
    · rw [List.filter_cons_of_pos hp]
      by_cases hmem : key ∈ keys
      · rw [List.dedup_cons_of_mem hmem, List.dedup_cons_of_mem (List.mem_filter.mpr ⟨hmem, hp⟩), ih]
      · have hmem' : key ∉ keys.filter p := fun h => hmem (List.mem_filter.mp h).1
        rw [List.dedup_cons_of_notMem hmem, List.dedup_cons_of_notMem hmem', ih,
          List.filter_cons_of_pos hp]
    · rw [List.filter_cons_of_neg hp, ih]
      by_cases hmem : key ∈ keys
      · rw [List.dedup_cons_of_mem hmem]
      · rw [List.dedup_cons_of_notMem hmem, List.filter_cons_of_neg hp]

theorem dedup_concat (keys : List String) (key : String) :
    (keys ++ [key]).dedup = keys.dedup.filter (· ≠ key) ++ [key] := by
  induction keys with
  | nil => rfl
  | cons first keys ih =>
    rw [List.cons_append]
    by_cases hmem : first ∈ keys
    · rw [List.dedup_cons_of_mem hmem, List.dedup_cons_of_mem (List.mem_append_left _ hmem), ih]
    · rw [List.dedup_cons_of_notMem hmem]
      by_cases hlast : first = key
      · have hmem' : first ∈ keys ++ [key] := List.mem_append_right _ (List.mem_singleton.mpr hlast)
        rw [List.dedup_cons_of_mem hmem', ih, List.filter_cons_of_neg (by simpa using hlast)]
      · have hmem' : first ∉ keys ++ [key] := by simp [hmem, hlast]
        rw [List.dedup_cons_of_notMem hmem', ih, List.filter_cons_of_pos (by simpa using hlast),
          List.cons_append]

/-- The recent zones are the last ones of those that have been looked up and not been cleared
since, each at the place where its key was looked up last. -/
theorem recentKeys_apply_suffix (h : s.Settled) (hkeys : s.recentKeys <:+ keys.dedup) (a : Action) :
    (a.apply s).recentKeys <:+
      (keys.filter (!a.clears ·) ++ (a.found? s).toList.map (·.key)).dedup := by
  rw [recentKeys, recent_apply h a]
  cases hfound : a.found? s with
  | none =>
    rw [Option.toList_none, List.map_nil, List.append_nil, dedup_filter]
    have hfilter := hkeys.filter (!a.clears ·)
    rwa [recentKeys, List.filter_map] at hfilter
  | some z =>
    have hkept : keys.filter (!a.clears ·) = keys :=
      List.filter_eq_self.mpr fun key _ => by rw [clears_eq_false_of_found? hfound key]; rfl
    rw [hkept, Option.toList_some, List.map_singleton, dedup_concat]
    have hfilter := hkeys.filter (· ≠ z.key)
    rw [recentKeys, List.filter_map] at hfilter
    have hused : (s.recent.filter (·.key ≠ z.key) ++ [z]).map (·.key) <:+
        keys.dedup.filter (· ≠ z.key) ++ [z.key] := by
      rw [List.map_append, List.map_singleton]
      exact List.suffix_append_self_iff.mpr hfilter
    exact ((List.drop_suffix _ _).map _).trans hused

theorem recentKeys_after_suffix (h : s.Settled) (hkeys : s.recentKeys <:+ keys.dedup)
    (actions : List Action) :
    (s.after actions).recentKeys <:+ (s.lookedUp keys actions).dedup := by
  induction actions generalizing s keys with
  | nil => exact hkeys
  | cons a actions ih => exact ih (settled_apply h a) (recentKeys_apply_suffix h hkeys a)

/-! ## Zones that stay -/

/-- The zone is recent, and the zones used after it have keys among `others`. -/
def Keeps (s : Store) (z : Loaded) (others : Finset String) : Prop :=
  ∃ older newer, s.recent = older ++ z :: newer ∧ ∀ w ∈ newer, w.key ∈ others

/-- The keys of some zones, apart from one. -/
def otherKeys (zs : List Loaded) (key : String) : Finset String :=
  (zs.map (·.key)).toFinset.erase key

/-- Only zones that were used long ago are left out. -/
theorem exists_afterUse_eq (hused : s.recent.filter (·.key ≠ w.key) ++ [w] = older ++ newer)
    (hfew : newer.length ≤ capacity) : ∃ older', s.afterUse w = older' ++ newer := by
  refine ⟨older.drop ((older ++ newer).length - capacity), ?_⟩
  rw [afterUse, hused, List.drop_append_of_le_length]
  rw [List.length_append]
  omega

theorem keeps_of_found? (h : s.Settled) (hz : a.found? s = some z) (others : Finset String) :
    (a.apply s).Keeps z others := by
  have hrecent := recent_apply h a
  rw [hz, Option.elim_some] at hrecent
  have hused : s.recent.filter (·.key ≠ z.key) ++ [z] = s.recent.filter (·.key ≠ z.key) ++ [z] := rfl
  obtain ⟨older, holder⟩ := exists_afterUse_eq hused (by simp [capacity])
  exact ⟨older, [], hrecent.trans holder, List.forall_mem_nil _⟩

theorem length_le_card {zs : List Loaded} {keys : Finset String} (h : (zs.map (·.key)).Nodup)
    (hkeys : ∀ w ∈ zs, w.key ∈ keys) : zs.length ≤ keys.card := by
  have hsubset : (zs.map (·.key)).toFinset ⊆ keys := by
    intro key hkey
    obtain ⟨w, hw, rfl⟩ := List.mem_map.mp (List.mem_toFinset.mp hkey)
    exact hkeys w hw
  have hcard := Finset.card_le_card hsubset
  rwa [List.toFinset_card_of_nodup h, List.length_map] at hcard

/-- A zone is kept when another key is looked up, as long as there are few of these. -/
theorem keeps_apply {others : Finset String} (h : s.Settled) (hz : s.Keeps z others)
    (ha : a.clears z.key = false)
    (hothers : ∀ w, a.found? s = some w → w.key ≠ z.key → w.key ∈ others)
    (hcard : others.card < capacity) : (a.apply s).Keeps z others := by
  obtain ⟨older, newer, hsplit, hnewer⟩ := hz
  cases hfound : a.found? s with
  | none =>
    have hrecent := recent_apply h a
    rw [hfound, Option.elim_none, hsplit, List.filter_append,
      List.filter_cons_of_pos (by rw [ha]; rfl)] at hrecent
    exact ⟨_, _, hrecent, fun w hw => hnewer w (List.mem_filter.mp hw).1⟩
  | some w =>
    have hrecent := recent_apply h a
    rw [hfound, Option.elim_some] at hrecent
    by_cases hkey : w.key = z.key
    · -- The zone itself is used again.
      have hz : z ∈ s.recent := by rw [hsplit]; exact List.mem_append_right _ List.mem_cons_self
      obtain rfl := eq_of_found? h.coherent (h.coherent.known_of_recent z hz) hfound hkey
      exact keeps_of_found? h hfound others
    · -- The zones after `z`, `w` included, have different keys among the others.
      have hused : s.recent.filter (·.key ≠ w.key) ++ [w] =
          older.filter (·.key ≠ w.key) ++ z :: (newer.filter (·.key ≠ w.key) ++ [w]) := by
        rw [hsplit, List.filter_append, List.filter_cons_of_pos (by simpa using Ne.symm hkey),
          List.append_assoc, List.cons_append]
      have hafter : ∀ v ∈ newer.filter (·.key ≠ w.key) ++ [w], v.key ∈ others := by
        intro v hv
        rcases List.mem_append.mp hv with hv | hv
        · exact hnewer v (List.mem_filter.mp hv).1
        · rw [List.mem_singleton.mp hv]
          exact hothers w hfound hkey
      have hnodup := nodup_used h.coherent w
      rw [hused, List.map_append, List.map_cons] at hnodup
      have hfew := length_le_card (List.nodup_cons.mp (List.nodup_append.mp hnodup).2.1).2 hafter
      obtain ⟨older', holder'⟩ := exists_afterUse_eq hused (by rw [List.length_cons]; omega)
      exact ⟨older', _, hrecent.trans holder', hafter⟩

theorem keeps_after {others : Finset String} (h : s.Settled) (hz : s.Keeps z others)
    (hclears : ∀ a ∈ actions, a.clears z.key = false)
    (hothers : ∀ w ∈ s.found actions, w.key ≠ z.key → w.key ∈ others)
    (hcard : others.card < capacity) : (s.after actions).Keeps z others := by
  induction actions generalizing s with
  | nil => exact hz
  | cons a actions ih =>
    rw [List.forall_mem_cons] at hclears
    refine ih (settled_apply h a) ?_ hclears.2 fun w hw => hothers w (List.mem_append_right _ hw)
    refine keeps_apply h hz hclears.1 (fun w hw => hothers w (List.mem_append_left _ ?_)) hcard
    rw [hw]
    exact List.mem_singleton_self w

/-- A zone that has been looked up stays among the recent ones as long as its key is not
cleared and fewer than eight other keys are looked up. -/
theorem mem_recent_of_found? (h : s.Settled) (hz : a.found? s = some z)
    (hclears : ∀ b ∈ actions, b.clears z.key = false)
    (hfew : (otherKeys ((a.apply s).found actions) z.key).card < capacity) :
    z ∈ ((a.apply s).after actions).recent := by
  obtain ⟨older, newer, hsplit, -⟩ := by
    refine keeps_after (settled_apply h a) (keeps_of_found? h hz _) hclears ?_ hfew
    intro w hw hkey
    rw [otherKeys, Finset.mem_erase, List.mem_toFinset]
    exact ⟨hkey, List.mem_map_of_mem hw⟩
  rw [hsplit]
  exact List.mem_append_right _ List.mem_cons_self

end Store

end CivilTime.Zone
