import CivilTime.Proofs.Zone.Timeline

/-!
# Looking up offsets in a table

A table finds the number of transitions up to a local time by halving the list of them.
The table of a regular zone whose offset stays the same after the last transition gives
the offsets that the numbers of transitions say.
-/

namespace CivilTime.Zone

namespace Table

/-- The numbers before `lo` are at most `x`, and those from `hi` on are greater. -/
def Brackets (a : Array Int) (x : Int) (lo hi : Nat) : Prop :=
  (lo ≤ hi ∧ hi ≤ a.size) ∧ (∀ i < lo, a.getD i 0 ≤ x) ∧ ∀ i < a.size, hi ≤ i → x < a.getD i 0

/-- The numbers do not fall. -/
def Ascending (a : Array Int) : Prop :=
  ∀ i j, i ≤ j → j < a.size → a.getD i 0 ≤ a.getD j 0

variable {a : Array Int} {x : Int} {lo hi : Nat}

/-- Halving ends where numbers up to `x` and greater ones meet. -/
theorem brackets_countUpTo (hasc : Ascending a) (h : Brackets a x lo hi) :
    Brackets a x (countUpTo a x lo hi) (countUpTo a x lo hi) := by
  fun_induction countUpTo a x lo hi with
  | case1 lo hi hlt mid hgreater ih =>
    obtain ⟨⟨hle, hsize⟩, hbelow, habove⟩ := h
    refine ih ⟨by omega, hbelow, fun i hi hmid => ?_⟩
    have := hasc mid i hmid hi
    omega
  | case2 lo hi hlt mid hgreater ih =>
    obtain ⟨⟨hle, hsize⟩, hbelow, habove⟩ := h
    refine ih ⟨by omega, fun i hi => ?_, habove⟩
    have := hasc i mid (by omega) (by omega)
    omega
  | case3 lo hi hlt =>
    obtain ⟨⟨hle, hsize⟩, hbelow, habove⟩ := h
    obtain rfl : lo = hi := by omega
    exact ⟨⟨hle, hsize⟩, hbelow, habove⟩

theorem getD_toArray {l : List Int} {i : Nat} (h : i < l.length) : l.toArray.getD i 0 = l[i] := by
  rw [Array.getD_eq_getD_getElem?, List.getElem?_toArray, List.getElem?_eq_getElem h,
    Option.getD_some]

theorem ascending_of_pairwise {l : List Int} (h : l.Pairwise (· ≤ ·)) : Ascending l.toArray := by
  intro i j hij hj
  rw [List.size_toArray] at hj
  rw [getD_toArray hj, getD_toArray (by omega)]
  rcases Nat.eq_or_lt_of_le hij with rfl | hlt
  · exact Int.le_refl _
  · exact List.pairwise_iff_getElem.mp h i j (by omega) hj hlt

theorem le_last_of_pairwise {l : List Int} {last : Int} (h : l.Pairwise (· ≤ ·))
    (hlast : l.getLast? = some last) : ∀ x ∈ l, x ≤ last := by
  obtain ⟨init, rfl⟩ := List.getLast?_eq_some_iff.mp hlast
  obtain ⟨-, -, hle⟩ := List.pairwise_append.mp h
  intro x hx
  rcases List.mem_append.mp hx with hx | hx
  · exact hle x hx last List.mem_cons_self
  · exact Int.le_of_eq (List.mem_singleton.mp hx)

theorem countP_of_lt_head {first t : Int} {rest : List Int}
    (h : (first :: rest).Pairwise (· ≤ ·)) (ht : t < first) :
    (first :: rest).countP (· ≤ t) = 0 := by
  rw [List.countP_eq_zero]
  intro s hs
  rw [decide_eq_true_iff]
  rcases List.mem_cons.mp hs with rfl | hs
  · omega
  · have := List.rel_of_pairwise_cons h hs
    omega

theorem countP_of_last_le {l : List Int} {last t : Int} (h : l.Pairwise (· ≤ ·))
    (hlast : l.getLast? = some last) (ht : last ≤ t) : l.countP (· ≤ t) = l.length := by
  rw [List.countP_eq_length]
  intro s hs
  have := le_last_of_pairwise h hlast s hs
  exact decide_eq_true (by omega)

theorem countP_of_brackets {l : List Int} {n : Nat} (h : Brackets l.toArray x n n) :
    l.countP (· ≤ x) = n := by
  obtain ⟨⟨-, hsize⟩, hbelow, habove⟩ := h
  rw [List.size_toArray] at hsize habove
  have htake : (l.take n).countP (· ≤ x) = (l.take n).length := by
    rw [List.countP_eq_length]
    intro y hy
    obtain ⟨i, hi, rfl⟩ := List.mem_take_iff_getElem.mp hy
    have := hbelow i (by omega)
    rw [getD_toArray (by omega)] at this
    exact decide_eq_true this
  have hdrop : (l.drop n).countP (· ≤ x) = 0 := by
    rw [List.countP_eq_zero]
    intro y hy
    obtain ⟨i, hi, rfl⟩ := List.mem_drop_iff_getElem.mp hy
    have := habove (n + i) (by omega) (by omega)
    rw [getD_toArray (by omega)] at this
    rw [decide_eq_true_iff]
    omega
  calc l.countP (· ≤ x) = (l.take n ++ l.drop n).countP (· ≤ x) := by rw [List.take_append_drop]
    _ = n := by
      rw [List.countP_append, htake, hdrop, List.length_take, Nat.add_zero, Nat.min_eq_left hsize]

/-- The number of transitions that halving finds is that of those up to `x`. -/
theorem countUpTo_eq {l : List Int} (h : l.Pairwise (· ≤ ·)) (x : Int) :
    countUpTo l.toArray x 0 l.toArray.size = l.countP (· ≤ x) := by
  refine (countP_of_brackets (brackets_countUpTo (ascending_of_pairwise h) ?_)).symm
  exact ⟨⟨Nat.zero_le _, Nat.le_refl _⟩, fun i hi => by omega, fun i hi hle => by omega⟩

/-! ## Tables of regular zones -/

/-- A table gives each local time the offset that the numbers of transitions say. -/
def Answers (z : Table) (initial : Int) (trs : List Transition) : Prop :=
  ∀ fold year t, z.offsetAt fold year t = offsetAtLocal fold initial trs t

/-- The table of a zone that stays at the offset of the last transition. -/
def ofTransitions (initial : Int) (trs : List Transition) : Table :=
  ⟨initial, initial, trs, .fixed (offsetAfter initial trs trs.length)⟩

theorem length_localTimes (fold : Bool) (initial : Int) (trs : List Transition) :
    (localTimes fold initial trs).length = trs.length := by
  induction trs generalizing initial with
  | nil => rfl
  | cons tr rest ih => rw [localTimes, List.length_cons, List.length_cons, ih]

theorem offsetAfter_succ (d initial : Int) (trs : List Transition) {k : Nat} (h : k < trs.length) :
    (trs[k]?).elim d (·.offset) = offsetAfter initial trs (k + 1) := by
  induction trs generalizing initial k with
  | nil => exact absurd h (Nat.not_lt_zero k)
  | cons tr rest ih =>
    cases k with
    | zero => cases rest <;> rfl
    | succ k => exact ih tr.offset (Nat.lt_of_succ_lt_succ h)

theorem answers_ofTransitions (initial : Int) (trs : List Transition) (h : Regular initial trs) :
    (ofTransitions initial trs).Answers initial trs := by
  intro fold year t
  have hsorted := h.localTimes_pairwise fold
  have hlength := length_localTimes fold initial trs
  have hfound := countUpTo_eq hsorted t
  rw [offsetAtLocal, offsetSince, offsetAt]
  simp only [ofTransitions, Footer.offsetAt, hfound, List.getElem?_toArray, List.back?_toArray]
  generalize localTimes fold initial trs = times at hsorted hlength
  cases times with
  | nil =>
    obtain rfl : trs = [] := List.length_eq_zero_iff.mp hlength.symm
    rfl
  | cons first rest =>
    obtain ⟨last, hlast⟩ : ∃ last, (first :: rest).getLast? = some last := ⟨_, rfl⟩
    rw [hlast]
    change (if t < first then initial else if t > last then _ else _) = _
    split
    case isTrue hbefore => rw [countP_of_lt_head hsorted hbefore, offsetAfter]
    case isFalse hfirst =>
      split
      case isTrue hafter => rw [countP_of_last_le hsorted hlast (by omega), hlength]
      case isFalse hlate =>
        have hpos : 0 < (first :: rest).countP (· ≤ t) :=
          List.countP_pos_iff.mpr ⟨first, List.mem_cons_self, decide_eq_true (by omega)⟩
        have hmost :=
          List.countP_le_length (p := fun s : Int => decide (s ≤ t)) (l := first :: rest)
        rw [offsetAfter_succ _ _ _ (by omega), Nat.sub_add_cancel hpos]

end Table

end CivilTime.Zone
