/-!
# Splitting texts

A text is cut at every occurrence of a character. The pieces, joined with that
character again, give the text back.
-/

namespace CivilTime.Text

/-- The pieces of a text between the occurrences of `sep`, of which there is one
more than there are occurrences. -/
def splitAt (sep : Char) : List Char → List (List Char)
  | [] => [[]]
  | c :: cs =>
    if c = sep then [] :: splitAt sep cs
    else match splitAt sep cs with
      | [] => [[c]]
      | piece :: pieces => (c :: piece) :: pieces

theorem splitAt_ne_nil (sep : Char) (cs : List Char) : splitAt sep cs ≠ [] := by
  cases cs with
  | nil => simp [splitAt]
  | cons c cs =>
    rw [splitAt]
    split
    · simp
    · split <;> simp

/-- The pieces with `sep` between them are the text. -/
theorem intercalate_splitAt (sep : Char) (cs : List Char) :
    [sep].intercalate (splitAt sep cs) = cs := by
  induction cs with
  | nil => rfl
  | cons c cs ih =>
    rw [splitAt]
    have hne := splitAt_ne_nil sep cs
    cases hs : splitAt sep cs with
    | nil => exact absurd hs hne
    | cons piece pieces =>
      rw [hs] at ih
      split
      · next h =>
        subst h
        simpa [List.intercalate] using ih
      · cases pieces <;> simpa [List.intercalate] using ih

theorem splitAt_append (sep : Char) (cs ds : List Char) :
    splitAt sep (cs ++ sep :: ds) = splitAt sep cs ++ splitAt sep ds := by
  induction cs with
  | nil =>
    change splitAt sep (sep :: ds) = [[]] ++ splitAt sep ds
    rw [splitAt, if_pos rfl]
    rfl
  | cons c cs ih =>
    rw [List.cons_append, splitAt, splitAt, ih]
    split
    case isTrue => rfl
    case isFalse =>
      cases hs : splitAt sep cs with
      | nil => exact absurd hs (splitAt_ne_nil sep cs)
      | cons piece pieces => rfl

theorem not_mem_of_mem_splitAt {sep : Char} {cs piece : List Char} (h : piece ∈ splitAt sep cs) :
    sep ∉ piece := by
  induction cs generalizing piece with
  | nil =>
    rw [List.mem_singleton.mp h]
    exact List.not_mem_nil
  | cons c cs ih =>
    rw [splitAt] at h
    split at h
    case isTrue =>
      rcases List.mem_cons.mp h with rfl | h
      · exact List.not_mem_nil
      · exact ih h
    case isFalse hc =>
      cases hs : splitAt sep cs with
      | nil => exact absurd hs (splitAt_ne_nil sep cs)
      | cons first pieces =>
        rw [hs] at h ih
        rcases List.mem_cons.mp h with rfl | h
        · intro hsep
          rcases List.mem_cons.mp hsep with rfl | hsep
          · exact hc rfl
          · exact ih List.mem_cons_self hsep
        · exact ih (List.mem_cons_of_mem _ h)

theorem intercalate_cons (sep : Char) (piece : List Char) (pieces : List (List Char)) :
    [sep].intercalate (piece :: pieces) = piece ++ pieces.flatMap (sep :: ·) := by
  induction pieces generalizing piece with
  | nil => rw [List.intercalate_singleton, List.flatMap_nil, List.append_nil]
  | cons next pieces ih =>
    rw [List.intercalate_cons_cons, ih next, List.flatMap_cons, List.append_assoc]
    rfl

theorem intercalate_append {sep : Char} {xs ys : List (List Char)} (hxs : xs ≠ [])
    (hys : ys ≠ []) :
    [sep].intercalate (xs ++ ys) = [sep].intercalate xs ++ sep :: [sep].intercalate ys := by
  obtain ⟨x, xs, rfl⟩ := List.exists_cons_of_ne_nil hxs
  obtain ⟨y, ys, rfl⟩ := List.exists_cons_of_ne_nil hys
  rw [List.cons_append, intercalate_cons, intercalate_cons, intercalate_cons, List.flatMap_append,
    List.flatMap_cons, List.append_assoc]
  rfl

/-- The pieces before and after a piece stand before and after it in the text, with `sep` in
between. -/
theorem eq_of_splitAt_eq {sep : Char} {cs piece : List Char} {before after : List (List Char)}
    (h : splitAt sep cs = before ++ piece :: after) :
    cs = (if before = [] then [] else [sep].intercalate before ++ [sep]) ++ piece ++
      if after = [] then [] else sep :: [sep].intercalate after := by
  have hpiece : [sep].intercalate (piece :: after) =
      piece ++ if after = [] then [] else sep :: [sep].intercalate after := by
    by_cases hafter : after = []
    · rw [if_pos hafter, hafter, List.intercalate_singleton, List.append_nil]
    · rw [if_neg hafter, List.intercalate_cons_of_ne_nil hafter, List.append_assoc]
      rfl
  rw [← intercalate_splitAt sep cs, h, List.append_assoc, ← hpiece]
  by_cases hbefore : before = []
  · rw [if_pos hbefore, hbefore]
    rfl
  · rw [if_neg hbefore, intercalate_append hbefore (List.cons_ne_nil _ _), List.append_assoc]
    rfl

end CivilTime.Text
