/-! # Splitting text at a separator character

`splitAt sep cs` cuts `cs` at every `sep`; the pieces between separators may be empty, and
there is always one piece more than there are separators.  `splitFirst? sep cs` cuts at the
first `sep` only.

Main statements: `splitAt_length` (one piece more than separators) and
`intercalate_splitAt` (joining the pieces with `sep` gives the text back).
-/

namespace GlobalTxn.Text

/-- The pieces of `cs` between occurrences of `sep`. -/
def splitAt (sep : Char) : List Char → List (List Char)
  | [] => [[]]
  | c :: cs =>
    if c = sep then [] :: splitAt sep cs
    else match splitAt sep cs with
      | [] => [[c]]
      | p :: ps => (c :: p) :: ps

/-- The text before and after the first `sep`, if there is one. -/
def splitFirst? (sep : Char) : List Char → Option (List Char × List Char)
  | [] => none
  | c :: cs =>
    if c = sep then some ([], cs)
    else (splitFirst? sep cs).map fun (a, b) => (c :: a, b)

theorem splitAt_ne_nil (sep : Char) (cs : List Char) : splitAt sep cs ≠ [] := by
  cases cs with
  | nil => simp [splitAt]
  | cons c cs =>
    unfold splitAt
    split
    · simp
    · split <;> simp

theorem splitAt_length (sep : Char) (cs : List Char) :
    (splitAt sep cs).length = cs.count sep + 1 := by
  induction cs with
  | nil => rfl
  | cons c cs ih =>
    unfold splitAt
    by_cases h : c = sep
    · simp [h, ih]
    · have hne : (c == sep) = false := by simpa using h
      simp only [h, if_false, List.count_cons, hne]
      split
      · rename_i heq; exact absurd heq (splitAt_ne_nil sep cs)
      · rename_i p ps heq; rw [heq] at ih; simpa using ih

theorem intercalate_splitAt (sep : Char) (cs : List Char) :
    [sep].intercalate (splitAt sep cs) = cs := by
  induction cs with
  | nil => rfl
  | cons c cs ih =>
    unfold splitAt
    by_cases h : c = sep
    · subst h
      rw [if_pos rfl]
      cases hs : splitAt c cs with
      | nil => exact absurd hs (splitAt_ne_nil c cs)
      | cons p ps => rw [hs] at ih; simp [List.intercalate_cons_cons, ih]
    · rw [if_neg h]
      cases hs : splitAt sep cs with
      | nil => exact absurd hs (splitAt_ne_nil sep cs)
      | cons p ps =>
        rw [hs] at ih
        cases ps with
        | nil => simpa using ih
        | cons q qs => simp [List.intercalate_cons_cons] at ih ⊢; exact ih

end GlobalTxn.Text
