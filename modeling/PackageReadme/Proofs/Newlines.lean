import PackageReadme.Newlines

/-! Runs of newlines, before and after they are limited.

`IsLimited` says symbol by symbol that no run gets longer than two; `not_infix_of_isLimited` is what
that means for a list as a whole. What is let through is limited (`isLimited_limitAfter`), and
symbols other than newlines are let through as they are (`limitAfter_append_of_forall_ne`). -/
namespace PackageReadme.Newlines

variable {α : Type} [DecidableEq α] {newline : α}

/-- No run gets longer than two, the first one counted on from `run`. -/
def IsLimited (newline : α) (run : Nat) : List α → Prop
  | [] => True
  | a :: rest =>
    if a = newline then run < longestRun ∧ IsLimited newline (run + 1) rest
    else IsLimited newline 0 rest

/-! ### Limited lists -/

theorem IsLimited.exists_of_append {run : Nat} {front rest : List α}
    (h : IsLimited newline run (front ++ rest)) : ∃ run', IsLimited newline run' rest := by
  induction front generalizing run with
  | nil => exact ⟨run, h⟩
  | cons a front ih =>
    rw [List.cons_append, IsLimited] at h
    split at h
    · exact ih h.2
    · exact ih h

/-- A limited list has no three newlines in a row. -/
theorem not_infix_of_isLimited {run : Nat} {s : List α} (h : IsLimited newline run s) :
    ¬ [newline, newline, newline] <:+: s := by
  rintro ⟨front, rest, rfl⟩
  rw [List.append_assoc] at h
  obtain ⟨run', h'⟩ := h.exists_of_append
  simp only [List.cons_append, List.nil_append, IsLimited, if_true, longestRun] at h'
  omega

/-! ### What is let through -/

/-- After a run of any length, what is let through goes on with a run of at most two. -/
theorem isLimited_limitAfter (run : Nat) (s : List α) :
    IsLimited newline (min run longestRun) (limitAfter newline run s) := by
  induction s generalizing run with
  | nil => trivial
  | cons a rest ih =>
    rw [limitAfter]
    split
    · rename_i hnewline
      have hrest := ih (run + 1)
      split
      · rename_i hshort
        have hmin : min (run + 1) longestRun = min run longestRun + 1 := by omega
        rw [hmin] at hrest
        rw [IsLimited, if_pos hnewline]
        exact ⟨by omega, hrest⟩
      · rename_i hlong
        have hmin : min (run + 1) longestRun = min run longestRun := by omega
        rw [hmin] at hrest
        exact hrest
    · rename_i hother
      rw [IsLimited, if_neg hother]
      exact ih 0

theorem not_infix_limit (s : List α) : ¬ [newline, newline, newline] <:+: limit newline s :=
  not_infix_of_isLimited (isLimited_limitAfter 0 s)

/-- Symbols that are not newlines pass and end the run. -/
theorem limitAfter_append_of_forall_ne {front : List α} (hne : front ≠ [])
    (h : ∀ a ∈ front, a ≠ newline) (run : Nat) (rest : List α) :
    limitAfter newline run (front ++ rest) = front ++ limitAfter newline 0 rest := by
  induction front generalizing run with
  | nil => exact absurd rfl hne
  | cons a front ih =>
    have ha : a ≠ newline := h a (List.mem_cons_self ..)
    rw [List.cons_append, limitAfter, if_neg ha, List.cons_append]
    congr 1
    by_cases hfront : front = []
    · rw [hfront]
      rfl
    · exact ih hfront (fun b hb => h b (List.mem_cons_of_mem a hb)) 0

end PackageReadme.Newlines
