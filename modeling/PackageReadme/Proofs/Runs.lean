import Mathlib.Data.List.SplitBy
import PackageReadme.Proofs.Newlines

/-! Limiting newlines is cutting runs short.

The limiter counts newlines as they come. A text is a sequence of `runs`, the longest stretches of
equal symbols, and over a run the count tells how much of it is still let through
(`limitAfter_replicate_append`); after it the count does not matter, since the next run is of
another symbol. So a run of newlines leaves two of them at most, and any other run is kept whole
(`limit_eq_flatMap_runs`). A list without three newlines in a row is let through as it is
(`limit_eq_self_iff`). Main statement: `normalize_shortens_runs`. -/
namespace PackageReadme.Newlines

section
variable {α : Type} [DecidableEq α] {newline : α}

/-! ### Runs -/

/-- The longest stretches of equal symbols, in order. -/
def runs (s : List α) : List (List α) :=
  s.splitBy (· == ·)

/-- A run of newlines without those after the second; any other run as it is. -/
def shortened (newline : α) (run : List α) : List α :=
  if newline ∈ run then List.replicate (min run.length 2) newline else run

/-- Of a run that goes on, only so many newlines pass as the count leaves room for. -/
theorem limitAfter_replicate_append (run k : Nat) (rest : List α) :
    limitAfter newline run (List.replicate k newline ++ rest) =
      List.replicate (min k (longestRun - run)) newline ++ limitAfter newline (run + k) rest := by
  induction k generalizing run with
  | zero => rw [Nat.zero_min]; rfl
  | succ k ih =>
    rw [List.replicate_succ, List.cons_append, limitAfter, if_pos rfl, ih, Nat.add_right_comm,
      Nat.add_assoc]
    split
    · rename_i hshort
      have hmin : min (k + 1) (longestRun - run) = min k (longestRun - (run + 1)) + 1 := by omega
      rw [hmin, List.replicate_succ, List.cons_append]
    · rename_i hlong
      have hmin : min (k + 1) (longestRun - run) = min k (longestRun - (run + 1)) := by omega
      rw [hmin]

/-- The count does not matter where no newline follows. -/
theorem limitAfter_of_head?_ne {s : List α} (h : s.head? ≠ some newline) (run : Nat) :
    limitAfter newline run s = limit newline s := by
  cases s with
  | nil => rfl
  | cons a rest =>
    have ha : a ≠ newline := fun heq => h (congrArg some heq)
    rw [limit, limitAfter, limitAfter, if_neg ha, if_neg ha]

/-- **A run is let through by itself**, if the list goes on with another symbol. -/
theorem limit_run_append {a : α} {k : Nat} (hk : 0 < k) {rest : List α}
    (hrest : rest.head? ≠ some a) :
    limit newline (List.replicate k a ++ rest) =
      shortened newline (List.replicate k a) ++ limit newline rest := by
  by_cases ha : a = newline
  · subst ha
    have hmem : a ∈ List.replicate k a := List.mem_replicate.mpr ⟨Nat.ne_of_gt hk, rfl⟩
    rw [limit, limitAfter_replicate_append, limitAfter_of_head?_ne hrest, shortened, if_pos hmem,
      List.length_replicate]
    rfl
  · have hne : ∀ b ∈ List.replicate k a, b ≠ newline := fun b hb => by
      rwa [List.eq_of_mem_replicate hb]
    have hnil : List.replicate k a ≠ [] := by
      rw [Ne, List.replicate_eq_nil_iff]
      exact Nat.ne_of_gt hk
    rw [limit, limitAfter_append_of_forall_ne hnil hne, shortened,
      if_neg fun hmem => hne newline hmem rfl]
    rfl

/-- Runs one after another are let through one by one. -/
theorem limit_flatten {rs : List (List α)} (hnil : [] ∉ rs)
    (hsame : ∀ run ∈ rs, run.IsChain fun a b => a == b)
    (hchange : rs.IsChain fun r r' => ∃ hr hr', (r.getLast hr == r'.head hr') = false) :
    limit newline rs.flatten = rs.flatMap (shortened newline) := by
  induction rs with
  | nil => rfl
  | cons run rs ih =>
    rw [List.mem_cons, not_or] at hnil
    obtain ⟨hrun, hruns⟩ := List.forall_mem_cons.mp hsame
    obtain ⟨a, more, hcons⟩ := List.exists_cons_of_ne_nil (Ne.symm hnil.1)
    have hreplicate : run = List.replicate run.length a := by
      simp only [beq_iff_eq] at hrun
      rw [hcons] at hrun ⊢
      exact congrArg (a :: ·) (List.isChain_cons_eq_iff_eq_replicate.mp hrun)
    -- the next run starts with another symbol than this one ends in
    have hnext : rs.flatten.head? ≠ some a := by
      cases rs with
      | nil => simp
      | cons next rs =>
        obtain ⟨hr, hr', hne⟩ := (List.isChain_cons_cons.mp hchange).1
        have hall : ∀ b ∈ run, b = a := by
          rw [hreplicate]
          exact fun b => List.eq_of_mem_replicate
        have hlast : run.getLast hr = a := hall _ (List.getLast_mem hr)
        rw [List.flatten_cons, List.head?_append_of_ne_nil _ hr', List.head?_eq_some_head hr']
        intro hhead
        rw [hlast, Option.some.inj hhead] at hne
        simp at hne
    have hpos : 0 < run.length := List.length_pos_of_ne_nil (Ne.symm hnil.1)
    rw [List.flatten_cons, List.flatMap_cons, hreplicate, limit_run_append hpos hnext,
      ih hnil.2 hruns hchange.tail]

/-- **What is let through is every run cut short.** -/
theorem limit_eq_flatMap_runs (s : List α) :
    limit newline s = (runs s).flatMap (shortened newline) := by
  conv_lhs => rw [← List.flatten_splitBy (· == ·) s]
  exact limit_flatten (List.nil_notMem_splitBy _ s) (fun _ => List.isChain_of_mem_splitBy)
    (List.isChain_getLast_head_splitBy _ s)

/-! ### Lists that are let through as they are -/

/-- Without three newlines in a row, those of the run before counted too, no run gets longer than
two. -/
theorem isLimited_of_no_three {run : Nat} {s : List α}
    (h : ¬ [newline, newline, newline] <:+: List.replicate run newline ++ s) :
    IsLimited newline run s := by
  induction s generalizing run with
  | nil => trivial
  | cons a rest ih =>
    rw [IsLimited]
    split
    · rename_i hnewline
      subst hnewline
      have hgrown : List.replicate run a ++ a :: rest = List.replicate (run + 1) a ++ rest := by
        rw [List.replicate_succ', List.append_assoc, List.singleton_append]
      rw [hgrown] at h
      refine ⟨Nat.lt_of_not_le fun hlong => h ?_, ih h⟩
      obtain ⟨k, rfl⟩ := Nat.exists_eq_add_of_le hlong
      exact ⟨[], List.replicate k a ++
        rest, by simp [longestRun, Nat.add_comm 2, List.replicate_succ]⟩
    · exact ih fun hthree => h (hthree.trans ⟨List.replicate run newline ++ [a], [], by simp⟩)

theorem limitAfter_eq_self {run : Nat} {s : List α} (h : IsLimited newline run s) :
    limitAfter newline run s = s := by
  induction s generalizing run with
  | nil => rfl
  | cons a rest ih =>
    rw [IsLimited] at h
    rw [limitAfter]
    split at h
    · rename_i hnewline
      rw [if_pos hnewline, if_pos h.1, ih h.2]
    · rename_i hother
      rw [if_neg hother, ih h]

theorem limit_eq_self_iff {s : List α} :
    limit newline s = s ↔ ¬ [newline, newline, newline] <:+: s := by
  constructor
  · intro h
    rw [← h]
    exact not_infix_limit s
  · exact fun h => limitAfter_eq_self (isLimited_of_no_three h)

theorem limit_limit (s : List α) : limit newline (limit newline s) = limit newline s :=
  limit_eq_self_iff.mpr (not_infix_limit s)

end

/-! ### Texts -/

theorem normalize_eq_iff {s t : String} : normalize s = t ↔ limit '\n' s.toList = t.toList := by
  rw [normalize, ← String.toList_inj, String.toList_ofList]

/-- **Normalizing a text cuts its runs of newlines short and does nothing else**: of every run of
newlines the first two are left, or all if there are fewer, and every other run is kept, in order.
So a text that was normalized has no three newlines in a row and is not changed by normalizing it
again, and the texts that are not changed are just those without three newlines in a row. -/
theorem normalize_shortens_runs (s : String) :
    (normalize s).toList = (runs s.toList).flatMap (shortened '\n') ∧
      normalize (normalize s) = normalize s ∧
      ¬ "\n\n\n".toList <:+: (normalize s).toList ∧
      (normalize s = s ↔ ¬ "\n\n\n".toList <:+: s.toList) := by
  have htext : (normalize s).toList = limit '\n' s.toList := String.toList_ofList
  refine ⟨?_, ?_, ?_, ?_⟩
  · rw [htext, limit_eq_flatMap_runs]
  · rw [normalize_eq_iff, htext, limit_limit]
  · rw [htext]
    exact not_infix_limit s.toList
  · rw [normalize_eq_iff]
    exact limit_eq_self_iff

end PackageReadme.Newlines
