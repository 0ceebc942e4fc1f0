import Mathlib.Data.List.Basic
import PackageReadme.Declaration

/-! What collapsing a declaration takes out.

A body is any text from an opening brace to a closing one, so a declaration may have many.
`IsOutermost` gives the places of the one that holds all others: the first opening brace and the
last closing brace, if it comes later. `ReplacesBodies` replaces bodies as they are met from left to
right, each as long as it can be. After the first of them no closing brace is left
(`isBody_longest_iff`), so it is the only one, and it is the outermost. What is written for it is a
body as well, and collapses to itself. Main statement: `collapseBody_outermost`. -/
namespace PackageReadme.Declaration

/-! ### The last mark -/

theorem afterLast?_eq_none_iff {mark : Char} {s : List Char} :
    afterLast? mark s = none ↔ mark ∉ s := by
  induction s with
  | nil => simp [afterLast?]
  | cons c s ih =>
    rw [afterLast?, List.mem_cons, not_or, ← ih]
    cases afterLast? mark s with
    | some rest => simp
    | none => simp [eq_comm]

theorem afterLast?_eq_some_iff {mark : Char} {s rest : List Char} :
    afterLast? mark s = some rest ↔ ∃ front, s = front ++ mark :: rest ∧ mark ∉ rest := by
  induction s with
  | nil => simp [afterLast?]
  | cons c s ih =>
    rw [afterLast?]
    cases hlater : afterLast? mark s with
    | some later =>
      rw [hlater] at ih
      rw [ih]
      constructor
      · rintro ⟨front, rfl, hrest⟩
        exact ⟨c :: front, rfl, hrest⟩
      · rintro ⟨front, hs, hrest⟩
        cases front with
        | nil =>
          -- the first character cannot be the last mark, since there is a later one
          obtain ⟨rfl, rfl⟩ := List.cons.inj hs
          rw [afterLast?_eq_none_iff.mpr hrest] at hlater
          cases hlater
        | cons d front => exact ⟨front, (List.cons.inj hs).2, hrest⟩
    | none =>
      have hs := afterLast?_eq_none_iff.mp hlater
      simp only [Option.ite_none_right_eq_some, Option.some.injEq]
      constructor
      · rintro ⟨rfl, rfl⟩
        exact ⟨[], rfl, hs⟩
      · rintro ⟨front, heq, -⟩
        cases front with
        | nil => exact List.cons.inj heq
        | cons d front => exact absurd (by simp [(List.cons.inj heq).2]) hs

/-! ### Collapsing -/

theorem collapseBody_append {before : List Char} (hbefore : '\x7b' ∉ before) (rest : List Char) :
    collapseBody (before ++ rest) = before ++ collapseBody rest := by
  induction before with
  | nil => rfl
  | cons c before ih =>
    rw [List.mem_cons, not_or] at hbefore
    rw [List.cons_append, collapseBody, if_neg (Ne.symm hbefore.1), ih hbefore.2, List.cons_append]

theorem collapseBody_of_no_opening {s : List Char} (h : '\x7b' ∉ s) : collapseBody s = s := by
  simpa [collapseBody] using collapseBody_append h []

theorem collapseBody_opening {s : List Char} (h : '\x7d' ∉ s) :
    collapseBody ('\x7b' :: s) = '\x7b' :: s := by
  rw [collapseBody, if_pos rfl, afterLast?_eq_none_iff.mpr h]

theorem collapseBody_of_no_closing {s : List Char} (h : '\x7d' ∉ s) : collapseBody s = s := by
  induction s with
  | nil => rfl
  | cons c s ih =>
    rw [List.mem_cons, not_or] at h
    by_cases hc : c = '\x7b'
    · rw [hc, collapseBody_opening h.2]
    · rw [collapseBody, if_neg hc, ih h.2]

/-! ### Bodies -/

/-- All from an opening brace to a closing brace, whatever stands between them. -/
def IsBody (s : List Char) : Prop :=
  ∃ inner, s = '\x7b' :: (inner ++ ['\x7d'])

theorem isBody_collapsed : IsBody collapsed :=
  ⟨" ... ".toList, by decide⟩

/-- A body starts just at an opening brace that has a closing brace after it. -/
theorem exists_isBody_prefix_iff {c : Char} {s : List Char} :
    (∃ body, IsBody body ∧ body <+: c :: s) ↔ c = '\x7b' ∧ '\x7d' ∈ s := by
  constructor
  · rintro ⟨_, ⟨inner, rfl⟩, after, h⟩
    obtain ⟨rfl, rfl⟩ := List.cons.inj h
    exact ⟨rfl, by simp⟩
  · rintro ⟨rfl, hclosing⟩
    obtain ⟨inner, after, rfl⟩ := List.append_of_mem hclosing
    exact ⟨_, ⟨inner, rfl⟩, after, by simp⟩

/-- A body is the longest that starts at its place just if no closing brace follows it. -/
theorem isBody_longest_iff {body rest : List Char} (hbody : IsBody body) :
    (∀ longer, IsBody longer → longer <+: body ++ rest → longer.length ≤ body.length) ↔
      '\x7d' ∉ rest := by
  constructor
  · intro hlongest hclosing
    obtain ⟨inner, rfl⟩ := hbody
    obtain ⟨more, after, rfl⟩ := List.append_of_mem hclosing
    have hlonger := hlongest _ ⟨inner ++ '\x7d' :: more, rfl⟩ ⟨after, by simp⟩
    simp only [List.length_cons, List.length_append] at hlonger
    omega
  · rintro hrest _ ⟨inner, rfl⟩ ⟨after, heq⟩
    rcases List.append_eq_append_iff.mp heq with ⟨more, hshorter, -⟩ | ⟨more, hlonger, hmore⟩
    · rw [hshorter, List.length_append]
      exact Nat.le_add_right _ _
    · -- what the longer body has more ends in a closing brace, and stands in `rest`
      rcases List.eq_nil_or_concat' more with rfl | ⟨more, c, rfl⟩
      · exact Nat.le_of_eq (by rw [hlonger, List.append_nil])
      · have hend : '\x7b' :: inner ++ ['\x7d'] = body ++ more ++ [c] := by rwa [List.append_assoc]
        rw [hmore, ← List.append_inj_right' hend rfl] at hrest
        exact absurd (by simp) hrest

/-- **What stands between the outermost braces does not matter.** -/
theorem collapseBody_append_body {before body after : List Char} (hbefore : '\x7b' ∉ before)
    (hbody : IsBody body) (hafter : '\x7d' ∉ after) :
    collapseBody (before ++ body ++ after) = before ++ collapsed ++ after := by
  obtain ⟨inner, rfl⟩ := hbody
  have hlast : afterLast? '\x7d' (inner ++ ['\x7d'] ++ after) = some after :=
    afterLast?_eq_some_iff.mpr ⟨inner, List.append_assoc .., hafter⟩
  rw [List.append_assoc, collapseBody_append hbefore, List.cons_append, collapseBody,
    if_pos rfl, hlast]
  exact (List.append_assoc ..).symm

/-! ### The outermost body -/

/-- The first opening brace is at `i` and the last closing brace at `j`, later than that. -/
structure IsOutermost (decl : List Char) (i j : Nat) : Prop where
  opens : decl[i]? = some '\x7b'
  first : '\x7b' ∉ decl.take i
  closes : decl[j]? = some '\x7d'
  last : '\x7d' ∉ decl.drop (j + 1)
  ordered : i < j

theorem drop_eq_cons {s : List Char} {k : Nat} {c : Char} (h : s[k]? = some c) :
    s.drop k = c :: s.drop (k + 1) := by
  obtain ⟨hk, rfl⟩ := List.getElem?_eq_some_iff.mp h
  exact List.drop_eq_getElem_cons hk

theorem IsOutermost.exists_body {decl : List Char} {i j : Nat} (h : IsOutermost decl i j) :
    ∃ body, IsBody body ∧ decl = decl.take i ++ body ++ decl.drop (j + 1) := by
  refine ⟨_, ⟨(decl.drop (i + 1)).take (j - (i + 1)), rfl⟩, ?_⟩
  have hrest : (decl.drop (i + 1)).drop (j - (i + 1)) = '\x7d' :: decl.drop (j + 1) := by
    rw [List.drop_drop, Nat.add_sub_cancel' h.ordered, drop_eq_cons h.closes]
  rw [List.append_assoc, List.cons_append, List.append_assoc, List.singleton_append, ← hrest,
    List.take_append_drop, ← drop_eq_cons h.opens, List.take_append_drop]

theorem isOutermost_append_body {before after : List Char} (hbefore : '\x7b' ∉ before)
    (hafter : '\x7d' ∉ after) (inner : List Char) :
    IsOutermost (before ++ '\x7b' :: (inner ++ '\x7d' :: after)) before.length
      (before.length + (inner.length + 1)) where
  opens := by simp
  first := by rwa [List.take_left]
  closes := by simp
  last := by
    rw [Nat.add_assoc, List.drop_length_add_append, List.drop_succ_cons,
      List.drop_length_add_append]
    exact hafter
  ordered := by omega

theorem IsOutermost.collapseBody_eq {decl : List Char} {i j : Nat} (h : IsOutermost decl i j) :
    collapseBody decl = decl.take i ++ collapsed ++ decl.drop (j + 1) := by
  obtain ⟨body, hbody, hdecl⟩ := h.exists_body
  have hcollapse := collapseBody_append_body h.first hbody h.last
  rwa [← hdecl] at hcollapse

/-- A declaration without an outermost body is shown as it is. -/
theorem exists_isOutermost_or_collapseBody_eq (decl : List Char) :
    (∃ i j, IsOutermost decl i j) ∨ collapseBody decl = decl := by
  by_cases hopening : '\x7b' ∈ decl
  · obtain ⟨before, rest, rfl, hbefore⟩ := List.eq_append_cons_of_mem hopening
    cases hlast : afterLast? '\x7d' rest with
    | none =>
      rw [collapseBody_append hbefore, collapseBody_opening (afterLast?_eq_none_iff.mp hlast)]
      exact .inr rfl
    | some after =>
      obtain ⟨inner, rfl, hafter⟩ := afterLast?_eq_some_iff.mp hlast
      exact .inl ⟨_, _, isOutermost_append_body hbefore hafter inner⟩
  · exact .inr (collapseBody_of_no_opening hopening)

/-- What is written for a body is a body again, and collapses to itself. -/
theorem collapseBody_collapseBody (decl : List Char) :
    collapseBody (collapseBody decl) = collapseBody decl := by
  rcases exists_isOutermost_or_collapseBody_eq decl with ⟨i, j, h⟩ | hself
  · rw [h.collapseBody_eq]
    exact collapseBody_append_body h.first isBody_collapsed h.last
  · rw [hself, hself]

/-! ### Bodies one after another -/

/-- A declaration and what it becomes if it is read from left to right, and at each place where a
body starts, the longest of those that start there is replaced and passed over. -/
inductive ReplacesBodies (shown : List Char) : (decl written : List Char) → Prop
  | done : ReplacesBodies shown [] []
  | skip {c : Char} {rest written : List Char} : (¬ ∃ body, IsBody body ∧ body <+: c :: rest) →
    ReplacesBodies shown rest written → ReplacesBodies shown (c :: rest) (c :: written)
  | replace {body rest written : List Char} : IsBody body →
    (∀ longer, IsBody longer → longer <+: body ++ rest → longer.length ≤ body.length) →
    ReplacesBodies shown rest written → ReplacesBodies shown (body ++ rest) (shown ++ written)

theorem replacesBodies_of_no_closing (shown : List Char) {s : List Char} (h : '\x7d' ∉ s) :
    ReplacesBodies shown s s := by
  induction s with
  | nil => exact .done
  | cons c s ih =>
    have hs : '\x7d' ∉ s := fun hmem => h (List.mem_cons_of_mem c hmem)
    exact .skip (fun hbody => hs (exists_isBody_prefix_iff.mp hbody).2) (ih hs)

theorem replacesBodies_collapseBody (decl : List Char) :
    ReplacesBodies collapsed decl (collapseBody decl) := by
  fun_induction collapseBody decl with
  | case1 => exact .done
  | case2 rest after hlast =>
    obtain ⟨inner, rfl, hafter⟩ := afterLast?_eq_some_iff.mp hlast
    have hbody : IsBody ('\x7b' :: (inner ++ ['\x7d'])) := ⟨inner, rfl⟩
    have hreplace : ReplacesBodies collapsed ('\x7b' :: (inner ++ ['\x7d']) ++ after)
        (collapsed ++ after) :=
      .replace hbody ((isBody_longest_iff hbody).mpr hafter)
        (replacesBodies_of_no_closing collapsed hafter)
    rwa [List.cons_append, List.append_assoc, List.singleton_append] at hreplace
  | case3 rest hlast =>
    apply replacesBodies_of_no_closing
    rw [List.mem_cons, not_or]
    exact ⟨by decide, afterLast?_eq_none_iff.mp hlast⟩
  | case4 c rest hc ih => exact .skip (fun hbody => hc (exists_isBody_prefix_iff.mp hbody).1) ih

/-- **There is only one body to replace.** -/
theorem ReplacesBodies.eq_collapseBody {decl written : List Char}
    (h : ReplacesBodies collapsed decl written) :
    written = collapseBody decl := by
  induction h with
  | done => rfl
  | @skip c rest written hnone _ ih =>
    rw [exists_isBody_prefix_iff] at hnone
    by_cases hc : c = '\x7b'
    · have hrest : '\x7d' ∉ rest := fun hmem => hnone ⟨hc, hmem⟩
      rw [ih, hc, collapseBody_opening hrest, collapseBody_of_no_closing hrest]
    · rw [ih, collapseBody, if_neg hc]
  | @replace body rest written hbody hlongest _ ih =>
    have hrest : '\x7d' ∉ rest := (isBody_longest_iff hbody).mp hlongest
    have hcollapse := collapseBody_append_body List.not_mem_nil hbody hrest
    rw [ih, collapseBody_of_no_closing hrest]
    exact hcollapse.symm

/-! ### What is left out -/

/-- **The outermost body is left out, and nothing else**: if the last closing brace comes after the
first opening brace, all from the one to the other is written as three dots between braces; if not,
the declaration is kept. So collapsing a second time changes nothing. It is what one gets by
replacing every body that is met, each as long as it can be. -/
theorem collapseBody_outermost (decl : List Char) :
    (∀ i j, IsOutermost decl i j →
        collapseBody decl = decl.take i ++ "\x7b ... \x7d".toList ++ decl.drop (j + 1)) ∧
      ((¬ ∃ i j, IsOutermost decl i j) → collapseBody decl = decl) ∧
      collapseBody (collapseBody decl) = collapseBody decl ∧
      ∀ written, ReplacesBodies "\x7b ... \x7d".toList decl written ↔
        written = collapseBody decl := by
  refine ⟨fun i j h => h.collapseBody_eq, fun hnone => ?_, collapseBody_collapseBody decl,
    fun written => ?_⟩
  · exact (exists_isOutermost_or_collapseBody_eq decl).resolve_left hnone
  · constructor
    · exact ReplacesBodies.eq_collapseBody
    · rintro rfl
      exact replacesBodies_collapseBody decl

/-- Braces without a body before and after the outermost one, which holds two others and a newline;
and a declaration whose only closing brace comes too early. -/
theorem collapseBody_outermost_stray :
    let decl := "\x7da \x7bb\n\x7bc\x7d\x7bd\x7d e\x7df \x7b".toList
    let early := "\x7d\x7b".toList
    IsOutermost decl 3 14 ∧ collapseBody decl = "\x7da \x7b ... \x7df \x7b".toList ∧
      (¬ ∃ i j, IsOutermost early i j) ∧ collapseBody early = early := by
  intro decl early
  have houtermost : IsOutermost decl 3 14 := ⟨by decide, by decide, by decide, by decide, by decide⟩
  have hnone : ¬ ∃ i j, IsOutermost early i j := by
    rintro ⟨i, j, h⟩
    rcases j with - | - | j
    · exact absurd h.ordered (Nat.not_lt_zero i)
    · exact absurd h.closes (by decide)
    · exact absurd h.closes (by simp [early])
  obtain ⟨hcollapse, -⟩ := collapseBody_outermost decl
  obtain ⟨-, hkeep, -⟩ := collapseBody_outermost early
  exact ⟨houtermost, (hcollapse 3 14 houtermost).trans (by decide), hnone, hkeep hnone⟩

end PackageReadme.Declaration
