import PackageReadme.Text.Line

/-! A text and its lines.

The lines put together are the text, and a newline stands at the end of a line only
(`Line.IsSingle`). Whole lines that are put one after another are read as these lines
(`lines_append`, `lines_flatten_append`). -/
namespace PackageReadme.Text

/-! ### Cutting a text into lines -/

theorem flatten_lines (text : List Char) : (lines text).flatten = text := by
  induction text with
  | nil => rfl
  | cons c cs ih =>
    rw [lines]
    split
    · rw [List.flatten_cons, ih, List.singleton_append]
    · split
      · rename_i hnil
        rw [hnil] at ih
        rw [← ih]
        rfl
      · rename_i line rest hcons
        rw [hcons] at ih
        rw [List.flatten_cons, List.cons_append, ← List.flatten_cons, ih]

theorem mem_of_mem_lines {text : List Char} {line : Line} (hline : line ∈ lines text) {c : Char}
    (hc : c ∈ line) :
    c ∈ text := by
  rw [← flatten_lines text]
  exact List.mem_flatten_of_mem hline hc

theorem lines_ne_nil {text : List Char} (h : text ≠ []) : lines text ≠ [] := by
  intro hnil
  rw [← flatten_lines text, hnil] at h
  exact h rfl

/-- A newline is at the end, if there is one. -/
def Line.IsSingle (line : Line) : Prop :=
  ∀ front back, line = front ++ '\n' :: back → back = []

theorem isSingle_of_mem_lines {text : List Char} {line : Line} (h : line ∈ lines text) :
    line.IsSingle := by
  induction text generalizing line with
  | nil => cases h
  | cons c cs ih =>
    -- a character that is no newline goes in front of the next line, if there is one
    have hcons {next : Line} (hc : c ≠ '\n') (hnext : next.IsSingle) :
        Line.IsSingle (c :: next) := by
      intro front back heq
      cases front with
      | nil => exact absurd (List.cons.inj heq).1 hc
      | cons d front => exact hnext front back (List.cons.inj heq).2
    have hempty : Line.IsSingle [] := fun front back heq => by simp at heq
    rw [lines] at h
    split at h
    · rename_i hc
      rcases List.mem_cons.mp h with rfl | h
      · intro front back heq
        cases front with
        | nil => exact (List.cons.inj heq).2.symm
        | cons d front => simp at heq
      · exact ih h
    · rename_i hc
      split at h
      · rw [List.mem_singleton.mp h]
        exact hcons hc hempty
      · rename_i next rest hlines
        rcases List.mem_cons.mp h with rfl | h
        · exact hcons hc (ih (by rw [hlines]; exact List.mem_cons_self ..))
        · exact ih (by rw [hlines]; exact List.mem_cons_of_mem next h)

theorem Line.IsSingle.of_isInfix {line part : Line} (h : line.IsSingle) (hpart : part <:+: line) :
    part.IsSingle := by
  rintro front back rfl
  obtain ⟨before, after, rfl⟩ := hpart
  have hback : back ++ after = [] := h (before ++ front) (back ++ after) (by simp)
  exact (List.append_eq_nil_iff.mp hback).1

/-! ### Putting lines together -/

/-- The first line reaches up to the first newline. -/
theorem lines_append_cons {front : List Char} (h : '\n' ∉ front) (rest : List Char) :
    lines (front ++ '\n' :: rest) = (front ++ ['\n']) :: lines rest := by
  induction front with
  | nil => rw [List.nil_append, lines, if_pos rfl, List.nil_append]
  | cons c front ih =>
    rw [List.mem_cons, not_or] at h
    rw [List.cons_append, lines, if_neg (Ne.symm h.1), ih h.2]
    rfl

theorem lines_of_notMem {s : List Char} (hne : s ≠ []) (h : '\n' ∉ s) : lines s = [s] := by
  induction s with
  | nil => exact absurd rfl hne
  | cons c s ih =>
    rw [List.mem_cons, not_or] at h
    rw [lines, if_neg (Ne.symm h.1)]
    by_cases hs : s = []
    · rw [hs]
      rfl
    · rw [ih hs h.2]

/-- Whatever is put in front of the lines of a text, without a newline in it, makes lines of the
same number. -/
theorem lines_flatMap_append {lead : Line → List Char} (h : ∀ line, '\n' ∉ lead line)
    (text : List Char) :
    lines ((lines text).flatMap fun line => lead line ++ line) = (lines text).map fun line =>
      lead line ++ line := by
  -- on the length of the text: the first line goes up to its newline, or there is no other line
  induction hn : text.length using Nat.strongRecOn generalizing text with
  | ind n ih =>
    by_cases hmem : '\n' ∈ text
    · obtain ⟨front, rest, htext, hfront⟩ := List.eq_append_cons_of_mem hmem
      have hrest : rest.length < n := by
        rw [← hn, htext, List.length_append, List.length_cons]
        omega
      have hline : '\n' ∉ lead (front ++ ['\n']) ++ front := by
        rw [List.mem_append, not_or]
        exact ⟨h _, hfront⟩
      have hcut := lines_append_cons hline ((lines rest).flatMap fun line => lead line ++ line)
      rw [htext, lines_append_cons hfront, List.flatMap_cons, List.map_cons, ← ih _ hrest rest rfl]
      simpa using hcut
    · by_cases hne : text = []
      · rw [hne]
        rfl
      · rw [lines_of_notMem hne hmem, List.flatMap_singleton, List.map_singleton]
        apply lines_of_notMem
        · simp [hne]
        · rw [List.mem_append, not_or]
          exact ⟨h _, hmem⟩

/-- A newline ends the line, and there is no other. -/
def Line.IsEnded (line : Line) : Prop :=
  ∃ front, '\n' ∉ front ∧ line = front ++ ['\n']

theorem Line.IsSingle.isEnded_terminated {line : Line} (h : line.IsSingle) :
    line.terminated.IsEnded := by
  by_cases hmem : '\n' ∈ line
  · obtain ⟨front, back, hline, hfront⟩ := List.eq_append_cons_of_mem hmem
    obtain rfl := h front back hline
    exact ⟨front, hfront, by rw [Line.terminated, hline, if_pos List.getLast?_concat]⟩
  · refine ⟨line, hmem, ?_⟩
    rw [Line.terminated, if_neg fun hlast => hmem (List.mem_of_getLast? hlast)]

theorem terminated_append {s : List Char} (h : s.getLast? ≠ some '\n') (rest : List Char) :
    Line.terminated (s ++ rest) = s ++ Line.terminated rest := by
  cases hlast : rest.getLast? with
  | none =>
    rw [List.getLast?_eq_none_iff.mp hlast, List.append_nil, Line.terminated, if_neg h]
    rfl
  | some c =>
    have hsame : (s ++ rest).getLast? = rest.getLast? := by
      rw [List.getLast?_append, hlast, Option.some_or]
    rw [Line.terminated, Line.terminated, hsame]
    split
    · rfl
    · rw [List.append_assoc]

/-- Lines that are ended are read as these lines. -/
theorem lines_flatten_append {ls : List Line} (h : ∀ line ∈ ls, line.IsEnded) (rest : List Char) :
    lines (ls.flatten ++ rest) = ls ++ lines rest := by
  induction ls with
  | nil => rfl
  | cons line ls ih =>
    obtain ⟨⟨front, hfront, hline⟩, hls⟩ := List.forall_mem_cons.mp h
    rw [List.flatten_cons, hline, List.append_assoc, List.append_assoc, List.singleton_append,
      lines_append_cons hfront, ih hls, List.cons_append]

theorem lines_flatMap_terminated {ls : List Line} (h : ∀ line ∈ ls, line.IsSingle)
    (rest : List Char) :
    lines (ls.flatMap Line.terminated ++ rest) = ls.map Line.terminated ++ lines rest := by
  rw [List.flatMap_def]
  exact lines_flatten_append (List.forall_mem_map.mpr fun line hline =>
    (h line hline).isEnded_terminated) rest

/-- No line of a text is left open. -/
def Whole (s : List Char) : Prop :=
  s = [] ∨ ∃ front, s = front ++ ['\n']

theorem Whole.append {a b : List Char} (ha : Whole a) (hb : Whole b) : Whole (a ++ b) := by
  rcases hb with rfl | ⟨front, rfl⟩
  · rwa [List.append_nil]
  · exact .inr ⟨a ++ front, (List.append_assoc ..).symm⟩

theorem whole_flatMap {α : Type} {f : α → List Char} {l : List α} (h : ∀ x ∈ l, Whole (f x)) :
    Whole (l.flatMap f) := by
  induction l with
  | nil => exact .inl rfl
  | cons x l ih =>
    exact (h x (List.mem_cons_self ..)).append (ih fun y hy => h y (List.mem_cons_of_mem x hy))

/-- Whole lines are read by themselves. -/
theorem lines_append {s : List Char} (h : Whole s) (rest : List Char) :
    lines (s ++ rest) = lines s ++ lines rest := by
  rcases h with rfl | ⟨front, rfl⟩
  · rfl
  · induction front with
    | nil => simp [lines]
    | cons c front ih =>
      rw [List.cons_append, List.cons_append, lines, ih, lines]
      split
      · rfl
      · cases hlines : lines (front ++ ['\n']) with
        | nil => exact absurd hlines (lines_ne_nil (by simp))
        | cons line more => rfl

end PackageReadme.Text
