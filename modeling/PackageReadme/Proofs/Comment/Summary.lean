import PackageReadme.Comment.Synopsis
import PackageReadme.Proofs.Text.Start

/-! The synopsis of a comment is one clean sentence.

Each step from a comment to its synopsis is said on its own: which part of the comment is its first
paragraph (`IsFirstParagraph`), what it is with its blanks collapsed (`Collapses`), and where its
first sentence ends (`IsFirstSentence`). What comes out has no blanks but single spaces inside
(`IsNeat`). A neat text is its own paragraph and has nothing to collapse, and a first sentence is
the first sentence of itself. So the synopsis of a synopsis is that synopsis
(`synopsis_summarizes`). -/
namespace PackageReadme.Comment
open Text

/-! ### Words -/

/-- A text that is not empty and has no blank in it. -/
def IsWord (s : List Char) : Prop :=
  s ≠ [] ∧ ∀ c ∈ s, isBlank c = false

theorem words_append_cons {c : Char} (h : isBlank c = true) (s t : List Char) :
    words (s ++ c :: t) = words s ++ words t := by
  simp only [words, cutWhere_eq_splitOnP, List.splitOnP_append_cons s t h, List.filter_append]

theorem words_of_isWord {s : List Char} (h : IsWord s) : words s = [s] := by
  rw [words, cutWhere_eq_splitOnP, List.splitOnP_eq_singleton h.2]
  simp [h.1]

theorem words_append_of_blank {gap : List Char} (h : ∀ c ∈ gap, isBlank c = true) (s : List Char) :
    words (gap ++ s) = words s := by
  induction gap with
  | nil => rfl
  | cons c gap ih =>
    rw [List.forall_mem_cons] at h
    have hcons := words_append_cons h.1 [] (gap ++ s)
    rw [List.nil_append] at hcons
    rw [List.cons_append, hcons, ih h.2]
    rfl

/-! ### Collapsed blanks -/

/-- Words with blanks between them, and the same words with a space between them. -/
inductive Collapses : List Char → List Char → Prop where
  | word {word} : IsWord word → Collapses word word
  | next {word gap s t} : IsWord word → gap ≠ [] → (∀ c ∈ gap, isBlank c = true) → Collapses s t →
      Collapses (word ++ gap ++ s) (word ++ ' ' :: t)

/-- A trimmed text is a word, or a word and blanks in front of another trimmed text. -/
theorem isWord_or_exists_append {s : List Char} (h : IsTrimmed s) (hne : s ≠ []) :
    IsWord s ∨ ∃ word gap rest, s = word ++ gap ++ rest ∧ IsWord word ∧ gap ≠ [] ∧
      (∀ c ∈ gap, isBlank c = true) ∧ IsTrimmed rest ∧ rest ≠ [] := by
  obtain ⟨after, hs, hword, hstops⟩ :=
    takeWhile_eq_iff.mp (rfl : s.takeWhile (fun c => !isBlank c) = _)
  generalize s.takeWhile (fun c => !isBlank c) = word at hs hword
  have hfirst : ∀ c tail, after = c :: tail → isBlank c = true := by
    intro c tail hcons
    simpa using hstops c tail hcons
  have hword' : IsWord word := by
    refine ⟨fun hnil => ?_, fun c hc => by simpa using hword c hc⟩
    obtain ⟨c, tail, hcons⟩ := List.exists_cons_of_ne_nil hne
    rw [hnil, List.nil_append, hcons] at hs
    have hblank := h.first c (by rw [hcons]; rfl)
    rw [hfirst c tail hs.symm] at hblank
    cases hblank
  by_cases hafter : after = []
  · rw [hafter, List.append_nil] at hs
    exact .inl (hs ▸ hword')
  · obtain ⟨rest, hrest, hblank, hstops'⟩ := takeWhile_eq_iff.mp (rfl : after.takeWhile isBlank = _)
    obtain ⟨c, tail, hcons⟩ := List.exists_cons_of_ne_nil hafter
    have hgap : after.takeWhile isBlank ≠ [] := by
      rw [hcons, List.takeWhile_cons_of_pos (hfirst c tail hcons)]
      exact List.cons_ne_nil _ _
    generalize after.takeWhile isBlank = gap at hrest hblank hgap
    have hs' : s = word ++ gap ++ rest := by rw [hs, hrest, List.append_assoc]
    -- the text does not end in blanks, so there is more after them
    have hne' : rest ≠ [] := by
      intro hnil
      obtain ⟨front, d, hconcat⟩ := (List.eq_nil_or_concat gap).resolve_left hgap
      rw [List.concat_eq_append] at hconcat
      have hlast := h.last d
        (by rw [hs', hnil, hconcat, List.append_nil, ← List.append_assoc, List.getLast?_concat])
      have hmem : d ∈ gap := hconcat ▸ List.mem_append_right front (List.mem_singleton_self d)
      rw [hblank d hmem] at hlast
      cases hlast
    refine .inr ⟨word, gap, rest, hs', hword', hgap, hblank, ⟨fun d hd => ?_, fun d hd => ?_⟩, hne'⟩
    · obtain ⟨tail, hcons⟩ := List.head?_eq_some_iff.mp hd
      exact hstops' d tail hcons
    · exact h.last d (by rw [hs', List.getLast?_append, hd, Option.some_or])

theorem collapses_of_isTrimmed {s : List Char} (h : IsTrimmed s) (hne : s ≠ []) :
    words s ≠ [] ∧ Collapses s (collapseBlanks s) := by
  -- on the length: the first word and the blanks after it come off, if there are any
  induction hn : s.length using Nat.strongRecOn generalizing s with
  | ind n ih =>
    rcases isWord_or_exists_append h hne with
      hword | ⟨word, gap, rest, hs, hword, hgap, hblank, hrest, hne'⟩
    · have hcollapse : collapseBlanks s = s := by
        rw [collapseBlanks, words_of_isWord hword]
        simp
      rw [words_of_isWord hword, hcollapse]
      exact ⟨List.cons_ne_nil _ _, .word hword⟩
    · have hshort : rest.length < n := by
        have hpos := List.length_pos_iff.mpr hgap
        rw [← hn, hs, List.length_append, List.length_append]
        omega
      obtain ⟨hwords, hcollapses⟩ := ih rest.length hshort hrest hne' rfl
      obtain ⟨m, gap', rfl⟩ := List.exists_cons_of_ne_nil hgap
      rw [List.forall_mem_cons] at hblank
      have hcut : words s = word :: words rest := by
        rw [hs, List.append_assoc, List.cons_append, words_append_cons hblank.1,
          words_of_isWord hword, words_append_of_blank hblank.2]
        rfl
      have hcollapse : collapseBlanks s = word ++ ' ' :: collapseBlanks rest := by
        obtain ⟨first, others, hcons⟩ := List.exists_cons_of_ne_nil hwords
        rw [collapseBlanks, collapseBlanks, hcut, hcons, List.intercalate_cons_cons,
          List.append_assoc]
        rfl
      rw [hcut, hcollapse, hs]
      exact ⟨List.cons_ne_nil _ _, .next hword hgap (List.forall_mem_cons.mpr hblank) hcollapses⟩

/-! ### Neat texts -/

/-- No blanks but single spaces, none of them at an end. -/
structure IsNeat (s : List Char) : Prop where
  blank : ∀ c ∈ s, isBlank c = true → c = ' '
  single : ¬ [' ', ' '] <:+: s
  first : s.head? ≠ some ' '
  last : s.getLast? ≠ some ' '

theorem isNeat_nil : IsNeat [] :=
  ⟨fun _ hc => absurd hc List.not_mem_nil, by simp, by simp, by simp⟩

theorem IsWord.notMem_space {s : List Char} (h : IsWord s) : ' ' ∉ s := by
  intro hmem
  have hblank := h.2 ' ' hmem
  exact absurd hblank (by decide)

theorem IsWord.isNeat {s : List Char} (h : IsWord s) : IsNeat s where
  blank c hc hblank := by
    rw [h.2 c hc] at hblank
    cases hblank
  single hspaces := h.notMem_space (hspaces.subset (List.mem_cons_self ..))
  first hspace := h.notMem_space (List.mem_of_mem_head? hspace)
  last hspace := h.notMem_space (List.mem_of_getLast? hspace)

theorem getLast?_append_cons {α : Type} (s : List α) (a : α) {t : List α} (h : t ≠ []) :
    (s ++ a :: t).getLast? = t.getLast? := by
  obtain ⟨front, last, hconcat⟩ := (List.eq_nil_or_concat t).resolve_left h
  rw [hconcat, List.concat_eq_append, ← List.cons_append, ← List.append_assoc, List.getLast?_concat,
    List.getLast?_concat]

/-- A word and a space can be put in front of a neat text. -/
theorem IsNeat.next {word s : List Char} (hword : IsWord word) (h : IsNeat s) (hne : s ≠ []) :
    IsNeat (word ++ ' ' :: s) where
  blank c hc hblank := by
    rcases List.mem_append.mp hc with hc | hc
    · exact hword.isNeat.blank c hc hblank
    · rcases List.mem_cons.mp hc with hc | hc
      · exact hc
      · exact h.blank c hc hblank
  single hspaces := by
    have hstart : ¬ [' ', ' '] <+: ' ' :: s := by
      intro hstart
      obtain ⟨rest, hrest⟩ := (List.prefix_cons_inj ' ').mp hstart
      exact h.first (by rw [← hrest]; rfl)
    -- two spaces are not in the word, so they start with the one after it or come later
    rcases List.infix_append_iff.mp hspaces with
      hinside | hafter | ⟨front, rest, heq, hfront, hrest⟩
    · exact hword.isNeat.single hinside
    · rcases List.infix_cons_iff.mp hafter with hafter | hafter
      · exact hstart hafter
      · exact h.single hafter
    · cases front with
      | nil => exact hstart (heq ▸ hrest)
      | cons c front =>
        have hc : c = ' ' := (List.cons.inj heq).1.symm
        exact hword.notMem_space (hc ▸ hfront.subset (List.mem_cons_self ..))
  first := by
    obtain ⟨c, word, rfl⟩ := List.exists_cons_of_ne_nil hword.1
    exact hword.isNeat.first
  last := by
    rw [getLast?_append_cons word ' ' hne]
    exact h.last

theorem IsNeat.of_next {word s : List Char} (h : IsNeat (word ++ ' ' :: s)) (hne : s ≠ []) :
    IsNeat s where
  blank c hc := h.blank c (List.mem_append_right word (List.mem_cons_of_mem ' ' hc))
  single hspaces := h.single (hspaces.trans ⟨word ++ [' '], [], by simp⟩)
  first hspace := by
    obtain ⟨rest, rfl⟩ := List.head?_eq_some_iff.mp hspace
    exact h.single ⟨word, rest, by simp⟩
  last := by
    rw [← getLast?_append_cons word ' ' hne]
    exact h.last

theorem Collapses.ne_nil {s t : List Char} (h : Collapses s t) : s ≠ [] ∧ t ≠ [] := by
  cases h with
  | word hword => exact ⟨hword.1, hword.1⟩
  | next hword => simp [hword.1]

theorem Collapses.isNeat {s t : List Char} (h : Collapses s t) : IsNeat t := by
  induction h with
  | word hword => exact hword.isNeat
  | next hword _ _ hrest ih => exact ih.next hword hrest.ne_nil.2

/-- A neat text has nothing to collapse. -/
theorem Collapses.eq_of_isNeat {s t : List Char} (h : Collapses s t) (hs : IsNeat s) : t = s := by
  induction h with
  | word => rfl
  | @next word gap s t hword hgap hblank hrest ih =>
    have hspace : gap = [' '] := by
      have hall : ∀ c ∈ gap, c = ' ' := fun c hc =>
        hs.blank c (List.mem_append_left s (List.mem_append_right word hc)) (hblank c hc)
      match gap, hgap with
      | [c], _ => rw [hall c (List.mem_singleton_self c)]
      | c :: d :: more, _ =>
        simp only [List.forall_mem_cons] at hall
        rw [hall.1, hall.2.1] at hs
        exact absurd ⟨word, more ++ s, by simp⟩ hs.single
    rw [hspace, List.append_assoc, List.singleton_append] at hs ⊢
    rw [ih (hs.of_next hrest.ne_nil.1)]

theorem IsNeat.isTrimmed {s : List Char} (h : IsNeat s) : IsTrimmed s where
  first c hc := by
    apply Bool.eq_false_iff.mpr
    intro hblank
    exact h.first (h.blank c (List.mem_of_mem_head? hc) hblank ▸ hc)
  last c hc := by
    apply Bool.eq_false_iff.mpr
    intro hblank
    exact h.last (h.blank c (List.mem_of_getLast? hc) hblank ▸ hc)

/-- A part at the start of a neat text is neat, unless it is cut off after a space. -/
theorem IsNeat.of_prefix {s start : List Char} (h : IsNeat s) (hstart : start <+: s)
    (hlast : start.getLast? ≠ some ' ') : IsNeat start where
  blank c hc := h.blank c (hstart.subset hc)
  single hspaces := h.single (hspaces.trans hstart.isInfix)
  first hspace := by
    obtain ⟨rest, rfl⟩ := hstart
    exact h.first (by rw [List.head?_append, hspace, Option.some_or])
  last := hlast

theorem isNeat_collapseBlanks {s : List Char} (h : IsTrimmed s) : IsNeat (collapseBlanks s) := by
  by_cases hne : s = []
  · rw [hne]
    exact isNeat_nil
  · exact (collapses_of_isTrimmed h hne).2.isNeat

theorem IsNeat.collapseBlanks_eq {s : List Char} (h : IsNeat s) : collapseBlanks s = s := by
  by_cases hne : s = []
  · rw [hne]
    rfl
  · exact (collapses_of_isTrimmed h.isTrimmed hne).2.eq_of_isNeat h

/-! ### Paragraphs -/

theorem intercalate_cons_head {α : Type} (mark : List α) (a : α) (part : List α)
    (rest : List (List α)) :
    mark.intercalate ((a :: part) :: rest) = a :: mark.intercalate (part :: rest) := by
  cases rest with
  | nil => simp
  | cons next rest => simp [List.intercalate_cons_cons]

/-- The paragraphs with two newlines between them are the text. -/
theorem intercalate_paragraphs (doc : List Char) :
    paragraphs doc ≠ [] ∧ ['\n', '\n'].intercalate (paragraphs doc) = doc := by
  fun_induction paragraphs doc with
  | case1 => exact ⟨List.cons_ne_nil _ _, rfl⟩
  | case2 rest ih =>
    obtain ⟨hne, htext⟩ := ih
    obtain ⟨first, others, hcons⟩ := List.exists_cons_of_ne_nil hne
    refine ⟨List.cons_ne_nil _ _, ?_⟩
    rw [hcons] at htext ⊢
    rw [List.intercalate_cons_cons, htext]
    rfl
  | case3 c rest _ hnil ih => exact absurd hnil ih.1
  | case4 c rest _ paragraph others hcons ih =>
    refine ⟨List.cons_ne_nil _ _, ?_⟩
    rw [intercalate_cons_head, ← hcons, ih.2]

/-- No paragraph has two newlines in a row. -/
theorem not_infix_of_mem_paragraphs {doc paragraph : List Char} (h : paragraph ∈ paragraphs doc) :
    ¬ ['\n', '\n'] <:+: paragraph := by
  fun_induction paragraphs doc generalizing paragraph with
  | case1 =>
    rw [List.mem_singleton.mp h]
    simp
  | case2 rest ih =>
    rcases List.mem_cons.mp h with h | h
    · rw [h]
      simp
    · exact ih h
  | case3 c rest _ hnil _ => exact absurd hnil (intercalate_paragraphs rest).1
  | case4 c rest hopen first others hcons ih =>
    rw [hcons] at ih
    rcases List.mem_cons.mp h with h | h
    · intro hnewlines
      rw [h] at hnewlines
      rcases List.infix_cons_iff.mp hnewlines with hstart | hinside
      · -- then the text itself would start with two newlines
        obtain ⟨tail, htail⟩ := hstart
        obtain ⟨hc, hfirst⟩ := List.cons.inj htail
        have hfirst : first = '\n' :: tail := hfirst.symm
        have hrest := (intercalate_paragraphs rest).2
        rw [hcons, hfirst, intercalate_cons_head] at hrest
        exact hopen _ hc.symm hrest.symm
      · exact ih (List.mem_cons_self ..) hinside
    · exact ih (List.mem_cons_of_mem first h)

theorem paragraphs_of_notMem {s : List Char} (h : '\n' ∉ s) : paragraphs s = [s] := by
  fun_induction paragraphs s with
  | case1 => rfl
  | case2 rest => exact absurd (List.mem_cons_self ..) h
  | case3 c rest _ hnil _ => exact absurd hnil (intercalate_paragraphs rest).1
  | case4 c rest _ first others hcons ih =>
    rw [ih fun hmem => h (List.mem_cons_of_mem c hmem)] at hcons
    obtain ⟨hfirst, hothers⟩ := List.cons.inj hcons
    rw [← hfirst, ← hothers]

/-- A part of a text that stands between blanks, neither starts nor ends with one, and goes up to
the first two newlines in a row after its start, or to the end. It is empty only if the text is
blank. -/
structure IsFirstParagraph (paragraph doc : List Char) : Prop where
  place : ∃ lead gap rest, doc = lead ++ paragraph ++ gap ++ rest ∧ (∀ c ∈ lead, isBlank c = true) ∧
    (∀ c ∈ gap, isBlank c = true) ∧ (rest = [] ∨ ∃ after, rest = '\n' :: '\n' :: after)
  unbroken : ¬ ['\n', '\n'] <:+: paragraph
  trimmed : IsTrimmed paragraph
  blank : paragraph = [] → ∀ c ∈ doc, isBlank c = true

theorem intercalate_append_cons {α : Type} (mark : List α) (front : List (List α)) (part : List α)
    (rest : List (List α)) :
    mark.intercalate (front ++ part :: rest) =
      front.flatMap (· ++ mark) ++ mark.intercalate (part :: rest) := by
  induction front with
  | nil => rfl
  | cons first front ih =>
    obtain ⟨next, others, hcons⟩ :=
      List.exists_cons_of_ne_nil (List.append_ne_nil_of_right_ne_nil front
      (List.cons_ne_nil part rest))
    rw [List.cons_append, hcons, List.intercalate_cons_cons, ← hcons, ih, List.flatMap_cons,
      List.append_assoc, List.append_assoc, List.append_assoc]

theorem isBlank_of_trim_eq_nil {s : List Char} (h : trim s = []) : ∀ c ∈ s, isBlank c = true := by
  obtain ⟨lead, tail, hs, hlead, htail⟩ := exists_append_trim s
  rw [hs, h, List.append_nil]
  exact List.forall_mem_append.mpr ⟨hlead, htail⟩

/-- Blank paragraphs with newlines after them are blank. -/
theorem isBlank_flatMap {ps : List (List Char)} (h : ∀ p ∈ ps, trim p = []) :
    ∀ c ∈ ps.flatMap (· ++ ['\n', '\n']), isBlank c = true := by
  intro c hc
  obtain ⟨p, hp, hc⟩ := List.mem_flatMap.mp hc
  rcases List.mem_append.mp hc with hc | hc
  · exact isBlank_of_trim_eq_nil (h p hp) c hc
  · have hnewline : c = '\n' := by simpa using hc
    rw [hnewline]
    rfl

theorem isBlank_intercalate {ps : List (List Char)} (hne : ps ≠ []) (h : ∀ p ∈ ps, trim p = []) :
    ∀ c ∈ ['\n', '\n'].intercalate ps, isBlank c = true := by
  obtain ⟨front, last, hps⟩ := (List.eq_nil_or_concat ps).resolve_left hne
  rw [hps, List.concat_eq_append, List.forall_mem_append, List.forall_mem_singleton] at h
  rw [hps, List.concat_eq_append, intercalate_append_cons, List.intercalate_singleton]
  exact List.forall_mem_append.mpr ⟨isBlank_flatMap h.1, isBlank_of_trim_eq_nil h.2⟩

/-- After a paragraph there is nothing, or two newlines and the next one. -/
theorem exists_intercalate_cons (paragraph : List Char) (others : List (List Char)) :
    ∃ rest, ['\n', '\n'].intercalate (paragraph :: others) = paragraph ++ rest ∧
      (rest = [] ∨ ∃ after, rest = '\n' :: '\n' :: after) := by
  cases others with
  | nil => exact ⟨[], by simp, .inl rfl⟩
  | cons next others =>
    exact ⟨_, List.intercalate_cons_cons.trans (List.append_assoc ..), .inr ⟨_, rfl⟩⟩

/-- A paragraph after blank ones stands between blanks and goes up to the next two newlines. -/
theorem exists_place {before : List (List Char)} (h : ∀ p ∈ before, trim p = [])
    (paragraph : List Char) (others : List (List Char)) :
    ∃ lead gap rest, ['\n', '\n'].intercalate (before ++ paragraph :: others) =
      lead ++ trim paragraph ++ gap ++ rest ∧
      (∀ c ∈ lead, isBlank c = true) ∧ (∀ c ∈ gap, isBlank c = true) ∧
      (rest = [] ∨ ∃ after, rest = '\n' :: '\n' :: after) := by
  obtain ⟨lead, gap, hparagraph, hlead, hgap⟩ := exists_append_trim paragraph
  obtain ⟨rest, hrest, hstops⟩ := exists_intercalate_cons paragraph others
  refine ⟨before.flatMap (· ++ ['\n', '\n']) ++ lead, gap, rest, ?_, ?_, hgap, hstops⟩
  · have htext : paragraph ++ rest = lead ++ (trim paragraph ++ (gap ++ rest)) := by
      rw [← List.append_assoc, ← List.append_assoc, ← hparagraph]
    rw [intercalate_append_cons, hrest, htext, List.append_assoc, List.append_assoc,
      List.append_assoc]
  · exact List.forall_mem_append.mpr ⟨isBlank_flatMap h, hlead⟩

theorem isFirstParagraph_firstParagraph (doc : List Char) :
    IsFirstParagraph (firstParagraph doc) doc := by
  obtain ⟨hne, hdoc⟩ := intercalate_paragraphs doc
  rw [firstParagraph, List.find?_map]
  cases hfind : (paragraphs doc).find? ((· != []) ∘ trim) with
  | none =>
    have hall : ∀ p ∈ paragraphs doc, trim p = [] := by simpa using hfind
    have hblank := isBlank_intercalate hne hall
    rw [hdoc] at hblank
    exact ⟨⟨doc, [],
      [], by simp, hblank, by simp, .inl rfl⟩, by simp, isTrimmed_trim [], fun _ => hblank⟩
  | some paragraph =>
    obtain ⟨hsolid, before, others, hsplit, hbefore⟩ := List.find?_eq_some_iff_append.mp hfind
    have hsolid : trim paragraph ≠ [] := by simpa using hsolid
    have hbefore : ∀ p ∈ before, trim p = [] := by simpa using hbefore
    show IsFirstParagraph (trim paragraph) doc
    refine ⟨?_, ?_, isTrimmed_trim paragraph, fun hnil => absurd hnil hsolid⟩
    · rw [← hdoc, hsplit]
      exact exists_place hbefore paragraph others
    · intro hnewlines
      have hmem : paragraph ∈ paragraphs doc := by rw [hsplit]; simp
      obtain ⟨lead, gap, hparagraph, -⟩ := exists_append_trim paragraph
      have hinside : trim paragraph <:+: paragraph := ⟨lead, gap, hparagraph.symm⟩
      exact not_infix_of_mem_paragraphs hmem (hnewlines.trans hinside)

/-- A neat text is its own first paragraph. -/
theorem IsNeat.firstParagraph_eq {s : List Char} (h : IsNeat s) : firstParagraph s = s := by
  have hline : '\n' ∉ s := by
    intro hmem
    exact absurd (h.blank '\n' hmem rfl) (by decide)
  rw [firstParagraph, paragraphs_of_notMem hline, List.map_singleton, h.isTrimmed.trim_eq]
  by_cases hne : s = []
  · rw [hne]
    rfl
  · simp [hne]

/-! ### Sentences -/

/-- A sentence that ends in a text still ends there if there is more text after it. -/
theorem EndsSentence.append {front rest : List Char} (h : EndsSentence front rest)
    (more : List Char) :
    EndsSentence front (rest ++ more) := by
  rcases h with hfull | ⟨hperiod, hspace, hword⟩
  · exact .inl hfull
  · exact .inr ⟨hperiod, by rw [List.head?_append, hspace, Option.some_or], hword⟩

theorem EndsSentence.getLast?_ne {front rest : List Char} (h : EndsSentence front rest) :
    front.getLast? ≠ some ' ' := by
  intro hspace
  rcases h with hlast | ⟨hlast, -⟩
  all_goals
    rw [hspace, Option.some_inj] at hlast
    exact absurd hlast (by decide)

theorem IsFirstSentence.self {sentence s : List Char} (h : IsFirstSentence sentence s) :
    IsFirstSentence sentence sentence where
  ends := ⟨[], (List.append_nil sentence).symm, .inl rfl⟩
  first front rest hsplit hshort hends := by
    obtain ⟨after, hs, -⟩ := h.ends
    refine h.first front (rest ++ after) ?_ hshort (hends.append after)
    rw [hs, ← List.append_assoc, ← hsplit]

/-- No first sentence of a text is shorter than another. -/
theorem IsFirstSentence.length_le {a b s : List Char} (ha : IsFirstSentence a s)
    (hb : IsFirstSentence b s) :
    b.length ≤ a.length := by
  obtain ⟨rest, hs, hends⟩ := ha.ends
  apply Nat.le_of_not_lt
  intro hshort
  rcases hends with hnil | hends
  · obtain ⟨rest', hs', -⟩ := hb.ends
    rw [hs', hnil, List.append_nil] at hs
    rw [← hs, List.length_append] at hshort
    omega
  · exact hb.first a rest hs hshort hends

theorem IsFirstSentence.unique {a b s : List Char} (ha : IsFirstSentence a s)
    (hb : IsFirstSentence b s) : a = b := by
  obtain ⟨rest, hs, -⟩ := ha.ends
  obtain ⟨rest', hs', -⟩ := hb.ends
  exact (List.append_inj (hs.symm.trans hs')
    (Nat.le_antisymm (hb.length_le ha) (ha.length_le hb))).1

theorem IsFirstSentence.isNeat {sentence s : List Char} (h : IsFirstSentence sentence s)
    (hs : IsNeat s) :
    IsNeat sentence := by
  obtain ⟨rest, hsplit, hends⟩ := h.ends
  rcases hends with hnil | hends
  · rw [hnil, List.append_nil] at hsplit
    exact hsplit ▸ hs
  · exact hs.of_prefix ⟨rest, hsplit.symm⟩ hends.getLast?_ne

/-! ### The synopsis -/

/-- A neat sentence is its own synopsis, unless it is a notice. -/
theorem synopsis_of_isNeat {sentence : List Char} (h : IsNeat sentence)
    (hself : IsFirstSentence sentence sentence) (hnotice : isNotice sentence = false) :
    synopsis sentence = sentence := by
  have hfirst : firstSentence sentence = sentence :=
    (isFirstSentence_firstSentence sentence).unique hself
  rw [synopsis, h.firstParagraph_eq, h.collapseBlanks_eq, hfirst, hnotice]
  rfl

/-- The synopsis of a comment comes from its first paragraph with blanks collapsed. The search for
the first end of a sentence there always gives a place where the text can be cut, and the synopsis
is the sentence up to it, or empty if that is a notice. It fits in a line and is its own
synopsis. -/
theorem synopsis_summarizes (doc : List Char) :
    ∃ paragraph text sentence, IsFirstParagraph paragraph doc ∧
      (paragraph = [] ∧ text = [] ∨ Collapses paragraph text) ∧
      cutSentence text = .ok sentence ∧ IsFirstSentence sentence text ∧
      (synopsis doc = if isNotice sentence then [] else sentence) ∧
      IsNeat (synopsis doc) ∧ synopsis (synopsis doc) = synopsis doc := by
  have hparagraph := isFirstParagraph_firstParagraph doc
  have hsentence := isFirstSentence_firstSentence (collapseBlanks (firstParagraph doc))
  have hneat := hsentence.isNeat (isNeat_collapseBlanks hparagraph.trimmed)
  refine ⟨_, _, _, hparagraph, ?_, cutSentence_eq_ok (collapseBlanks (firstParagraph doc)),
    hsentence, rfl, ?_⟩
  · by_cases hne : firstParagraph doc = []
    · rw [hne]
      exact .inl ⟨rfl, rfl⟩
    · exact .inr (collapses_of_isTrimmed hparagraph.trimmed hne).2
  · rw [synopsis]
    cases hnotice : isNotice (firstSentence (collapseBlanks (firstParagraph doc))) with
    | true => exact ⟨isNeat_nil, rfl⟩
    | false => exact ⟨hneat, synopsis_of_isNeat hneat hsentence.self hnotice⟩

end PackageReadme.Comment
