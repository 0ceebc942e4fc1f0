import PackageReadme.Proofs.Emphasis.Linking

/-! What is shown of a link, with a map of words.

A target without a title is shown as it stands, up to escapes, also where the map has another URL
for it. But the last punctuation mark of that URL is put after the link like one of the line, so
that the URL loses it and the line shows it, whether or not it was there. Main statement:
`mapped_link_shows_source_iff`. -/
namespace PackageReadme.Emphasis
open Text

/-! ### Titles as they are shown -/

/-- A text with its escapes resolved. -/
def unescaped : List Char → List Char
  | '&' :: 'a' :: 'm' :: 'p' :: ';' :: rest => '&' :: unescaped rest
  | '&' :: 'l' :: 't' :: ';' :: rest => '<' :: unescaped rest
  | '&' :: 'g' :: 't' :: ';' :: rest => '>' :: unescaped rest
  | '&' :: '#' :: '3' :: '4' :: ';' :: rest => '"' :: unescaped rest
  | '&' :: '#' :: '3' :: '9' :: ';' :: rest => '\'' :: unescaped rest
  | c :: rest => c :: unescaped rest
  | [] => []

theorem unescaped_cons {c : Char} (h : c ≠ '&') (rest : List Char) :
    unescaped (c :: rest) = c :: unescaped rest := by
  rw [unescaped]
  all_goals
    intros
    exact absurd ‹_› h

theorem unescaped_escapedChar {c : Char} (h : c ≠ '\x00') (rest : List Char) :
    unescaped (escapedChar c ++ rest) = c :: unescaped rest := by
  unfold escapedChar
  split
  · rename_i hc
    rw [hc]
    rfl
  rename_i hamp
  split
  · rename_i hc
    rw [hc]
    rfl
  split
  · rename_i hc
    rw [hc]
    rfl
  split
  · rename_i hc
    rw [hc]
    rfl
  split
  · rename_i hc
    rw [hc]
    rfl
  · exact unescaped_cons hamp rest

/-- A text is shown as it is, unless it has characters that nothing can show. -/
theorem unescaped_escaped {s : List Char} (h : '\x00' ∉ s) : unescaped (escaped s) = s := by
  induction s with
  | nil => rfl
  | cons c s ih =>
    rw [List.mem_cons, not_or] at h
    have hescaped : escaped (c :: s) = escapedChar c ++ escaped s := List.flatMap_cons
    rw [hescaped, unescaped_escapedChar (Ne.symm h.1), ih h.2]

/-- A link in Markdown with what follows it. -/
def linkText (text target mark : List Char) : List Char :=
  "[".toList ++ text ++ "](".toList ++ target ++ ")".toList ++ mark

/-- A link that stands in a sentence shows its title, but for the mark that ends its target. -/
theorem exists_linkText {title : List Char} (htitle : '\x00' ∉ title) (url : List Char) :
    ∃ text target mark, Punctuated url target mark ∧
      anchorInSentence title url = linkText text target mark ∧
      Strips mark title (unescaped text) := by
  obtain ⟨target, mark, shown, hpunctuated, hstrips, hwritten⟩ :=
    exists_anchorInSentence_eq title url
  have hshown : '\x00' ∉ shown := by
    rcases hstrips with rfl | ⟨-, rfl⟩
    · exact fun hmem => htitle (List.mem_append_left mark hmem)
    · exact htitle
  refine ⟨escaped shown, target, mark, hpunctuated, hwritten, ?_⟩
  rwa [unescaped_escaped hshown]

/-! ### Links of a line -/

/-- A title without its mark, and then the mark, is the title just if it ends so. -/
theorem Strips.append_eq_iff {mark title shown : List Char} (h : Strips mark title shown) :
    shown ++ mark = title ↔ mark <:+ title := by
  constructor
  · exact fun heq => ⟨shown, heq⟩
  · intro hsuffix
    exact h.elim Eq.symm fun hnot => absurd hsuffix hnot.1

theorem Punctuated.append_eq {url target mark : List Char} (h : Punctuated url target mark) :
    target ++ mark = url := by
  cases h with
  | marked => rfl
  | unmarked => exact List.append_nil _

theorem Punctuated.eq_iff {url target mark : List Char} (h : Punctuated url target mark) :
    target = url ↔ EndsOutsidePunctuation url := by
  cases h with
  | @marked target c hc =>
    rw [endsOutsidePunctuation_concat, hc]
    simp
  | unmarked hends => exact iff_of_true rfl hends

theorem ReadsLink.notMem_null {s : List Char} {link : Link} (h : ReadsLink s link)
    (htitle : link.title = none) :
    '\x00' ∉ link.source := by
  cases h with
  | bare hreads => exact fun hmem => ne_of_class (hreads.isTarget.forall_mem _ hmem) rfl rfl
  | titled => cases htitle

/-- Without a title a target is its own title, unless it names packages. -/
theorem ReadsLink.render_of_untitled {s : List Char} {link : Link} (h : ReadsLink s link)
    (htitle : link.title = none) :
    IsPattern link.target ∧ link.render = link.source ∨
      link.render = anchorInSentence link.source link.source := by
  cases h with
  | titled => cases htitle
  | @bare _ target isLocal hreads =>
    simp only [Link.render, Link.source]
    split
    · rename_i hpattern
      rw [Bool.and_eq_true, List.isSuffixOf_iff_suffix] at hpattern
      have hlocal := hreads.isTarget_of_isLocal
      rw [if_pos hpattern.1] at hlocal
      exact .inl ⟨⟨hlocal, hpattern.2⟩, rfl⟩
    · exact .inr rfl

/-- **What is shown and linked to for a target without a title.** Without a URL in the map the
target is shown as it stands, as a link unless it names packages, and with an empty URL it is no
link. With any other URL, the target is shown as it stands just if the URL ends in no mark or in one
that the target ends in too, and it is linked to that URL just if the URL ends in no mark. -/
theorem mapped_link_shows_source_iff (words : Words) {line : List Char} {front back : List Piece}
    {link : Link} (h : pieces (Line.terminated line) = front ++ .link link :: back)
    (htitle : link.title = none) :
    ∃ written, emphasize words line =
        front.flatMap (Piece.render words) ++ written ++ back.flatMap (Piece.render words) ∧
      match words.lookup link.source with
      | none => IsPattern link.target ∧ written = link.source ∨
          ∃ text target mark, written = linkText text target mark ∧
            Punctuated link.source target mark ∧
            unescaped text ++ mark = link.source
      | some [] => written = link.source
      | some url =>
          ∃ text target mark, written = linkText text target mark ∧ Punctuated url target mark ∧
          Strips mark link.source (unescaped text) ∧
          (unescaped text ++ mark = link.source ↔ mark <:+ link.source) ∧
          (target = url ↔ EndsOutsidePunctuation url) := by
  refine ⟨(Piece.link link).render words, ?_, ?_⟩
  · rw [emphasize, h, List.flatMap_append, List.flatMap_cons, List.append_assoc]
  · have hmem : .link link ∈ pieces (Line.terminated line) := by
      simp [h]
    obtain ⟨text, hreads⟩ := readsLink_of_mem_pieces hmem
    have hnull := hreads.notMem_null htitle
    rw [Piece.render]
    cases words.lookup link.source with
    | none =>
      refine (hreads.render_of_untitled htitle).imp_right fun hrender => ?_
      obtain ⟨text, target, mark, hpunctuated, hwritten, hstrips⟩ :=
        exists_linkText hnull link.source
      exact ⟨text, target, mark, hrender.trans hwritten, hpunctuated,
        hstrips.append_eq_iff.mpr ⟨target, hpunctuated.append_eq⟩⟩
    | some url =>
      cases url with
      | nil => rfl
      | cons c url =>
        obtain ⟨text, target, mark, hpunctuated, hwritten, hstrips⟩ :=
          exists_linkText hnull (c :: url)
        exact ⟨text, target, mark, hwritten, hpunctuated, hstrips, hstrips.append_eq_iff,
          hpunctuated.eq_iff⟩

/-- A path and its URL that end in the same mark: the path is shown as it stands, and linked to
something else. -/
theorem mapped_link_shows_source_iff_mark :
    let words : Words := [("./a.".toList, ['b', '.'])]
    let link : Link := ⟨none, "./a.".toList, true⟩
    let front : List Piece := [.word "Run".toList, .plain ' ']
    let back : List Piece := [.plain ' ', .word "now".toList, .plain '\n']
    pieces (Line.terminated "Run ./a. now".toList) = front ++ .link link :: back ∧
      link.title = none ∧
      ∃ written text target mark, emphasize words "Run ./a. now".toList =
          front.flatMap (Piece.render words) ++ written ++ back.flatMap (Piece.render words) ∧
        written = linkText text target mark ∧ unescaped text ++ mark = "./a.".toList ∧
        target ≠ ['b', '.'] := by
  intro words link front back
  have hpieces : pieces (Line.terminated "Run ./a. now".toList) = front ++ .link link :: back := by
    decide +kernel
  have hlookup : words.lookup link.source = some ['b', '.'] := by
    decide
  obtain ⟨written, hline, hlink⟩ := mapped_link_shows_source_iff words hpieces rfl
  rw [hlookup] at hlink
  obtain ⟨text, target, mark, hwritten, hpunctuated, -, hshown, htarget⟩ := hlink
  have hends : ¬ EndsOutsidePunctuation ['b', '.'] :=
    not_endsOutsidePunctuation_iff.mpr ⟨['b'], '.', rfl, rfl⟩
  have hmark : mark = ['.'] := by
    generalize hurl : ['b', '.'] = url at hpunctuated
    cases hpunctuated with
    | @marked target c _ =>
      have hlast : '.' = c := by
        simpa using congrArg List.getLast? hurl
      rw [hlast]
    | unmarked hnone => exact absurd (hurl ▸ hnone) hends
  have hsuffix : mark <:+ link.source := ⟨"./a".toList, by rw [hmark]; rfl⟩
  exact ⟨hpieces, rfl, written, text, target, mark, hline, hwritten, hshown.mpr hsuffix,
    fun h => hends (htarget.mp h)⟩

/-- A period of the map is shown, and the link goes elsewhere. -/
theorem mapped_period_is_shown :
    let words : Words := [("http://a".toList, "http://b.".toList)]
    let text := "http://a".toList
    pieces (Line.terminated "http://a".toList) =
      [.link ⟨none, "http://a".toList, false⟩, .plain '\n'] ∧
      emphasize words "http://a".toList =
      linkText text "http://b".toList ".".toList ++ "\n".toList ∧
      unescaped text ++ ".".toList ≠ "http://a".toList ∧
      "http://b".toList ≠ "http://b.".toList := by
  refine ⟨?_, ?_, ?_, ?_⟩ <;> decide +kernel

end PackageReadme.Emphasis
