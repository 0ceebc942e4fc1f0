import PackageReadme.Proofs.Emphasis.Rewriting

/-! The parentheses of link targets.

What counts as a link is judged by the parentheses of all its text, title and all, and the part that
is read again is not judged once more. So the text of a link with a title is paired, and its target
is paired just if what stands before the target is. A target without a title is paired but for one
case: it ends in the parenthesis that closes one before it, and one more parenthesis parts it from
another target (`ClosesTitle`). Main statement: `paired_targets`. -/
namespace PackageReadme.Emphasis
open Text

/-! ### Reading a part of a link again -/

theorem ne_paren_of_isPunctuation {c : Char} (h : isPunctuation c = true) : c ≠ '(' ∧ c ≠ ')' :=
  ⟨ne_of_class h rfl, ne_of_class h rfl⟩

theorem paired_of_word? {s word : List Char} (h : word? s = some word) : Paired word := by
  refine paired_of_forall_ne fun c hc => ?_
  have hchar := isWordChar_of_mem_word? h hc
  exact ⟨ne_of_class hchar rfl, ne_of_class hchar rfl⟩

/-- A local path has no parentheses. -/
theorem IsLocal.forall_ne {target : List Char} (h : IsLocal target) :
    ∀ c ∈ target, c ≠ '(' ∧ c ≠ ')' := by
  obtain ⟨rest, hrest, rfl⟩ := h
  have hdots : ∀ c ∈ ['.', '/'], c ≠ '(' ∧ c ≠ ')' := by
    simp
  refine List.forall_mem_append.mpr ⟨hdots, fun c hc => ?_⟩
  have hchar := hrest c hc
  exact ⟨ne_of_class hchar rfl, ne_of_class hchar rfl⟩

/-- The part of a target up to a parenthesis is a target again, but for punctuation at its end. -/
theorem ReadsTarget.reread {s target part tail : List Char} {isLocal : Bool}
    (h : ReadsTarget s target isLocal) (hsplit : target = part ++ tail) (htail : BeforeParen tail) :
    ∃ inner marks, ReadsTarget part inner isLocal ∧ part = inner ++ marks ∧
      ∀ mark ∈ marks, isPunctuation mark = true := by
  cases h with
  | @url opening host rest hopening hhost hstops =>
    have hstart : opening ++ host <+: part :=
      htail.prefix_left (IsStart.url hopening hhost).forall_ne_paren
        (hsplit ▸ List.prefix_append ..)
    obtain ⟨inner, rfl⟩ := hstart
    rw [List.append_assoc _ inner, List.append_cancel_left_eq] at hsplit
    have hinner : inner <+: path rest := ⟨tail, hsplit.symm⟩
    obtain ⟨marks, hmarks, hpunctuation, -⟩ := exists_path_append inner
    have hall : inner.takeWhile (fun c => isPathChar c || isPunctuation c) = inner := by
      refine List.takeWhile_eq_self_iff.mpr fun c hc => ?_
      simpa using isPathChar_of_mem_path (hinner.subset hc)
    rw [hall] at hmarks
    refine ⟨_, marks, .url hopening hhost (hstops.of_isPrefix (hinner.trans (path_isPrefix rest))),
      ?_, hpunctuation⟩
    rw [List.append_assoc _ (path inner), ← hmarks]
  | @localPath name rest hname hstops =>
    have hwhole : '.' :: '/' :: name <+: part :=
      htail.prefix_left (IsLocal.forall_ne ⟨name, hname, rfl⟩) (hsplit ▸ List.prefix_refl _)
    have hlength : part.length ≤ ('.' :: '/' :: name).length :=
      List.IsPrefix.length_le ⟨tail, hsplit.symm⟩
    have hpart : part = '.' :: '/' :: name := (hwhole.eq_of_length_le hlength).symm
    have hreads : ReadsTarget ('.' :: '/' :: name ++ []) ('.' :: '/' :: name) true :=
      .localPath hname fun c rest h => by cases h
    rw [List.append_nil, ← hpart] at hreads
    exact ⟨_, [], hreads, by rw [List.append_nil, hpart], List.forall_mem_nil _⟩

/-- What stands before the target of a link. -/
def Link.lead (link : Link) : List Char :=
  match link.title with
  | some title => ['('] ++ title.text ++ [')', title.separator]
  | none => []

theorem Link.source_eq (link : Link) : link.source = link.lead ++ link.target := by
  obtain ⟨title, target, isLocal⟩ := link
  cases title <;> rfl

/-- A link of which a paired part is left, with its title, is a link with that title again, and then
it is paired. -/
theorem ReadsLink.reread {s part tail : List Char} {link : Link} (h : ReadsLink s link)
    (hsplit : link.source = part ++ tail) (htail : BeforeParen tail)
    (hlead : link.lead <+: part) (hpaired : Paired part) :
    ∃ inner, ReadsLink part inner ∧ Paired inner.source := by
  obtain ⟨rest, rfl⟩ := hlead
  rw [Link.source_eq, List.append_assoc, List.append_cancel_left_eq] at hsplit
  have hpunctuation {target marks : List Char} (hmarks : ∀ mark ∈ marks, isPunctuation mark = true)
      (hrest : rest = target ++ marks) : Paired (link.lead ++ target) := by
    rw [hrest, ← List.append_assoc] at hpaired
    have hplain : Paired marks :=
      paired_of_forall_ne fun c hc => ne_paren_of_isPunctuation (hmarks c hc)
    exact (paired_append_iff_left hplain _).mp hpaired
  cases h with
  | bare hreads =>
    obtain ⟨target, marks, htarget, hrest, hmarks⟩ := hreads.reread hsplit htail
    exact ⟨_, .bare htarget, hpunctuation hmarks hrest⟩
  | titled htitle hreads =>
    obtain ⟨target, marks, htarget, hrest, hmarks⟩ := hreads.reread hsplit htail
    exact ⟨_, .titled htitle htarget, hpunctuation hmarks hrest⟩

/-! ### Titles that are cut off -/

/-- A paired part of what stands before a target is all of the title or nothing. -/
theorem eq_title_of_paired {title : Title} (htitle : title.IsTitle) {part tail : List Char}
    (hsplit : part ++ tail = ['('] ++ title.text ++ [')', title.separator]) (htail : tail ≠ [])
    (hpaired : Paired part) : part = [] ∨ part = '(' :: title.text ++ [')'] ∧ '(' ∉ title.text := by
  cases part with
  | nil => exact .inl rfl
  | cons c part =>
    rw [List.cons_append, List.singleton_append, List.cons_append, List.cons.injEq] at hsplit
    obtain ⟨rfl, hrest⟩ := hsplit
    have hcloses : ')' ∈ part := by
      by_contra hnot
      have hclosed := hpaired.closed
      rw [List.count_cons_self, List.count_cons_of_ne (by decide),
        List.count_eq_zero_of_not_mem hnot] at hclosed
      cases hclosed
    rcases List.append_eq_append_iff.mp hrest with ⟨more, htext, -⟩ | ⟨marks, rfl, hmarks⟩
    · exact absurd (htext ▸ List.mem_append_left more hcloses) htitle.noClosing
    · cases marks with
      | nil =>
        rw [List.append_nil] at hcloses
        exact absurd hcloses htitle.noClosing
      | cons mark marks =>
        obtain ⟨rfl, hmore⟩ := List.cons.inj hmarks
        cases marks with
        | nil =>
          have hclosed := hpaired.closed
          simp only [List.count_cons_self, List.count_append,
            List.count_eq_zero_of_not_mem htitle.noClosing,
            List.count_cons_of_ne (show '(' ≠ ')' by decide), List.count_nil] at hclosed
          exact .inr ⟨rfl, List.count_eq_zero.mp (by simpa using hclosed)⟩
        | cons mark marks =>
          exact absurd (List.append_eq_nil_iff.mp (List.cons.inj hmore).2.symm).2 htail

/-- A parenthesis that is open before a target is closed by the last character of the target, and
one more parenthesis stands between that and the next target. -/
def ClosesTitle (before target after : List Char) : Prop :=
  ∃ front inner url c next rest, before = front ++ '(' :: inner ∧ target = url ++ [')'] ∧
    (∀ d ∈ inner ++ url, d ≠ '(' ∧ d ≠ ')') ∧ (c = '(' ∨ c = ')') ∧ IsTarget next ∧
    after = c :: (next ++ rest)

theorem ClosesTitle.append {before target after : List Char} (h : ClosesTitle before target after)
    (a b : List Char) :
    ClosesTitle (a ++ before) target (after ++ b) := by
  obtain ⟨front, inner, url, c, next, rest, rfl, htarget, hplain, hc, hnext, rfl⟩ := h
  exact ⟨a ++ front, inner, url, c, next, rest ++ b, by simp, htarget, hplain, hc, hnext, by simp⟩

/-- The first link of a title that is cut off has no title, and its target is paired or takes the
last parenthesis. -/
theorem first?_title {text before : List Char} {link : Link} (hopening : '(' ∉ text)
    (hclosing : ')' ∉ text) (h : first? ('(' :: text ++ [')']) = some (before, .link link)) :
    link.title = none ∧ (Paired link.target ∨
      ∃ inner url, before = '(' :: inner ∧ link.target = url ++ [')'] ∧ inner ++ url = text) := by
  obtain ⟨rest, hsplit, hread, -⟩ := exists_of_first? h
  rcases read?_cases hread with ⟨_, hlink, hreads⟩ | ⟨_, hword, -⟩
  · cases hlink
    cases hreads with
    | @titled after target isLocal title htitle hreads =>
      -- a title inside would be closed before the end
      have hfront : before ++ ['('] ++ title.text ++ [')'] <+: '(' :: text ++ [')'] :=
        ⟨title.separator :: after, by rw [hsplit]; simp⟩
      rcases List.prefix_concat_iff.mp hfront with hwhole | hshort
      · rw [← hwhole] at hsplit
        simp at hsplit
      · have hmem : ')' ∈ '(' :: text := hshort.subset (by simp)
        exact absurd (by simpa using hmem) hclosing
    | @bare _ target isLocal hreads =>
      refine ⟨rfl, ?_⟩
      have hplain {part : List Char} (hpart : part ⊆ text) :
          ∀ c ∈ part, c ≠ '(' ∧ c ≠ ')' := fun c hc =>
        ⟨ne_of_mem_of_not_mem (hpart hc) hopening, ne_of_mem_of_not_mem (hpart hc) hclosing⟩
      obtain ⟨more, hmore⟩ := hreads.isPrefix
      cases before with
      | nil =>
        obtain ⟨start, hstart, hfront⟩ := hreads.exists_isStart
        have hhead : start <+: '(' :: (text ++ [')']) := by
          rw [← List.cons_append, hsplit]
          exact hfront.trans hreads.isPrefix
        exact absurd rfl (hstart.head_ne hhead).1
      | cons c inner =>
        rw [← hmore, List.cons_append, List.cons_append, List.cons.injEq] at hsplit
        obtain ⟨rfl, hsplit⟩ := hsplit
        have hfront : inner ++ target <+: text ++ [')'] := ⟨more, by rw [hsplit, List.append_assoc]⟩
        rcases List.prefix_concat_iff.mp hfront with hwhole | hshort
        · rcases List.eq_nil_or_concat' target with rfl | ⟨url, d, rfl⟩
          · exact absurd rfl hreads.isTarget.ne_nil
          · rw [← List.append_assoc] at hwhole
            obtain ⟨hinner, hd⟩ := List.append_inj' hwhole rfl
            exact .inr ⟨inner, url, rfl, by rw [List.singleton_inj.mp hd], hinner⟩
        · exact .inl (paired_of_forall_ne
            (hplain fun c hc => hshort.subset (List.mem_append_right inner hc)))
  · cases hword

/-! ### Links of a line -/

/-- The parentheses of a link between what stands before and after it. -/
def Link.Fits (before : List Char) (link : Link) (after : List Char) : Prop :=
  match link.title with
  | some _ => Paired link.source
  | none => Paired link.target ∨ ClosesTitle before link.target after

theorem Link.fits_of_paired {link : Link} (h : Paired link.source) (before after : List Char) :
    link.Fits before after := by
  obtain ⟨title, target, isLocal⟩ := link
  cases title with
  | none => exact .inl h
  | some title => exact h

theorem Link.Fits.append {before after : List Char} {link : Link} (h : link.Fits before after)
    (a b : List Char) :
    link.Fits (a ++ before) (after ++ b) := by
  obtain ⟨title, target, isLocal⟩ := link
  cases title with
  | none => exact Or.imp_right (fun hcloses => hcloses.append a b) h
  | some title => exact h

/-- A link that is found in the title of another one, whose target is cut off. -/
theorem ReadsLink.fits_of_cut_title {s part tail before after : List Char} {outer link : Link}
    (h : ReadsLink s outer) (hsplit : part ++ tail = outer.source) (htail : BeforeParen tail)
    (hlead : ¬ outer.lead <+: part) (hpaired : Paired part)
    (hfirst : first? part = some (before, .link link)) (hs : s = before ++ link.source ++ after) :
    link.Fits before after := by
  cases h with
  | bare => exact absurd List.nil_prefix hlead
  | @titled rest target isLocal title htitle hreads =>
    have hpart : part <+: ['('] ++ title.text ++ [')', title.separator] :=
      (List.prefix_or_prefix_of_prefix ⟨tail, hsplit⟩ (List.prefix_append ..)).resolve_right hlead
    obtain ⟨more, hmore⟩ := hpart
    have hne : more ≠ [] := by
      rintro rfl
      rw [List.append_nil] at hmore
      exact hlead (hmore ▸ List.prefix_refl _)
    rcases eq_title_of_paired htitle hmore hne hpaired with rfl | ⟨rfl, hopening⟩
    · cases hfirst
    · have hcut : tail = title.separator :: target := by
        have hall : '(' :: title.text ++ [')'] ++ tail =
            '(' :: title.text ++ [')'] ++ title.separator :: target := by
          simpa [Link.source] using hsplit
        exact List.append_cancel_left hall
      have hparen : title.separator = '(' ∨ title.separator = ')' :=
        htail title.separator target hcut
      obtain ⟨next, rfl⟩ := hreads.isPrefix
      obtain ⟨linkTitle, linkTarget, linkLocal⟩ := link
      obtain ⟨rfl, htarget | ⟨inner, url, rfl, rfl, htext⟩⟩ :=
        first?_title hopening htitle.noClosing hfirst
      · exact .inl htarget
      · refine .inr ⟨[], inner, url, title.separator, target, next, rfl, rfl, fun d hd => ?_,
          hparen, hreads.isTarget, ?_⟩
        · rw [htext] at hd
          exact ⟨ne_of_mem_of_not_mem hd hopening, ne_of_mem_of_not_mem hd htitle.noClosing⟩
        · simpa [Link.source, ← htext] using hs.symm

theorem Found.fits {s before after : List Char} {link : Link} (h : Found s before (.link link))
    (hs : s = before ++ link.source ++ after) : link.Fits before after := by
  cases h with
  | whole _ hpaired => exact Link.fits_of_paired hpaired ..
  | @inside outer _ _ houter hunpaired hfirst =>
    rcases read?_cases houter with ⟨outer, rfl, hreads⟩ | ⟨word, rfl, hword⟩
    · have hpaired := paired_pairedStart outer.source
      obtain ⟨tail, htail⟩ := pairedStart_isPrefix outer.source
      have hparen := beforeParen_of_pairedStart_append htail
      change first? (pairedStart outer.source) = _ at hfirst
      generalize pairedStart outer.source = part at hfirst hpaired htail
      by_cases hlead : outer.lead <+: part
      · obtain ⟨inner, hinner, hfits⟩ := hreads.reread htail.symm hparen hlead hpaired
        rw [first?_eq_of_read? hinner.read?] at hfirst
        cases hfirst
        exact Link.fits_of_paired hfits ..
      · exact hreads.fits_of_cut_title htail hparen hlead hpaired hfirst hs
    · exact absurd (paired_of_word? hword) hunpaired

/-- A piece of two lists put together is in the one or the other. -/
theorem split_of_append_eq {ps qs front back : List Piece} {piece : Piece}
    (h : ps ++ qs = front ++ piece :: back) :
    (∃ more, ps = front ++ piece :: more ∧ back = more ++ qs) ∨
      ∃ more, front = ps ++ more ∧ qs = more ++ piece :: back := by
  rcases List.append_eq_append_iff.mp h with ⟨more, hfront, hqs⟩ | ⟨more, hps, hback⟩
  · exact .inr ⟨more, hfront, hqs⟩
  · cases more with
    | nil =>
      rw [List.append_nil] at hps
      exact .inr ⟨[], by rw [hps, List.append_nil], hback.symm⟩
    | cons first more =>
      obtain ⟨rfl, hmore⟩ := List.cons.inj hback
      exact .inl ⟨more, hps, hmore⟩

theorem Cuts.fits {s : List Char} {ps front back : List Piece} {link : Link} (h : Cuts s ps)
    (hps : ps = front ++ .link link :: back) :
    link.Fits (front.flatMap Piece.source) (back.flatMap Piece.source) := by
  induction h generalizing front with
  | done => simp at hps
  | @plain c cs ps _ _ ih =>
    cases front with
    | nil => cases hps
    | cons piece front =>
      have hfits := ih (List.cons.inj hps).2
      simpa using hfits.append piece.source []
  | @found before rest piece ps hfound _ hrest ih =>
    rcases split_of_append_eq hps with ⟨more, hplain, -⟩ | ⟨more, rfl, hmore⟩
    · have hmem : Piece.link link ∈ before.map Piece.plain := by
        simp [hplain]
      simp at hmem
    · cases more with
      | nil =>
        obtain ⟨rfl, rfl⟩ := List.cons.inj hmore
        rw [List.append_nil, flatMap_source_map_plain, hrest.flatMap_source]
        exact hfound.fits rfl
      | cons first more =>
        have hfits := ih (List.cons.inj hmore).2
        simpa using hfits.append ((before.map Piece.plain).flatMap Piece.source ++ first.source) []

theorem fits_of_pieces {line : List Char} {front back : List Piece} {link : Link}
    (h : pieces line = front ++ .link link :: back) :
    link.Fits (front.flatMap Piece.source) (back.flatMap Piece.source) := by
  induction spans line generalizing front with
  | text hcount =>
    rw [pieces_of_count_le hcount] at h
    exact (cuts_textPieces _).fits h
  | @code text code rest htext hcode _ ih =>
    rw [pieces_code htext hcode] at h
    rcases split_of_append_eq h with ⟨more, hfront, rfl⟩ | ⟨more, rfl, hmore⟩
    · have hfits := (cuts_textPieces _).fits hfront
      simpa using hfits.append [] ((Piece.code code :: pieces rest).flatMap Piece.source)
    · cases more with
      | nil => cases hmore
      | cons first more =>
        have hfits := ih (List.cons.inj hmore).2
        simpa using hfits.append ((textPieces 0 text).flatMap Piece.source ++ first.source) []

/-! ### Targets that are written -/

/-- The mark that ends a target is no parenthesis. -/
theorem Punctuated.paired_append_iff {target rest mark : List Char}
    (h : Punctuated target rest mark) (lead : List Char) :
    Paired (lead ++ target) ↔ Paired (lead ++ rest) := by
  cases h with
  | @marked rest c hc =>
    rw [← List.append_assoc]
    exact paired_append_iff_left (paired_of_forall_ne
      (List.forall_mem_singleton.mpr (ne_paren_of_isPunctuation hc))) _
  | unmarked => exact Iff.rfl

theorem Punctuated.eq_of_closing {url rest mark : List Char}
    (h : Punctuated (url ++ [')']) rest mark) :
    rest = url ++ [')'] := by
  generalize htarget : url ++ [')'] = target at h
  cases h with
  | @marked rest c hc =>
    rw [← List.singleton_inj.mp (List.append_inj_right' htarget rfl)] at hc
    cases hc
  | unmarked => rfl

/-- A link is kept if it names packages, and else it is written with its target but for the mark
that ends it. -/
theorem Link.render_cases (link : Link) :
    (link.isLocal = true ∧ "...".toList <:+ link.target) ∧ link.render = link.source ∨
      ¬ (link.isLocal = true ∧ "...".toList <:+ link.target) ∧
        ∃ shown rest mark, Punctuated link.target rest mark ∧
          (link.render = anchor shown rest ++ mark ∨
            link.render = '!' :: anchor shown rest ++ mark) := by
  unfold Link.render
  split
  · rename_i hpattern
    rw [Bool.and_eq_true, List.isSuffixOf_iff_suffix] at hpattern
    exact .inl ⟨hpattern, rfl⟩
  · rename_i hpattern
    rw [Bool.and_eq_true, List.isSuffixOf_iff_suffix] at hpattern
    refine .inr ⟨hpattern, ?_⟩
    split
    · obtain ⟨rest, mark, shown, hpunctuated, -, hwritten⟩ :=
        exists_anchorInSentence_eq link.target link.target
      exact ⟨shown, rest, mark, hpunctuated, .inl hwritten⟩
    · rename_i title _
      split
      · rename_i text _
        obtain ⟨rest, mark, shown, hpunctuated, -, hwritten⟩ :=
          exists_anchorInSentence_eq text link.target
        exact ⟨shown, rest, mark, hpunctuated, .inr (by rw [hwritten, List.cons_append])⟩
      · obtain ⟨rest, mark, shown, hpunctuated, -, hwritten⟩ :=
          exists_anchorInSentence_eq title.text link.target
        exact ⟨shown, rest, mark, hpunctuated, .inl hwritten⟩

/-- A link is kept, or it is written with its target but for the mark that ends it. -/
theorem Link.exists_written (link : Link) :
    ∃ rest mark, Punctuated link.target rest mark ∧ (link.render = link.source ∨
      ∃ shown, link.render = anchor shown rest ++ mark ∨
      link.render = '!' :: anchor shown rest ++ mark) := by
  rcases link.render_cases with ⟨-, hkept⟩ | ⟨-, shown, rest, mark, hpunctuated, hwritten⟩
  · obtain ⟨rest, mark, -, hpunctuated, -⟩ := exists_anchorInSentence_eq [] link.target
    exact ⟨rest, mark, hpunctuated, .inl hkept⟩
  · exact ⟨rest, mark, hpunctuated, .inr ⟨shown, hwritten⟩⟩

/-- **The parentheses of the targets that are written.** The target of a link with a title is paired
just if what stands before it in the link is. The target of a link without one is paired, unless it
closes a parenthesis before it and a parenthesis and another target follow. -/
theorem paired_targets {line : List Char} {front back : List Piece} {link : Link}
    (h : pieces (Line.terminated line) = front ++ .link link :: back) :
    emphasize [] line = front.flatMap (Piece.render []) ++ link.render ++
      back.flatMap (Piece.render []) ∧
      ∃ rest mark, Punctuated link.target rest mark ∧
        (link.render = link.source ∨
          ∃ shown, link.render = anchor shown rest ++ mark ∨
          link.render = '!' :: anchor shown rest ++ mark) ∧
        match link.title with
        | some title => Paired rest ↔ Paired (['('] ++ title.text ++ [')', title.separator])
        | none =>
          Paired rest ∨ ClosesTitle (front.flatMap Piece.source) rest
            (back.flatMap Piece.source) := by
  constructor
  · exact emphasize_around_link h
  · obtain ⟨rest, mark, hpunctuated, hwritten⟩ := link.exists_written
    refine ⟨rest, mark, hpunctuated, hwritten, ?_⟩
    have hfits := fits_of_pieces h
    obtain ⟨title, target, isLocal⟩ := link
    cases title with
    | some title =>
      have hpaired : Paired (['('] ++ title.text ++ [')', title.separator] ++ rest) :=
        (hpunctuated.paired_append_iff _).mp hfits
      constructor
      · intro hrest
        exact (paired_append_iff_left hrest _).mp hpaired
      · intro hlead
        exact (paired_append_iff hlead _).mp hpaired
    | none =>
      rcases hfits with htarget | hcloses
      · exact .inl ((hpunctuated.paired_append_iff []).mp htarget)
      · have hsame : rest = target := by
          obtain ⟨-, -, url, -, -, -, -, rfl, -⟩ := hcloses
          exact hpunctuated.eq_of_closing
        exact .inr (hsame ▸ hcloses)

/-- A title that opens a parenthesis, which the target closes. -/
theorem paired_targets_titled :
    let link : Link := ⟨some ⟨"a(b".toList, ' '⟩, "http://x)y".toList, false⟩
    pieces (Line.terminated "(a(b) http://x)y.".toList) =
      [] ++ .link link :: [.plain '.', .plain '\n'] ∧
      ∃ rest mark, Punctuated link.target rest mark ∧
        (Paired rest ↔ Paired (['('] ++ "a(b".toList ++ [')', ' '])) := by
  intro link
  have hpieces :
      pieces (Line.terminated "(a(b) http://x)y.".toList) =
        [] ++ .link link :: [.plain '.', .plain '\n'] := by
    decide +kernel
  obtain ⟨-, rest, mark, hpunctuated, -, hpaired⟩ := paired_targets hpieces
  exact ⟨hpieces, rest, mark, hpunctuated, hpaired⟩

/-- A target may close a parenthesis that stands before it. -/
theorem unpaired_target :
    emphasize [] "(http://a)(http://b".toList =
        ['('] ++ anchor "http://a)".toList "http://a)".toList ++ ['('] ++
          anchor "http://b".toList "http://b".toList ++ ['\n'] ∧
      ¬ Paired "http://a)".toList := by
  constructor
  · decide +kernel
  · rw [paired_iff]
    decide

end PackageReadme.Emphasis
