import PackageReadme.Proofs.Emphasis.Targets

/-! Words are written one token at a time.

`Replaces` says what a text becomes if its tokens are looked up in a map and nothing else is
touched: a token starts at the first letter or underscore outside the token before it and goes on as
far as letters, underscores and digits do. Where no link can be read, cutting a text finds these
tokens (`Replaces.exists_pieces`), whatever text follows. Main statement:
`emphasize_eq_iff_replaces`, for lines in which no target can start. -/
namespace PackageReadme.Emphasis
open Text

/-! ### Replacing tokens -/

/-- What is written for a token. -/
inductive ShowsToken (words : Words) (token : List Char) : List Char → Prop
  | unknown : words.lookup token = none → ShowsToken words token token
  | italic : words.lookup token = some [] →
    ShowsToken words token ("*".toList ++ token ++ "*".toList)
  | linked {url : List Char} : words.lookup token = some url → url ≠ [] →
    ShowsToken words token ("[*".toList ++ token ++ "*](".toList ++ url ++ ")".toList)

/-- A text and what it becomes if its tokens are replaced. -/
inductive Replaces (words : Words) : (text written : List Char) → Prop
  | done : Replaces words [] []
  | other {c : Char} {rest written : List Char} :
    isWordStart c = false → Replaces words rest written →
    Replaces words (c :: rest) (c :: written)
  | token {c : Char} {cs rest shown written : List Char} :
    isWordStart c = true → (∀ d ∈ cs, isWordChar d = true) →
    Stops isWordChar rest → ShowsToken words (c :: cs) shown → Replaces words rest written →
    Replaces words (c :: cs ++ rest) (shown ++ written)

/-- A line and what it becomes if the tokens outside its code spans are replaced; a backtick without
another is text. -/
inductive ReplacesOutsideCode (words : Words) : (line written : List Char) → Prop
  | text {text written : List Char} : text.count '\x60' ≤ 1 → Replaces words text written →
    ReplacesOutsideCode words text written
  | code {text code rest shown written : List Char} :
    '\x60' ∉ text → '\x60' ∉ code → Replaces words text shown →
    ReplacesOutsideCode words rest written →
    ReplacesOutsideCode words (text ++ '\x60' :: code ++ '\x60' :: rest)
    (shown ++ '\x60' :: code ++ '\x60' :: written)

theorem showsToken_render (words : Words) (token : List Char) :
    ShowsToken words token ((Piece.word token).render words) := by
  rw [Piece.render]
  split
  · rename_i hlookup
    exact .unknown hlookup
  · rename_i hlookup
    exact .italic hlookup
  · rename_i url hne hlookup
    exact .linked hlookup hne

theorem ShowsToken.eq_render {words : Words} {token shown : List Char}
    (h : ShowsToken words token shown) :
    (Piece.word token).render words = shown := by
  rw [Piece.render]
  cases h with
  | unknown hlookup => rw [hlookup]
  | italic hlookup =>
    rw [hlookup]
    rfl
  | @linked url hlookup hne =>
    obtain ⟨c, url, rfl⟩ := List.exists_cons_of_ne_nil hne
    rw [hlookup]
    rfl

/-- Every text has tokens to replace, if only none. -/
theorem exists_replaces (words : Words) (text : List Char) :
    ∃ written, Replaces words text written := by
  -- on the length of the text: a token takes at least one character off
  induction hn : text.length using Nat.strongRecOn generalizing text with
  | ind n ih =>
    subst hn
    cases text with
    | nil => exact ⟨[], .done⟩
    | cons c text =>
      cases hc : isWordStart c with
      | false =>
        obtain ⟨written, hwritten⟩ := ih text.length (Nat.lt_succ_self _) text rfl
        exact ⟨c :: written, .other hc hwritten⟩
      | true =>
        obtain ⟨rest, htext, hcs, hstops⟩ :=
          takeWhile_eq_iff.mp (rfl : text.takeWhile isWordChar = _)
        generalize text.takeWhile isWordChar = cs at htext hcs
        subst htext
        have hshorter : rest.length < (c :: (cs ++ rest)).length := by
          simp only [List.length_cons, List.length_append]
          omega
        obtain ⟨written, hwritten⟩ := ih rest.length hshorter rest rfl
        exact ⟨_, .token hc hcs hstops (showsToken_render words (c :: cs)) hwritten⟩

/-- Without words all tokens stay. -/
theorem Replaces.eq_of_nil {text written : List Char} (h : Replaces [] text written) :
    written = text := by
  induction h with
  | done => rfl
  | other _ _ ih => rw [ih]
  | token _ _ _ hshown _ ih =>
    have hsame := hshown.eq_render
    rw [Piece.render] at hsame
    rw [ih, ← hsame]
    rfl

/-! ### Texts without links -/

/-- Wherever in `s` one looks for a link, with `rest` after `s`, there is none. -/
def LinkFree (s rest : List Char) : Prop :=
  ∀ front after, s = front ++ after → after ≠ [] → link? (after ++ rest) = none

theorem LinkFree.link?_eq_none {s rest : List Char} (h : LinkFree s rest) (hne : s ≠ []) :
    link? (s ++ rest) = none :=
  h [] s rfl hne

theorem LinkFree.of_append {a b rest : List Char} (h : LinkFree (a ++ b) rest) :
    LinkFree b rest := by
  rintro front after rfl hne
  exact h (a ++ front) after (List.append_assoc ..).symm hne

theorem word?_eq_of_stops {c : Char} {cs rest : List Char} (hc : isWordStart c = true)
    (hcs : ∀ d ∈ cs, isWordChar d = true) (hstops : Stops isWordChar rest) :
    word? (c :: cs ++ rest) = some (c :: cs) := by
  rw [List.cons_append, word?, if_pos hc, takeWhile_eq_iff.mpr ⟨rest, rfl, hcs, hstops⟩]

theorem not_endsOutsideWord {c : Char} {cs : List Char} (hc : isWordStart c = true)
    (hcs : ∀ d ∈ cs, isWordChar d = true) : ¬ EndsOutsideWord (c :: cs) := by
  intro h
  have hall : ∀ d ∈ c :: cs, isWordChar d = true :=
    List.forall_mem_cons.mpr ⟨by rw [isWordChar, hc, Bool.true_or], hcs⟩
  obtain ⟨front, d, hd⟩ := List.eq_nil_or_concat' (c :: cs) |>.resolve_left (List.cons_ne_nil c cs)
  have hlast := h front d hd
  rw [hall d (by simp [hd])] at hlast
  cases hlast

/-- What is read at the front of a text is its first piece, if its parentheses are paired. -/
theorem textPieces_of_read? {piece : Piece} {rest : List Char}
    (h : read? (piece.source ++ rest) = some piece) (hpaired : Paired piece.source) :
    textPieces 0 (piece.source ++ rest) = piece :: textPieces 0 rest := by
  have hfound : readPaired? (piece.source ++ rest) = some ([], piece) := by
    have hlength := length_le_pairedStart (List.prefix_refl piece.source) hpaired
    rw [readPaired?, h]
    simp only
    rw [if_neg (Nat.not_lt.mpr hlength)]
  obtain ⟨c, cs, hsource⟩ := List.exists_cons_of_ne_nil (source_ne_nil_of_read? h)
  rw [hsource, List.cons_append] at hfound ⊢
  rw [textPieces, hfound]
  simp only
  rw [textPieces_skip, hsource]
  simp

theorem textPieces_of_read?_eq_none {c : Char} {rest : List Char} (h : read? (c :: rest) = none) :
    textPieces 0 (c :: rest) = .plain c :: textPieces 0 rest := by
  rw [textPieces, readPaired?, h]

/-- **Tokens are found where no link is read**, before any text that does not go on the last of
them. -/
theorem Replaces.exists_pieces {words : Words} {text written : List Char}
    (h : Replaces words text written) :
    ∃ ps : List Piece, ps.flatMap (Piece.render words) = written ∧
      ∀ rest, LinkFree text rest → EndsOutsideWord text ∨ Stops isWordChar rest →
        textPieces 0 (text ++ rest) = ps ++ textPieces 0 rest := by
  induction h with
  | done => exact ⟨[], rfl, fun rest _ _ => rfl⟩
  | @other c text written hc _ ih =>
    obtain ⟨ps, rfl, hps⟩ := ih
    refine ⟨.plain c :: ps, rfl, fun rest hfree hends => ?_⟩
    have hread : read? (c :: text ++ rest) = none := by
      rw [read?, hfree.link?_eq_none (List.cons_ne_nil c text), List.cons_append, word?]
      simp [hc]
    rw [List.cons_append] at hread ⊢
    rw [textPieces_of_read?_eq_none hread, List.cons_append]
    rw [hps rest (hfree.of_append (a := [c])) (hends.imp_left fun h => h.of_append (a := [c]))]
  | @token c cs text shown written hc hcs hstops hshown _ ih =>
    obtain ⟨ps, rfl, hps⟩ := ih
    refine ⟨.word (c :: cs) ::
      ps, by rw [List.flatMap_cons, hshown.eq_render], fun rest hfree hends => ?_⟩
    have hnext : Stops isWordChar (text ++ rest) := by
      cases text with
      | cons d text => exact hstops.append (List.cons_ne_nil d text) rest
      | nil =>
        -- the token ends the text, so that the rest must not go on with it
        refine hends.resolve_left fun houtside => ?_
        rw [List.append_nil] at houtside
        exact absurd houtside (not_endsOutsideWord hc hcs)
    have hread : read? (c :: cs ++ (text ++ rest)) = some (.word (c :: cs)) := by
      have hnone := hfree.link?_eq_none (by simp)
      rw [List.append_assoc] at hnone
      rw [read?, hnone, word?_eq_of_stops hc hcs hnext]
      rfl
    have hpaired : Paired (c :: cs) := paired_of_word? (word?_eq_of_stops hc hcs hnext)
    have hfront : textPieces 0 (c :: cs ++ (text ++ rest)) =
        .word (c :: cs) :: textPieces 0 (text ++ rest) :=
      @textPieces_of_read? (.word (c :: cs)) _ hread hpaired
    rw [List.append_assoc, hfront,
      hps rest hfree.of_append (hends.imp_left EndsOutsideWord.of_append)]
    rfl

/-! ### Lines without targets -/

/-- Neither what parts a protocol from a host nor the front of a local path is in the text. -/
structure TargetFree (s : List Char) : Prop where
  noUrl : ¬ "://".toList <:+: s
  noLocal : ¬ "./".toList <:+: s

theorem TargetFree.of_infix {s part : List Char} (h : TargetFree s) (hpart : part <:+: s) :
    TargetFree part :=
  ⟨fun hurl => h.noUrl (hurl.trans hpart), fun hlocal => h.noLocal (hlocal.trans hpart)⟩

theorem IsStart.not_targetFree {start s : List Char} (h : IsStart start) (hs : start <:+: s) :
    ¬ TargetFree s := by
  intro hfree
  have hstart := hfree.of_infix hs
  cases h with
  | @url opening host hopening _ =>
    obtain ⟨protocol, -, rfl⟩ := hopening
    exact hstart.noUrl ⟨protocol, host, rfl⟩
  | localPath => exact hstart.noLocal (List.infix_refl _)

theorem TargetFree.link?_eq_none {s : List Char} (h : TargetFree s) : link? s = none := by
  rw [Option.eq_none_iff_forall_ne_some]
  intro link hlink
  cases link?_eq_some_iff.mp hlink with
  | bare hreads =>
    obtain ⟨start, hstart, hfront⟩ := hreads.exists_isStart
    exact hstart.not_targetFree (hfront.trans hreads.isPrefix).isInfix h
  | titled _ hreads =>
    obtain ⟨start, hstart, hfront⟩ := hreads.exists_isStart
    exact hstart.not_targetFree ((hfront.trans hreads.isPrefix).isInfix.trans
      (List.suffix_append ..).isInfix) h

theorem TargetFree.linkFree {s : List Char} (h : TargetFree s) : LinkFree s [] := by
  rintro front after rfl -
  rw [List.append_nil]
  exact (h.of_infix (List.suffix_append front after).isInfix).link?_eq_none

theorem TargetFree.terminated {line : List Char} (h : TargetFree line) :
    TargetFree (Line.terminated line) := by
  have hnewline {mark : List Char} (hend : '\n' ∉ mark) (hmark : mark <:+: Line.terminated line) :
      mark <:+: line := by
    unfold Line.terminated at hmark
    split at hmark
    · exact hmark
    · rcases List.infix_concat_iff.mp hmark with hsuffix | hinside
      · rcases List.suffix_concat_iff.mp hsuffix with rfl | ⟨front, rfl, -⟩
        · exact List.nil_infix
        · exact absurd (by simp) hend
      · exact hinside
  exact ⟨fun hurl => h.noUrl (hnewline (by decide) hurl),
    fun hlocal => h.noLocal (hnewline (by decide) hlocal)⟩

theorem Replaces.flatMap_render {words : Words} {text written : List Char}
    (h : Replaces words text written) (hfree : TargetFree text) :
    (textPieces 0 text).flatMap (Piece.render words) = written := by
  obtain ⟨ps, hwritten, hps⟩ := h.exists_pieces
  have hpieces := hps [] hfree.linkFree (.inr fun c rest h => by cases h)
  rw [List.append_nil, textPieces, List.append_nil] at hpieces
  rw [hpieces, hwritten]

theorem ReplacesOutsideCode.flatMap_render {words : Words} {line written : List Char}
    (h : ReplacesOutsideCode words line written) (hfree : TargetFree line) :
    (pieces line).flatMap (Piece.render words) = written := by
  induction h with
  | text hcount htext => rw [pieces_of_count_le hcount, htext.flatMap_render hfree]
  | @code text code rest shown written htext hcode hshown _ ih =>
    have hbefore : TargetFree text := hfree.of_infix ⟨[], '\x60' :: code ++ '\x60' :: rest, by simp⟩
    have hafter : TargetFree rest :=
      hfree.of_infix ⟨text ++ '\x60' :: code ++ ['\x60'], [], by simp⟩
    rw [pieces_code htext hcode, List.flatMap_append, List.flatMap_cons,
      hshown.flatMap_render hbefore, ih hafter]
    simp [Piece.render, Piece.source]

theorem exists_replacesOutsideCode (words : Words) (line : List Char) :
    ∃ written, ReplacesOutsideCode words line written := by
  induction spans line with
  | @text s hcount =>
    obtain ⟨written, hwritten⟩ := exists_replaces words s
    exact ⟨written, .text hcount hwritten⟩
  | @code text code rest htext hcode _ ih =>
    obtain ⟨shown, hshown⟩ := exists_replaces words text
    obtain ⟨written, hwritten⟩ := ih
    exact ⟨_, .code htext hcode hshown hwritten⟩

theorem ReplacesOutsideCode.eq_of_nil {line written : List Char}
    (h : ReplacesOutsideCode [] line written) :
    written = line := by
  induction h with
  | text _ htext => exact htext.eq_of_nil
  | code _ _ hshown _ ih => rw [hshown.eq_of_nil, ih]

/-- **Emphasizing a line without targets replaces its tokens and nothing else**, and without words
it changes nothing but that the line is terminated. -/
theorem emphasize_eq_iff_replaces {line : List Char} (hurl : ¬ "://".toList <:+: line)
    (hlocal : ¬ "./".toList <:+: line) :
    (∀ words written, emphasize words line = written ↔
      ReplacesOutsideCode words (Line.terminated line) written) ∧
      emphasize [] line = Line.terminated line := by
  have hfree : TargetFree (Line.terminated line) := TargetFree.terminated ⟨hurl, hlocal⟩
  have hiff (words : Words) (written : List Char) :
      emphasize words line = written ↔
        ReplacesOutsideCode words (Line.terminated line) written := by
    constructor
    · rintro rfl
      obtain ⟨written, hwritten⟩ := exists_replacesOutsideCode words (Line.terminated line)
      rw [emphasize, hwritten.flatMap_render hfree]
      exact hwritten
    · intro h
      exact h.flatMap_render hfree
  exact ⟨hiff, ((hiff [] _).mp rfl).eq_of_nil⟩

/-- Tokens that touch digits, code spans and a backtick without another. -/
theorem emphasize_eq_iff_replaces_mixed :
    let line := "2ab_1 (ab)\x60ab\x60ab/ (\x60é".toList
    let words : Words := [("ab".toList, "u".toList), ("é".toList, []), ("2ab_1".toList, [])]
    ¬ "://".toList <:+: line ∧ ¬ "./".toList <:+: line ∧
      ReplacesOutsideCode words (Line.terminated line)
        "2ab_1 ([*ab*](u))\x60ab\x60[*ab*](u)/ (\x60*é*\n".toList ∧
      emphasize [] line = Line.terminated line := by
  intro line words
  have hurl : ¬ "://".toList <:+: line := by
    decide +kernel
  have hlocal : ¬ "./".toList <:+: line := by
    decide +kernel
  obtain ⟨hiff, hnone⟩ := emphasize_eq_iff_replaces hurl hlocal
  exact ⟨hurl, hlocal, (hiff words _).mp (by decide +kernel), hnone⟩

end PackageReadme.Emphasis
