import PackageReadme.Proofs.Emphasis.Linking

/-! The texts between code spans are emphasized by themselves.

A newline at the end of a text is in no target and in no word. A title or its separator may be a
newline, but then a target follows it. So nothing is read that is not read without that newline
(`read?_concat_newline`), and the newline is a piece of its own. Main statement:
`emphasize_append_code`. -/
namespace PackageReadme.Emphasis
open Text

/-! ### Reading before a newline -/

theorem takeWhile_concat {p : Char → Bool} {c : Char} (hc : p c = false) (s : List Char) :
    (s ++ [c]).takeWhile p = s.takeWhile p := by
  rw [List.takeWhile_append, List.takeWhile_cons_of_neg (by simp [hc]), List.append_nil]
  split
  · rename_i hall
    exact ((List.takeWhile_prefix p).eq_of_length hall).symm
  · rfl

theorem path_concat_newline (s : List Char) : path (s ++ ['\n']) = path s := by
  rw [path, path, takeWhile_concat rfl]

/-- What is left of a text after a start has the last character of the text, unless it is empty. -/
theorem exists_concat_of_append_eq {s start rest : List Char} {c : Char}
    (h : s ++ [c] = start ++ rest) (hne : rest ≠ []) :
    ∃ before, rest = before ++ [c] ∧ s = start ++ before := by
  obtain ⟨before, d, rfl⟩ := (List.eq_nil_or_concat' rest).resolve_left hne
  rw [← List.append_assoc] at h
  obtain ⟨hs, hc⟩ := List.append_inj' h rfl
  exact ⟨before, by rw [List.singleton_inj.mp hc], hs⟩

/-- No target reaches to a newline. -/
theorem ne_nil_of_isTarget {s target rest : List Char} (htarget : IsTarget target)
    (h : s ++ ['\n'] = target ++ rest) :
    rest ≠ [] := by
  intro hnil
  rw [hnil, List.append_nil] at h
  exact ne_of_class (htarget.forall_mem '\n' (h ▸ by simp)) rfl rfl

theorem readsTarget_concat_newline {s target : List Char} {isLocal : Bool} :
    ReadsTarget (s ++ ['\n']) target isLocal ↔ ReadsTarget s target isLocal := by
  constructor
  · intro h
    generalize htext : s ++ ['\n'] = text at h
    cases h with
    | @url opening host rest hopening hhost hstops =>
      have hstart : IsTarget (opening ++ host) :=
        .inl ⟨opening, host, [], hopening, hhost, .nil, by simp⟩
      obtain ⟨before, rfl, rfl⟩ :=
        exists_concat_of_append_eq htext (ne_nil_of_isTarget hstart htext)
      rw [path_concat_newline]
      exact .url hopening hhost (hstops.of_isPrefix (List.prefix_append ..))
    | @localPath name rest hname hstops =>
      have hstart : IsTarget ('.' :: '/' :: name) := .inr ⟨name, hname, rfl⟩
      obtain ⟨before, rfl, rfl⟩ :=
        exists_concat_of_append_eq htext (ne_nil_of_isTarget hstart htext)
      exact .localPath hname (hstops.of_isPrefix (List.prefix_append ..))
  · intro h
    cases h with
    | @url opening host rest hopening hhost hstops =>
      rw [List.append_assoc, ← path_concat_newline]
      exact .url hopening hhost (hstops.append_stops (stops_cons rfl))
    | @localPath name rest hname hstops =>
      rw [List.append_assoc]
      exact .localPath hname (hstops.append_stops (stops_cons rfl))

theorem readsLink_concat_newline {s : List Char} {link : Link} :
    ReadsLink (s ++ ['\n']) link ↔ ReadsLink s link := by
  constructor
  · intro h
    generalize htext : s ++ ['\n'] = text at h
    cases h with
    | bare hreads => exact .bare (readsTarget_concat_newline.mp (htext ▸ hreads))
    | @titled after target isLocal title htitle hreads =>
      -- the newline is not in the title, since the target stands after that
      have hne : after ≠ [] := by
        intro hnil
        exact hreads.isTarget.ne_nil (List.prefix_nil.mp (hnil ▸ hreads.isPrefix))
      obtain ⟨before, rfl, rfl⟩ := exists_concat_of_append_eq htext hne
      exact .titled htitle (readsTarget_concat_newline.mp hreads)
  · intro h
    cases h with
    | bare hreads => exact .bare (readsTarget_concat_newline.mpr hreads)
    | titled htitle hreads =>
      rw [List.append_assoc]
      exact .titled htitle (readsTarget_concat_newline.mpr hreads)

theorem word?_concat_newline (s : List Char) : word? (s ++ ['\n']) = word? s := by
  cases s with
  | nil => rfl
  | cons c s => rw [List.cons_append, word?, word?, takeWhile_concat rfl]

/-- **A newline at the end changes nothing of what is read at the front.** -/
theorem read?_concat_newline (s : List Char) : read? (s ++ ['\n']) = read? s := by
  have hlink : link? (s ++ ['\n']) = link? s := by
    apply Option.ext
    intro link
    rw [link?_eq_some_iff, link?_eq_some_iff, readsLink_concat_newline]
  rw [read?, read?, hlink, word?_concat_newline]

theorem readPaired?_concat_newline (s : List Char) : readPaired? (s ++ ['\n']) = readPaired? s := by
  rw [readPaired?, readPaired?, read?_concat_newline]

/-! ### Cutting before a newline -/

/-- A newline at the end of a text is a piece of its own, after the pieces of the text. -/
theorem textPieces_concat_newline {skip : Nat} {s : List Char} (h : skip ≤ s.length) :
    textPieces skip (s ++ ['\n']) = textPieces skip s ++ [.plain '\n'] := by
  induction s generalizing skip with
  | nil =>
    obtain rfl := Nat.le_zero.mp h
    rfl
  | cons c s ih =>
    rw [List.cons_append]
    cases skip with
    | succ skip =>
      rw [textPieces, textPieces]
      exact ih (Nat.le_of_succ_le_succ h)
    | zero =>
      have hread := readPaired?_concat_newline (c :: s)
      rw [List.cons_append] at hread
      rw [textPieces, textPieces, hread]
      cases hfound : readPaired? (c :: s) with
      | none => simp only [ih (Nat.zero_le _), List.cons_append]
      | some found =>
        obtain ⟨before, piece⟩ := found
        -- what is found lies in the text
        obtain ⟨-, -, hfront⟩ := (found_of_readPaired? hfound).exists_read?
        have hlength : before.length + piece.source.length ≤ s.length + 1 := by
          simpa using hfront.length_le
        simp only [ih (Nat.sub_le_of_le_add hlength), List.append_assoc, List.cons_append]

/-- A newline at the end of a line is a piece of its own. -/
theorem pieces_concat_newline (line : List Char) :
    pieces (line ++ ['\n']) = pieces line ++ [.plain '\n'] := by
  induction spans line with
  | @text line hcount =>
    have hlong : (line ++ ['\n']).count '\x60' ≤ 1 := by
      simpa using hcount
    rw [pieces_of_count_le hlong, pieces_of_count_le hcount,
      textPieces_concat_newline (Nat.zero_le _)]
  | @code text code rest htext hcode _ ih =>
    rw [List.append_assoc, List.cons_append, pieces_code htext hcode, ih, pieces_code htext hcode,
      List.append_assoc, List.cons_append]

/-! ### Lines with a code span -/

/-- **A code span parts a line into two that are emphasized by themselves.** What is written for the
line before the span, but for the newline that ends it, stands before the span, and what is written
for the line after the span stands after it. -/
theorem emphasize_append_code (words : Words) {before code : List Char}
    (heven : before.count '\x60' % 2 = 0) (hend : before.getLast? ≠ some '\n')
    (hcode : '\x60' ∉ code) (after : List Char) :
    ∃ written, emphasize words before = written ++ ['\n'] ∧
      emphasize words (before ++ '\x60' :: code ++ '\x60' :: after) =
        written ++ '\x60' :: code ++ '\x60' :: emphasize words after := by
  refine ⟨(pieces before).flatMap (Piece.render words), ?_, ?_⟩
  · rw [emphasize, Line.terminated, if_neg hend, pieces_concat_newline, List.flatMap_append]
    rfl
  · have hspan : (before ++ '\x60' :: code ++ ['\x60']).getLast? ≠ some '\n' := by
      rw [List.getLast?_concat]
      decide
    have hline : before ++ '\x60' :: code ++ '\x60' :: after =
        before ++ '\x60' :: code ++ ['\x60'] ++ after := by
      simp only [List.append_assoc, List.singleton_append]
    rw [emphasize, hline, terminated_append hspan, List.append_assoc _ ['\x60'],
      List.singleton_append, pieces_append_code heven hcode, List.flatMap_append, List.flatMap_cons,
      emphasize, Piece.render, Piece.source]
    simp only [List.append_assoc, List.cons_append, List.nil_append]

/-- A parenthesis that the span would close, after another span and around a word. -/
theorem emphasize_append_code_title :
    let words : Words := [("ab".toList, "u".toList)]
    let before := "\x60x\x60 (ab".toList
    let code := "c) http://d".toList
    let after := ") ./e.".toList
    before.count '\x60' % 2 = 0 ∧ before.getLast? ≠ some '\n' ∧ '\x60' ∉ code ∧
      ∃ written, emphasize words before = written ++ ['\n'] ∧
        emphasize words (before ++ '\x60' :: code ++ '\x60' :: after) =
          written ++ '\x60' :: code ++ '\x60' :: emphasize words after := by
  intro words before code after
  have heven : before.count '\x60' % 2 = 0 := by
    decide
  have hend : before.getLast? ≠ some '\n' := by
    decide
  have hcode : '\x60' ∉ code := by
    decide
  exact ⟨heven, hend, hcode, emphasize_append_code words heven hend hcode after⟩

end PackageReadme.Emphasis
