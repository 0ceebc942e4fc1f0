import PackageReadme.Proofs.Emphasis.Grammar
import PackageReadme.Proofs.Emphasis.Parens

/-! How a line is cut into pieces, as rules.

`Found` says what the link or word at the front of a text can be: what is read there, if its
parentheses are paired, and else what is read first in the part of it in which they are. `Cuts` says
how a text without code spans is cut, one character or one such find at a time. The pieces follow
the rules, also where code spans part a line into texts, so that they are the line again when put
together. -/
namespace PackageReadme.Emphasis
open Text

/-! ### What is read -/

theorem exists_of_word? {s word : List Char} (h : word? s = some word) :
    ∃ c cs rest, s = c :: cs ++ rest ∧ word = c :: cs ∧ isWordStart c = true ∧
      (∀ d ∈ cs, isWordChar d = true) ∧
      Stops isWordChar rest := by
  unfold word? at h
  split at h
  · rename_i c text
    split at h
    · rename_i hc
      generalize hrun : text.takeWhile isWordChar = cs at h
      obtain ⟨rest, rfl, hcs, hstops⟩ := takeWhile_eq_iff.mp hrun
      exact ⟨c, cs, rest, rfl, (Option.some.inj h).symm, hc, hcs, hstops⟩
    · cases h
  · cases h

theorem isWordChar_of_mem_word? {s word : List Char} (h : word? s = some word) {c : Char}
    (hc : c ∈ word) :
    isWordChar c = true := by
  obtain ⟨d, cs, -, -, rfl, hd, hcs, -⟩ := exists_of_word? h
  rcases List.mem_cons.mp hc with rfl | hc
  · rw [isWordChar, hd, Bool.true_or]
  · exact hcs c hc

/-- What is read at the front of a text is a link or a word. -/
theorem read?_cases {s : List Char} {piece : Piece} (h : read? s = some piece) :
    (∃ link, piece = .link link ∧ ReadsLink s link) ∨
      ∃ word, piece = .word word ∧ word? s = some word := by
  unfold read? at h
  split at h
  · rename_i link hlink
    exact .inl ⟨link, (Option.some.inj h).symm, link?_eq_some_iff.mp hlink⟩
  · obtain ⟨word, hword, rfl⟩ := Option.map_eq_some_iff.mp h
    exact .inr ⟨word, rfl, hword⟩

theorem source_prefix_of_read? {s : List Char} {piece : Piece} (h : read? s = some piece) :
    piece.source <+: s := by
  rcases read?_cases h with ⟨link, rfl, hreads⟩ | ⟨word, rfl, hword⟩
  · exact hreads.isPrefix
  · obtain ⟨c, cs, rest, rfl, rfl, -⟩ := exists_of_word? hword
    exact List.prefix_append ..

theorem source_ne_nil_of_read? {s : List Char} {piece : Piece} (h : read? s = some piece) :
    piece.source ≠ [] := by
  rcases read?_cases h with ⟨link, rfl, hreads⟩ | ⟨word, rfl, hword⟩
  · exact hreads.isLink.ne_nil
  · obtain ⟨c, cs, rest, -, rfl, -⟩ := exists_of_word? hword
    exact List.cons_ne_nil c cs

/-- The first link or word of a text, and that none is read before it. -/
theorem exists_of_first? {s before : List Char} {piece : Piece}
    (h : first? s = some (before, piece)) :
    ∃ rest, s = before ++ rest ∧ read? rest = some piece ∧
      ∀ front after, before = front ++ after → after ≠ [] → read? (after ++ rest) = none := by
  induction s generalizing before with
  | nil => cases h
  | cons c cs ih =>
    unfold first? at h
    split at h
    · rename_i found hfound
      cases h
      refine ⟨c :: cs, rfl, hfound, fun front after hnil hne => absurd ?_ hne⟩
      exact (List.append_eq_nil_iff.mp hnil.symm).2
    · rename_i hnone
      obtain ⟨⟨inner, found⟩, hfirst, heq⟩ := Option.map_eq_some_iff.mp h
      cases heq
      obtain ⟨rest, rfl, hread, hbefore⟩ := ih hfirst
      refine ⟨rest, rfl, hread, fun front after hsplit hne => ?_⟩
      cases front with
      | nil =>
        rw [List.nil_append] at hsplit
        rw [← hsplit]
        exact hnone
      | cons d front => exact hbefore front after (List.cons.inj hsplit).2 hne

theorem first?_eq_of_read? {s : List Char} {piece : Piece} (h : read? s = some piece) :
    first? s = some ([], piece) := by
  cases s with
  | nil => cases h
  | cons c cs => rw [first?, h]

theorem ReadsLink.read? {s : List Char} {link : Link} (h : ReadsLink s link) :
    read? s = some (.link link) := by
  rw [Emphasis.read?, link?_eq_some_iff.mpr h]

theorem IsStart.exists_readsLink {start s : List Char} (h : IsStart start) (hs : start <+: s) :
    ∃ link, ReadsLink s link := by
  obtain ⟨target, isLocal, hreads⟩ := h.exists_readsTarget hs
  exact ⟨_, .bare hreads⟩

/-- What counts as the link or word at the front of a text, after the text before it. -/
inductive Found (s : List Char) : (before : List Char) → Piece → Prop
  | whole {piece : Piece} : read? s = some piece → Paired piece.source → Found s [] piece
  /-- Some parentheses of `outer` are not paired, so that only the part of it counts in which they
  are. -/
  | inside {outer piece : Piece} {before : List Char} :
    read? s = some outer → ¬ Paired outer.source →
    first? (pairedStart outer.source) = some (before, piece) → Found s before piece

theorem found_of_readPaired? {s before : List Char} {piece : Piece}
    (h : readPaired? s = some (before, piece)) :
    Found s before piece := by
  unfold readPaired? at h
  split at h
  · cases h
  · rename_i outer houter
    simp only at h
    split at h
    · rename_i hshort
      refine .inside houter (fun hpaired => ?_) h
      have hlength := length_le_pairedStart (List.prefix_refl _) hpaired
      omega
    · rename_i hlong
      cases h
      exact .whole houter (paired_of_length_le (Nat.le_of_not_lt hlong))

theorem Found.exists_read? {s before : List Char} {piece : Piece} (h : Found s before piece) :
    ∃ text, read? text = some piece ∧ before ++ piece.source <+: s := by
  cases h with
  | whole hread => exact ⟨s, hread, source_prefix_of_read? hread⟩
  | @inside outer _ _ houter _ hfirst =>
    obtain ⟨rest, hrest, hread, -⟩ := exists_of_first? hfirst
    refine ⟨rest, hread, ?_⟩
    have hstart : before ++ piece.source <+: pairedStart outer.source :=
      hrest ▸ (List.prefix_append_right_inj before).mpr (source_prefix_of_read? hread)
    exact (hstart.trans (pairedStart_isPrefix _)).trans (source_prefix_of_read? houter)

/-- Where a target starts, something is found. -/
theorem readPaired?_ne_none {start s : List Char} (h : IsStart start) (hs : start <+: s) :
    readPaired? s ≠ none := by
  obtain ⟨target, isLocal, hreads⟩ := h.exists_readsTarget hs
  rw [readPaired?, (ReadsLink.bare hreads).read?]
  simp only
  split
  · -- no parenthesis cuts the start of the target off
    obtain ⟨opening, hopening, hfront⟩ := hreads.exists_isStart
    have hpaired : Paired opening := paired_of_forall_ne hopening.forall_ne_paren
    obtain ⟨link, hagain⟩ := hopening.exists_readsLink (prefix_pairedStart hfront hpaired)
    show first? (pairedStart target) ≠ none
    rw [first?_eq_of_read? hagain.read?]
    exact Option.some_ne_none _
  · exact Option.some_ne_none _

/-- A target that starts before the end of what is found or with it starts a link that is found. -/
theorem Found.eq_of_isStart {s before front after start : List Char} {piece : Piece}
    (h : Found s before piece) (hs : s = front ++ after) (hfront : front <+: before)
    (hstart : IsStart start) (hafter : start <+: after) :
    front = before ∧ ∃ link, piece = .link link := by
  cases h with
  | whole hread =>
    obtain rfl := List.prefix_nil.mp hfront
    rw [List.nil_append] at hs
    subst hs
    obtain ⟨link, hlink⟩ := hstart.exists_readsLink hafter
    exact ⟨rfl, link, Option.some.inj (hread.symm.trans hlink.read?)⟩
  | @inside outer _ _ houter hunpaired hfirst =>
    obtain ⟨rest, hrest, hread, hbefore⟩ := exists_of_first? hfirst
    obtain ⟨between, rfl⟩ := hfront
    obtain ⟨tail, htail⟩ := pairedStart_isPrefix outer.source
    obtain ⟨more, hmore⟩ := source_prefix_of_read? houter
    -- a parenthesis follows the paired part, so that the target starts inside that part
    have hne : tail ≠ [] := by
      rintro rfl
      rw [List.append_nil] at htail
      exact hunpaired (htail ▸ paired_pairedStart outer.source)
    have hparen : BeforeParen (tail ++ more) :=
      (beforeParen_of_pairedStart_append htail).append hne more
    have hsplit : after = between ++ rest ++ (tail ++ more) := by
      have hall : front ++ after = front ++ (between ++ rest ++ (tail ++ more)) := by
        rw [← hs, ← hmore, ← htail, hrest]
        simp only [List.append_assoc]
      exact List.append_cancel_left hall
    have hinside : start <+: between ++ rest :=
      hparen.prefix_left hstart.forall_ne_paren (hsplit ▸ hafter)
    obtain ⟨link, hlink⟩ := hstart.exists_readsLink hinside
    by_cases hbetween : between = []
    · subst hbetween
      exact ⟨(List.append_nil front).symm, link, Option.some.inj (hread.symm.trans hlink.read?)⟩
    · have hnone := hbefore front between rfl hbetween
      rw [hlink.read?] at hnone
      cases hnone

/-! ### Texts without code spans -/

/-- A text is cut into pieces, a character or a find at a time. -/
inductive Cuts : List Char → List Piece → Prop
  | done : Cuts [] []
  | plain {c : Char} {cs : List Char} {ps : List Piece} :
    readPaired? (c :: cs) = none → Cuts cs ps →
    Cuts (c :: cs) (.plain c :: ps)
  | found {before rest : List Char} {piece : Piece} {ps : List Piece} :
    Found (before ++ piece.source ++ rest) before piece → piece.source ≠ [] → Cuts rest ps →
    Cuts (before ++ piece.source ++ rest) (before.map .plain ++ piece :: ps)

theorem textPieces_skip (skip : Nat) (s : List Char) :
    textPieces skip s = textPieces 0 (s.drop skip) := by
  induction skip generalizing s with
  | zero => rfl
  | succ skip ih =>
    cases s with
    | nil => rw [List.drop_nil, textPieces, textPieces]
    | cons c cs => rw [textPieces, ih, List.drop_succ_cons]

/-- **A text is cut by the rules.** -/
theorem cuts_textPieces (s : List Char) : Cuts s (textPieces 0 s) := by
  -- on the length of the text: every rule takes at least one character off
  induction hn : s.length using Nat.strongRecOn generalizing s with
  | ind n ih =>
    subst hn
    cases s with
    | nil => exact .done
    | cons c cs =>
      rw [textPieces]
      cases hread : readPaired? (c :: cs) with
      | none => exact .plain hread (ih _ (Nat.lt_succ_self _) _ rfl)
      | some found =>
        obtain ⟨before, piece⟩ := found
        have hfound := found_of_readPaired? hread
        obtain ⟨text, htext, rest, hrest⟩ := hfound.exists_read?
        have hne := source_ne_nil_of_read? htext
        have hpos : 0 < piece.source.length := List.length_pos_iff.mpr hne
        have hskip : cs.drop (before.length + piece.source.length - 1) = rest := by
          obtain ⟨skip, hskip⟩ : ∃ skip, before.length + piece.source.length = skip + 1 :=
            Nat.exists_eq_add_one.mpr (by omega)
          rw [hskip, Nat.add_sub_cancel, ← List.drop_succ_cons, ← hskip, ← hrest,
            ← List.length_append, List.drop_left]
        simp only
        rw [textPieces_skip, hskip]
        rw [← hrest] at hfound ⊢
        refine .found hfound hne (ih rest.length ?_ rest rfl)
        rw [← hrest]
        simp only [List.length_append]
        omega

theorem flatMap_source_map_plain (s : List Char) :
    (s.map Piece.plain).flatMap Piece.source = s := by
  rw [List.flatMap_map]
  exact List.flatMap_singleton' s

theorem Cuts.flatMap_source {s : List Char} {ps : List Piece} (h : Cuts s ps) :
    ps.flatMap Piece.source = s := by
  induction h with
  | done => rfl
  | plain _ _ ih => rw [List.flatMap_cons, ih, Piece.source, List.singleton_append]
  | found _ _ _ ih =>
    rw [List.flatMap_append, flatMap_source_map_plain, List.flatMap_cons, ih, List.append_assoc]

theorem Cuts.source_ne_nil {s : List Char} {ps : List Piece} (h : Cuts s ps) :
    ∀ piece ∈ ps, piece.source ≠ [] := by
  have hplain (c : Char) : (Piece.plain c).source ≠ [] := List.cons_ne_nil c []
  induction h with
  | done => exact List.forall_mem_nil _
  | @plain c _ _ _ _ ih => exact List.forall_mem_cons.mpr ⟨hplain c, ih⟩
  | found _ hne _ ih =>
    refine List.forall_mem_append.mpr ⟨?_, List.forall_mem_cons.mpr ⟨hne, ih⟩⟩
    exact List.forall_mem_map.mpr fun c _ => hplain c

theorem Cuts.readsLink {s : List Char} {ps : List Piece} (h : Cuts s ps) {link : Link}
    (hlink : .link link ∈ ps) :
    ∃ text, ReadsLink text link := by
  induction h with
  | done => cases hlink
  | plain _ _ ih => exact ih (by simpa using hlink)
  | found hfound _ _ ih =>
    rcases List.mem_append.mp hlink with hbefore | hlink
    · simp at hbefore
    · rcases List.mem_cons.mp hlink with rfl | hrest
      · obtain ⟨text, hread, -⟩ := hfound.exists_read?
        rcases read?_cases hread with ⟨found, hpiece, hreads⟩ | ⟨word, hpiece, -⟩
        · cases hpiece
          exact ⟨text, hreads⟩
        · cases hpiece
      · exact ih hrest

/-! ### Targets in a text -/

/-- The place after `front` lies in a link of the pieces. -/
def InLink (ps : List Piece) (front : List Char) : Prop :=
  ∃ before link after inside rest, ps = before ++ .link link :: after ∧
    front = before.flatMap Piece.source ++ inside ∧
    link.source = inside ++ rest ∧ rest ≠ []

theorem InLink.append_right {ps : List Piece} {front : List Char} (h : InLink ps front)
    (qs : List Piece) :
    InLink (ps ++ qs) front := by
  obtain ⟨before, link, after, inside, rest, rfl, rfl, hsource, hrest⟩ := h
  exact ⟨before, link, after ++ qs, inside, rest, by simp, rfl, hsource, hrest⟩

theorem InLink.append_left {ps : List Piece} {front : List Char} (h : InLink ps front)
    (qs : List Piece) :
    InLink (qs ++ ps) (qs.flatMap Piece.source ++ front) := by
  obtain ⟨before, link, after, inside, rest, rfl, rfl, hsource, hrest⟩ := h
  exact ⟨qs ++ before, link, after, inside, rest, by simp, by simp, hsource, hrest⟩

/-- The text does not end in a character of a word. -/
def EndsOutsideWord (s : List Char) : Prop :=
  ∀ front c, s = front ++ [c] → isWordChar c = false

theorem EndsOutsideWord.of_append {a b : List Char} (h : EndsOutsideWord (a ++ b)) :
    EndsOutsideWord b := by
  rintro front c rfl
  exact h (a ++ front) c (List.append_assoc ..).symm

/-- **Every target that does not go on a word is part of a link.** -/
theorem Cuts.inLink {s front after start : List Char} {ps : List Piece} (h : Cuts s ps)
    (hs : s = front ++ after) (hstart : IsStart start) (hafter : start <+: after)
    (hword : EndsOutsideWord front) : InLink ps front := by
  induction h generalizing front with
  | done =>
    obtain ⟨-, rfl⟩ := List.append_eq_nil_iff.mp hs.symm
    exact absurd (List.prefix_nil.mp hafter) hstart.ne_nil
  | @plain c cs ps hnone _ ih =>
    cases front with
    | nil =>
      rw [List.nil_append] at hs
      exact absurd hnone (readPaired?_ne_none hstart (hs ▸ hafter))
    | cons d front =>
      obtain ⟨rfl, hcs⟩ := List.cons.inj hs
      exact (ih hcs (hword.of_append (a := [c]))).append_left [.plain c]
  | @found before rest piece ps hfound hne _ ih =>
    have hgoesOn {front : List Char} (hfront : InLink ps front) :
        InLink (before.map .plain ++ piece :: ps) (before ++ (piece.source ++ front)) := by
      have hpieces := hfront.append_left (before.map .plain ++ [piece])
      simpa [flatMap_source_map_plain] using hpieces
    have hall := hs
    rw [List.append_assoc, eq_comm, List.append_eq_append_iff] at hs
    rcases hs with ⟨between, hbefore, -⟩ | ⟨inside, rfl, hinside⟩
    · -- before the find: only at its very front, and there the find is a link
      obtain ⟨rfl, link, rfl⟩ := hfound.eq_of_isStart hall ⟨between, hbefore.symm⟩ hstart hafter
      refine ⟨front.map .plain, link, ps, [], link.source, rfl, ?_, rfl, hne⟩
      rw [flatMap_source_map_plain, List.append_nil]
    · rw [eq_comm, List.append_eq_append_iff] at hinside
      rcases hinside with ⟨tail, hsource, htail⟩ | ⟨front, rfl, hfront⟩
      · obtain ⟨text, hread, -⟩ := hfound.exists_read?
        rcases read?_cases hread with ⟨link, rfl, -⟩ | ⟨word, rfl, htext⟩
        · by_cases hend : tail = []
          · subst hend
            have hrest : InLink ps [] := ih htail.symm fun front c h => by simp at h
            have hpieces := hgoesOn hrest
            rwa [hsource, List.append_nil, List.append_nil] at hpieces
          · exact ⟨before.map .plain, link, ps, inside, tail,
              rfl, by rw [flatMap_source_map_plain], hsource, hend⟩
        · -- in a word: its first character starts no target, and the others go on the word
          rcases List.eq_nil_or_concat' inside with rfl | ⟨head, c, rfl⟩
          · rw [List.append_nil] at hall
            obtain ⟨-, link, hlink⟩ :=
              hfound.eq_of_isStart hall (List.prefix_refl before) hstart hafter
            cases hlink
          · have hmem : c ∈ (Piece.word word).source := by
              simp [hsource]
            have hc : isWordChar c = true := isWordChar_of_mem_word? htext hmem
            rw [hword (before ++ head) c (by simp)] at hc
            cases hc
      · exact hgoesOn (ih hfront hword.of_append.of_append)

end PackageReadme.Emphasis
