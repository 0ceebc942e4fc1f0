import PackageReadme.Proofs.Emphasis.Cutting

/-! Code spans part a line.

Two equations say what the pieces of a line are, for a line with one backtick at most and for one
that starts with a code span after some text; every line is of one kind or the other (`Spans`), so
that what holds of texts carries over to lines by induction. The pieces are the line again, each of
them takes some of it, a code span among them stands where backticks pair up from the left, and a
target outside the spans is part of a link. -/
namespace PackageReadme.Emphasis
open Text

/-! ### Lines by their spans -/

/-- A line, taken apart at its code spans. -/
inductive Spans : List Char → Prop
  | text {s : List Char} : s.count '\x60' ≤ 1 → Spans s
  | code {text code rest : List Char} : '\x60' ∉ text → '\x60' ∉ code → Spans rest →
    Spans (text ++ '\x60' :: code ++ '\x60' :: rest)

theorem spans (line : List Char) : Spans line := by
  induction hn : line.length using Nat.strongRecOn generalizing line with
  | ind n ih =>
    subst hn
    by_cases hfirst : '\x60' ∈ line
    · obtain ⟨text, after, rfl, htext⟩ := List.eq_append_cons_of_mem hfirst
      by_cases hsecond : '\x60' ∈ after
      · obtain ⟨code, rest, rfl, hcode⟩ := List.eq_append_cons_of_mem hsecond
        have hrest : Spans rest :=
          ih rest.length (by simp only [List.length_append, List.length_cons]; omega) rest rfl
        have hspans := Spans.code htext hcode hrest
        rwa [List.append_assoc, List.cons_append] at hspans
      · refine .text ?_
        simp [List.count_eq_zero_of_not_mem htext, List.count_eq_zero_of_not_mem hsecond]
    · exact .text (by simp [List.count_eq_zero_of_not_mem hfirst])

/-- A backtick without another is text. -/
theorem pieces_of_count_le {s : List Char} (h : s.count '\x60' ≤ 1) :
    pieces s = textPieces 0 s := by
  by_cases hmem : '\x60' ∈ s
  · obtain ⟨text, last, rfl, htext⟩ := List.eq_append_cons_of_mem hmem
    have hlast : '\x60' ∉ last := by
      rw [List.count_append, List.count_cons_self] at h
      exact List.count_eq_zero.mp (by omega)
    rw [pieces, cut_append_cons htext, cut_of_notMem hlast, partPieces, List.append_assoc,
      List.singleton_append]
  · rw [pieces, cut_of_notMem hmem, partPieces]

theorem pieces_code {text code : List Char} (htext : '\x60' ∉ text) (hcode : '\x60' ∉ code)
    (rest : List Char) :
    pieces (text ++ '\x60' :: code ++ '\x60' :: rest) =
      textPieces 0 text ++ .code code :: pieces rest := by
  rw [List.append_assoc, List.cons_append, pieces, cut_append_cons htext, cut_append_cons hcode,
    partPieces, pieces]
  exact cut_ne_nil _ _

/-- **A code span parts a line in two** if the backticks before it pair up. -/
theorem pieces_append_code {before code : List Char} (hbefore : before.count '\x60' % 2 = 0)
    (hcode : '\x60' ∉ code) (rest : List Char) :
    pieces (before ++ '\x60' :: code ++ '\x60' :: rest) =
      pieces before ++ .code code :: pieces rest := by
  induction spans before with
  | @text before hcount =>
    have hnone : '\x60' ∉ before := List.count_eq_zero.mp (by omega)
    rw [pieces_code hnone hcode, pieces_of_count_le hcount]
  | @code text span before htext hspan _ ih =>
    have heven : before.count '\x60' % 2 = 0 := by
      simp only [List.count_append, List.count_cons_self, List.count_eq_zero_of_not_mem htext,
        List.count_eq_zero_of_not_mem hspan] at hbefore
      omega
    have hline : text ++ '\x60' :: span ++ '\x60' :: before ++ '\x60' :: code ++ '\x60' :: rest =
        text ++ '\x60' :: span ++ '\x60' :: (before ++ '\x60' :: code ++ '\x60' :: rest) := by
      simp only [List.append_assoc, List.cons_append]
    rw [hline, pieces_code htext hspan, ih heven, pieces_code htext hspan, List.append_assoc,
      List.cons_append]

/-! ### From texts to lines -/

theorem flatMap_source_pieces (line : List Char) : (pieces line).flatMap Piece.source = line := by
  induction spans line with
  | text hcount => rw [pieces_of_count_le hcount, (cuts_textPieces _).flatMap_source]
  | code htext hcode _ ih =>
    rw [pieces_code htext hcode, List.flatMap_append, List.flatMap_cons, ih,
      (cuts_textPieces _).flatMap_source, Piece.source]
    simp only [List.append_assoc, List.cons_append, List.nil_append]

theorem source_ne_nil_of_mem_pieces (line : List Char) :
    ∀ piece ∈ pieces line, piece.source ≠ [] := by
  induction spans line with
  | text hcount =>
    rw [pieces_of_count_le hcount]
    exact (cuts_textPieces _).source_ne_nil
  | code htext hcode _ ih =>
    rw [pieces_code htext hcode]
    refine List.forall_mem_append.mpr ⟨(cuts_textPieces _).source_ne_nil,
      List.forall_mem_cons.mpr ⟨?_, ih⟩⟩
    exact List.cons_ne_nil _ _

/-- A link of a line is read somewhere. -/
theorem readsLink_of_mem_pieces {line : List Char} {link : Link} (h : .link link ∈ pieces line) :
    ∃ text, ReadsLink text link := by
  induction spans line with
  | text hcount =>
    rw [pieces_of_count_le hcount] at h
    exact (cuts_textPieces _).readsLink h
  | code htext hcode _ ih =>
    rw [pieces_code htext hcode, List.mem_append, List.mem_cons] at h
    rcases h with h | h | h
    · exact (cuts_textPieces _).readsLink h
    · cases h
    · exact ih h

/-- **Every target outside the code spans that does not go on a word is part of a link.** -/
theorem inLink_pieces {line front after start : List Char} (hline : line = front ++ after)
    (hstart : IsStart start) (hafter : start <+: after) (hword : EndsOutsideWord front)
    (houtside : front.count '\x60' % 2 = 0 ∨ '\x60' ∉ after) : InLink (pieces line) front := by
  induction spans line generalizing front with
  | text hcount =>
    rw [pieces_of_count_le hcount]
    exact (cuts_textPieces _).inLink hline hstart hafter hword
  | @code text code rest htext hcode _ ih =>
    rw [pieces_code htext hcode]
    rw [List.append_assoc, eq_comm, List.append_eq_append_iff] at hline
    rcases hline with ⟨between, rfl, hbetween⟩ | ⟨inside, rfl, hinside⟩
    · -- in the text before the span, which no start of a target leaves
      have hstops : Stops (· != '\x60') ('\x60' :: code ++ '\x60' :: rest) := by
        rintro c _ hcons
        cases hcons
        rfl
      have hstarts : start <+: between := by
        refine prefix_of_forall_of_stops (fun c hc => ?_) hstops (hbetween ▸ hafter)
        simpa using (hstart.forall_ne c hc).2.2
      exact ((cuts_textPieces _).inLink rfl hstart hstarts hword).append_right _
    · have hnotTick (rest : List Char) : after ≠ '\x60' :: rest := by
        rintro rfl
        exact (hstart.head_ne hafter).2.2 rfl
      cases inside with
      | nil => exact absurd hinside.symm (hnotTick _)
      | cons c inside =>
        rw [List.cons_append, List.cons_append, List.cons.injEq, eq_comm, @eq_comm _ (code ++ _),
          List.append_eq_append_iff] at hinside
        obtain ⟨rfl, ⟨between, rfl, rfl⟩ | ⟨front, rfl, hfront⟩⟩ := hinside
        · -- in the span: one backtick before and one after
          rw [List.mem_append, not_or] at hcode
          simp [List.count_eq_zero_of_not_mem htext,
            List.count_eq_zero_of_not_mem hcode.1] at houtside
        · cases front with
          | nil => exact absurd hfront.symm (hnotTick _)
          | cons d front =>
            obtain ⟨rfl, hrest⟩ := List.cons.inj hfront
            have heven : front.count '\x60' % 2 = 0 ∨ '\x60' ∉ after := by
              refine houtside.imp_left fun heven => ?_
              simp only [List.count_append, List.count_cons_self,
                List.count_eq_zero_of_not_mem htext, List.count_eq_zero_of_not_mem hcode] at heven
              omega
            have hends : EndsOutsideWord front := by
              refine EndsOutsideWord.of_append (a := text ++ '\x60' :: code ++ ['\x60']) ?_
              simpa using hword
            have hpieces := (ih hrest hends heven).append_left (textPieces 0 text ++ [.code code])
            simpa [(cuts_textPieces text).flatMap_source, Piece.source] using hpieces

end PackageReadme.Emphasis
