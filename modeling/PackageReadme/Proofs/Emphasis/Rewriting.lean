import PackageReadme.Proofs.Emphasis.Spans

/-! Links are rewritten, and nothing else is.

A `Rewriting` is a text with some of its parts written anew and all that stands between them kept.
Emphasizing a line without words is one: the parts are links, each written as `Rewrites` says, code
spans lie between them, and no target that stands by itself is left out. Main statement:
`emphasize_rewrites`. -/
namespace PackageReadme.Emphasis
open Text

/-! ### How a link is written -/

/-- A target as `rest` and the punctuation mark that ends it, if there is one. -/
inductive Punctuated : (target rest mark : List Char) → Prop
  | marked {rest : List Char} {c : Char} :
      isPunctuation c = true → Punctuated (rest ++ [c]) rest [c]
  | unmarked {target : List Char} : (∀ front c, target = front ++ [c] → isPunctuation c = false) →
    Punctuated target target []

/-- A title without the mark at its end, if it ends so. -/
def Strips (mark title shown : List Char) : Prop :=
  title = shown ++ mark ∨ ¬ mark <:+ title ∧ shown = title

/-- A local path that names packages. -/
def IsPattern (target : List Char) : Prop :=
  IsLocal target ∧ "...".toList <:+ target

/-- What becomes of the text of a link. -/
inductive Rewrites : (found written : List Char) → Prop
  | pattern {found target : List Char} {title : Option (List Char)} :
    IsLink found title target → IsPattern target →
    Rewrites found found
  | bare {found target rest mark : List Char} : IsLink found none target → ¬ IsPattern target →
    Punctuated target rest mark → Rewrites found (anchor rest rest ++ mark)
  | titled {found title target rest mark shown : List Char} :
    IsLink found (some title) target → ¬ IsPattern target →
    Punctuated target rest mark → ¬ "image/".toList <+: title → Strips mark title shown →
    Rewrites found (anchor shown rest ++ mark)
  | image {found title target rest mark shown : List Char} :
    IsLink found (some ("image/".toList ++ title)) target →
    ¬ IsPattern target → Punctuated target rest mark → Strips mark title shown →
    Rewrites found ('!' :: anchor shown rest ++ mark)

theorem strips_withoutLast (c : Char) (title : List Char) :
    Strips [c] title (withoutLast c title) := by
  unfold withoutLast
  split
  · rename_i hlast
    obtain ⟨shown, rfl⟩ := List.getLast?_eq_some_iff.mp hlast
    exact .inl (by rw [List.dropLast_concat])
  · rename_i hlast
    refine .inr ⟨fun hsuffix => hlast ?_, rfl⟩
    obtain ⟨shown, rfl⟩ := hsuffix
    exact List.getLast?_concat

/-- A target that is its own title is shown as it is linked to. -/
theorem Punctuated.eq_of_strips {target rest mark shown : List Char}
    (h : Punctuated target rest mark) (hstrips : Strips mark target shown) : shown = rest := by
  have htarget : target = rest ++ mark := by
    cases h with
    | marked => rfl
    | unmarked => rw [List.append_nil]
  rcases hstrips with hshown | ⟨hnot, -⟩
  · exact List.append_cancel_right (hshown.symm.trans htarget)
  · exact absurd ⟨rest, htarget.symm⟩ hnot

theorem exists_anchorInSentence_eq (title target : List Char) :
    ∃ rest mark shown, Punctuated target rest mark ∧ Strips mark title shown ∧
      anchorInSentence title target = anchor shown rest ++ mark := by
  have hunmarked : Strips [] title title := .inl (List.append_nil title).symm
  rcases List.eq_nil_or_concat' target with rfl | ⟨rest, c, rfl⟩
  · exact ⟨[], [], title,
      .unmarked fun front c h => by simp at h, hunmarked, by simp [anchorInSentence]⟩
  · cases hc : isPunctuation c with
    | true =>
      refine ⟨rest, [c], withoutLast c title, .marked hc, strips_withoutLast c title, ?_⟩
      simp [anchorInSentence, hc]
    | false =>
      refine ⟨rest ++ [c], [], title, .unmarked fun front d h => ?_,
        hunmarked, by simp [anchorInSentence, hc]⟩
      rw [← List.singleton_inj.mp (List.append_inj_right' h rfl)]
      exact hc

/-- **A link that is read is written by the rules.** -/
theorem ReadsLink.rewrites {text : List Char} {link : Link} (h : ReadsLink text link) :
    Rewrites link.source link.render := by
  have hkind := h.isTarget_of_isLocal
  have hlink := h.isLink
  unfold Link.render
  split
  · rename_i hpattern
    rw [Bool.and_eq_true, List.isSuffixOf_iff_suffix] at hpattern
    rw [if_pos hpattern.1] at hkind
    exact .pattern hlink ⟨hkind, hpattern.2⟩
  · rename_i hpattern
    have hnot : ¬ IsPattern link.target := by
      rintro ⟨hlocal, hsuffix⟩
      cases hisLocal : link.isLocal with
      | false =>
        rw [hisLocal] at hkind
        exact IsUrl.not_isLocal hkind hlocal
      | true =>
        exact hpattern (by rw [hisLocal, Bool.true_and, List.isSuffixOf_iff_suffix]; exact hsuffix)
    cases htitle : link.title with
    | none =>
      rw [htitle] at hlink
      obtain ⟨rest, mark, shown, hpunctuated, hstrips, hwritten⟩ :=
        exists_anchorInSentence_eq link.target link.target
      rw [hpunctuated.eq_of_strips hstrips] at hwritten
      simp only [hwritten]
      exact .bare hlink hnot hpunctuated
    | some title =>
      rw [htitle] at hlink
      simp only
      split
      · rename_i shownText himage
        rw [after?_eq_some_iff] at himage
        obtain ⟨rest, mark, shown, hpunctuated, hstrips, hwritten⟩ :=
          exists_anchorInSentence_eq shownText link.target
        rw [hwritten]
        exact .image (himage ▸ hlink) hnot hpunctuated hstrips
      · rename_i hplain
        obtain ⟨rest, mark, shown, hpunctuated, hstrips, hwritten⟩ :=
          exists_anchorInSentence_eq title.text link.target
        rw [hwritten]
        refine .titled hlink hnot hpunctuated ?_ hstrips
        rintro ⟨after, hafter⟩
        rw [after?_eq_some_iff.mpr hafter.symm] at hplain
        cases hplain

/-- A link in a line is written between what the other pieces are written as. -/
theorem emphasize_around_link {line : List Char} {front back : List Piece} {link : Link}
    (h : pieces (Line.terminated line) = front ++ .link link :: back) :
    emphasize [] line = front.flatMap (Piece.render []) ++ link.render ++
      back.flatMap (Piece.render []) := by
  rw [emphasize, h, List.flatMap_append, List.flatMap_cons, Piece.render, List.append_assoc]
  rfl

/-! ### Texts with parts written anew -/

/-- A part of a text, what is written for it, and what is kept after it. -/
structure Step where
  found : List Char
  written : List Char
  after : List Char

/-- What is kept before the first part, and the parts. -/
structure Rewriting where
  lead : List Char
  steps : List Step

namespace Rewriting

def source (w : Rewriting) : List Char :=
  w.lead ++ w.steps.flatMap fun step => step.found ++ step.after

def written (w : Rewriting) : List Char :=
  w.lead ++ w.steps.flatMap fun step => step.written ++ step.after

/-- The text `span` after `before` lies in what is kept. -/
inductive InGap : Rewriting → (before span : List Char) → Prop
  | lead {before span rest : List Char} {steps : List Step} :
      InGap ⟨before ++ span ++ rest, steps⟩ before span
  | later {lead before span : List Char} {step : Step} {steps : List Step} :
    InGap ⟨step.after, steps⟩ before span →
    InGap ⟨lead, step :: steps⟩ (lead ++ step.found ++ before) span

/-- The place after `before` lies in a part that is written anew. -/
inductive InStep : Rewriting → (before : List Char) → Prop
  | here {lead inside rest written after : List Char} {steps : List Step} : rest ≠ [] →
    InStep ⟨lead, ⟨inside ++ rest, written, after⟩ :: steps⟩ (lead ++ inside)
  | later {lead before : List Char} {step : Step} {steps : List Step} :
    InStep ⟨step.after, steps⟩ before →
    InStep ⟨lead, step :: steps⟩ (lead ++ step.found ++ before)

def keep (text : List Char) (w : Rewriting) : Rewriting :=
  ⟨text ++ w.lead, w.steps⟩

def put (found written : List Char) (w : Rewriting) : Rewriting :=
  ⟨[], ⟨found, written, w.lead⟩ :: w.steps⟩

theorem InGap.keep {w : Rewriting} {before span : List Char} (h : w.InGap before span)
    (text : List Char) :
    (w.keep text).InGap (text ++ before) span := by
  cases h with
  | lead =>
    simp only [Rewriting.keep, ← List.append_assoc]
    exact .lead
  | later h =>
    simp only [Rewriting.keep, ← List.append_assoc]
    exact .later h

theorem InGap.put {w : Rewriting} {before span : List Char} (h : w.InGap before span)
    (found written : List Char) :
    (w.put found written).InGap (found ++ before) span :=
  .later h

theorem InStep.keep {w : Rewriting} {before : List Char} (h : w.InStep before) (text : List Char) :
    (w.keep text).InStep (text ++ before) := by
  cases h with
  | here hrest =>
    simp only [Rewriting.keep, ← List.append_assoc]
    exact .here hrest
  | later h =>
    simp only [Rewriting.keep, ← List.append_assoc]
    exact .later h

theorem InStep.put {w : Rewriting} {before : List Char} (h : w.InStep before)
    (found written : List Char) :
    (w.put found written).InStep (found ++ before) :=
  .later h

/-- The rewriting that takes one piece more at the front: links are written anew, other pieces are
kept. -/
def add (piece : Piece) (w : Rewriting) : Rewriting :=
  match piece with
  | .link link => w.put link.source link.render
  | piece => w.keep piece.source

def ofPieces (ps : List Piece) : Rewriting :=
  ps.foldr add ⟨[], []⟩

theorem source_ofPieces (ps : List Piece) : (ofPieces ps).source = ps.flatMap Piece.source := by
  induction ps with
  | nil => rfl
  | cons piece ps ih =>
    rw [List.flatMap_cons, ← ih]
    cases piece <;> simp [ofPieces, add, put, keep, source, Piece.source]

theorem written_ofPieces (ps : List Piece) :
    (ofPieces ps).written = ps.flatMap (Piece.render []) := by
  induction ps with
  | nil => rfl
  | cons piece ps ih =>
    rw [List.flatMap_cons, ← ih]
    cases piece <;> simp [ofPieces, add, put, keep, written, Piece.source, Piece.render]

theorem exists_of_mem_steps {ps : List Piece} : ∀ step ∈ (ofPieces ps).steps,
    ∃ link, .link link ∈ ps ∧ step.found = link.source ∧ step.written = link.render := by
  induction ps with
  | nil => exact List.forall_mem_nil _
  | cons piece ps ih =>
    have hrest : ∀ step ∈ (ofPieces ps).steps,
        ∃ link, .link link ∈ piece :: ps ∧ step.found = link.source ∧
        step.written = link.render := by
      intro step hstep
      obtain ⟨link, hlink, hwritten⟩ := ih step hstep
      exact ⟨link, .tail _ hlink, hwritten⟩
    cases piece with
    | link link => exact List.forall_mem_cons.mpr ⟨⟨link, .head _, rfl, rfl⟩, hrest⟩
    | plain c => exact hrest
    | code text => exact hrest
    | word text => exact hrest

theorem InGap.add {w : Rewriting} {before span : List Char} (h : w.InGap before span)
    (piece : Piece) :
    (w.add piece).InGap (piece.source ++ before) span := by
  cases piece with
  | link link => exact h.put ..
  | plain c => exact h.keep ..
  | code text => exact h.keep ..
  | word text => exact h.keep ..

theorem InStep.add {w : Rewriting} {before : List Char} (h : w.InStep before) (piece : Piece) :
    (w.add piece).InStep (piece.source ++ before) := by
  cases piece with
  | link link => exact h.put ..
  | plain c => exact h.keep ..
  | code text => exact h.keep ..
  | word text => exact h.keep ..

theorem inGap_ofPieces (front : List Piece) (code : List Char) (back : List Piece) :
    (ofPieces (front ++ .code code :: back)).InGap (front.flatMap Piece.source)
      (Piece.code code).source := by
  induction front with
  | nil => exact @InGap.lead [] _ (ofPieces back).lead (ofPieces back).steps
  | cons piece front ih => exact ih.add piece

theorem inStep_ofPieces {link : Link} {inside rest : List Char}
    (hsource : link.source = inside ++ rest) (hrest : rest ≠ []) (front back : List Piece) :
    (ofPieces (front ++ .link link :: back)).InStep (front.flatMap Piece.source ++ inside) := by
  induction front with
  | nil =>
    show InStep ⟨[], ⟨link.source, link.render, (ofPieces back).lead⟩ :: (ofPieces back).steps⟩
      ([] ++ inside)
    rw [hsource]
    exact .here hrest
  | cons piece front ih =>
    rw [List.flatMap_cons, List.append_assoc]
    exact ih.add piece

end Rewriting

/-- **Emphasizing a line rewrites its links and nothing else.** The line is taken apart into links
and what is kept between them, and every link is written by the rules. Code spans, which backticks
make from the left, are kept. What is left out of the links is no target: any target that stands
outside the spans and does not go on a word is part of a link. Cutting the line comes to an end
since every piece takes some of it. -/
theorem emphasize_rewrites (line : List Char) :
    ∃ w : Rewriting, w.source = Line.terminated line ∧ emphasize [] line = w.written ∧
      (∀ step ∈ w.steps, Rewrites step.found step.written) ∧
      (∀ before code after, Line.terminated line = before ++ '\x60' :: code ++ '\x60' :: after →
        before.count '\x60' % 2 = 0 → '\x60' ∉ code → w.InGap before ('\x60' :: code ++ ['\x60'])) ∧
      (∀ before target after, Line.terminated line = before ++ (target ++ after) → IsTarget target →
        EndsOutsideWord before → (before.count '\x60' % 2 = 0 ∨ '\x60' ∉ target ++ after) →
        w.InStep before) ∧
      (pieces (Line.terminated line)).flatMap Piece.source = Line.terminated line ∧
      ∀ piece ∈ pieces (Line.terminated line), piece.source ≠ [] := by
  refine ⟨.ofPieces (pieces (Line.terminated line)), ?_, ?_, fun step hstep => ?_,
    fun before code after hline hbefore hcode => ?_,
    fun before target after hline htarget hword houtside => ?_, flatMap_source_pieces _,
    source_ne_nil_of_mem_pieces _⟩
  · rw [Rewriting.source_ofPieces, flatMap_source_pieces]
  · rw [Rewriting.written_ofPieces, emphasize]
  · obtain ⟨link, hlink, hfound, hwritten⟩ := Rewriting.exists_of_mem_steps step hstep
    obtain ⟨text, hreads⟩ := readsLink_of_mem_pieces hlink
    rw [hfound, hwritten]
    exact hreads.rewrites
  · have hgap := Rewriting.inGap_ofPieces (pieces before) code (pieces after)
    rwa [flatMap_source_pieces, ← pieces_append_code hbefore hcode, ← hline] at hgap
  · obtain ⟨start, hstart, hfront⟩ := htarget.exists_isStart
    obtain ⟨front, link, back, inside, rest, hpieces, rfl, hsource, hrest⟩ :=
      inLink_pieces hline hstart (hfront.trans (List.prefix_append ..)) hword houtside
    rw [hpieces]
    exact Rewriting.inStep_ofPieces hsource hrest front back

end PackageReadme.Emphasis
