import PackageReadme.Proofs.Emphasis.Spans

/-! The characters of an emphasized line.

Whatever holds of the marks that links, images, italics and escapes are written with, of the
characters of a line and of those of the URLs that words are given, holds of all that is written for
the line (`forall_mem_emphasize`). -/
namespace PackageReadme.Emphasis
open Text

/-- The characters that links, images, italics and escapes are written with. -/
def markup : List Char :=
  "[]()*!".toList ++ "&amp;&lt;&gt;&#34;&#39;".toList ++ ['�']

section
variable {P : Char → Prop} (hmarkup : ∀ c ∈ markup, P c)
include hmarkup

theorem forall_mem_marks {s : List Char} (h : s ⊆ markup) : ∀ c ∈ s, P c :=
  fun c hc => hmarkup c (h hc)

theorem forall_mem_escapedChar {c : Char} (h : P c) : ∀ d ∈ escapedChar c, P d := by
  unfold escapedChar
  split
  · exact forall_mem_marks hmarkup (by decide)
  split
  · exact forall_mem_marks hmarkup (by decide)
  split
  · exact forall_mem_marks hmarkup (by decide)
  split
  · exact forall_mem_marks hmarkup (by decide)
  split
  · exact forall_mem_marks hmarkup (by decide)
  split
  · exact forall_mem_marks hmarkup (by decide)
  · exact List.forall_mem_singleton.mpr h

theorem forall_mem_anchor {title url : List Char} (htitle : ∀ c ∈ title, P c)
    (hurl : ∀ c ∈ url, P c) :
    ∀ c ∈ anchor title url, P c := by
  have hescaped : ∀ c ∈ escaped title, P c :=
    List.forall_mem_flatMap.mpr fun c hc => forall_mem_escapedChar hmarkup (htitle c hc)
  simp only [anchor, List.forall_mem_append]
  exact ⟨⟨⟨⟨forall_mem_marks hmarkup (by decide), hescaped⟩, forall_mem_marks hmarkup (by decide)⟩,
    hurl⟩, forall_mem_marks hmarkup (by decide)⟩

theorem forall_mem_anchorInSentence {title url : List Char} (htitle : ∀ c ∈ title, P c)
    (hurl : ∀ c ∈ url, P c) :
    ∀ c ∈ anchorInSentence title url, P c := by
  unfold anchorInSentence
  split
  · rename_i mark hmark
    split
    · have hwithout : ∀ c ∈ withoutLast mark title, P c := by
        unfold withoutLast
        split
        · exact fun c hc => htitle c (List.dropLast_subset _ hc)
        · exact htitle
      refine List.forall_mem_append.mpr ⟨forall_mem_anchor hmarkup hwithout ?_, ?_⟩
      · exact fun c hc => hurl c (List.dropLast_subset _ hc)
      · exact List.forall_mem_singleton.mpr (hurl mark (List.mem_of_getLast? hmark))
    · exact forall_mem_anchor hmarkup htitle hurl
  · exact forall_mem_anchor hmarkup htitle hurl

theorem forall_mem_link_render {link : Link} (h : ∀ c ∈ link.source, P c) :
    ∀ c ∈ link.render, P c := by
  unfold Link.render
  split
  · exact h
  · cases htitle : link.title with
    | none =>
      simp only [Link.source, htitle] at h
      exact forall_mem_anchorInSentence hmarkup h h
    | some title =>
      simp only [Link.source, htitle, List.forall_mem_append] at h
      obtain ⟨⟨⟨-, htext⟩, -⟩, htarget⟩ := h
      simp only
      split
      · rename_i text himage
        rw [after?_eq_some_iff.mp himage, List.forall_mem_append] at htext
        exact List.forall_mem_cons.mpr
          ⟨hmarkup '!' (by decide), forall_mem_anchorInSentence hmarkup htext.2 htarget⟩
      · exact forall_mem_anchorInSentence hmarkup htext htarget

theorem forall_mem_piece_render {words : Words} (hwords : ∀ entry ∈ words, ∀ c ∈ entry.2, P c)
    {piece : Piece} (h : ∀ c ∈ piece.source, P c) : ∀ c ∈ piece.render words, P c := by
  have hurl {text url : List Char} (hlookup : words.lookup text = some url) : ∀ c ∈ url, P c := by
    obtain ⟨before, after, rfl, -⟩ := List.lookup_eq_some_iff.mp hlookup
    exact hwords (text, url) (by simp)
  cases piece with
  | plain c => exact h
  | code text => exact h
  | word text =>
    simp only [Piece.render]
    split
    · exact h
    · simp only [List.forall_mem_append]
      exact ⟨⟨forall_mem_marks hmarkup (by decide), h⟩, forall_mem_marks hmarkup (by decide)⟩
    · rename_i hlookup
      simp only [List.forall_mem_append]
      exact ⟨⟨⟨⟨forall_mem_marks hmarkup (by decide), h⟩, forall_mem_marks hmarkup (by decide)⟩,
        hurl hlookup⟩, forall_mem_marks hmarkup (by decide)⟩
  | link found =>
    simp only [Piece.render]
    split
    · exact forall_mem_link_render hmarkup h
    · exact h
    · rename_i hlookup
      exact forall_mem_anchorInSentence hmarkup h (hurl hlookup)

theorem forall_mem_flatMap_render {words : Words} (hwords : ∀ entry ∈ words, ∀ c ∈ entry.2, P c)
    {text : List Char} (htext : ∀ c ∈ text, P c) :
    ∀ c ∈ (pieces text).flatMap (Piece.render words), P c := by
  refine List.forall_mem_flatMap.mpr fun piece hpiece =>
    forall_mem_piece_render hmarkup hwords fun c hc => ?_
  apply htext
  rw [← flatMap_source_pieces text]
  exact List.mem_flatMap_of_mem hpiece hc

/-- **Emphasizing a line writes nothing** but the characters of the line, those of the URLs of
words, and marks. -/
theorem forall_mem_emphasize {words : Words} (hwords : ∀ entry ∈ words, ∀ c ∈ entry.2, P c)
    {line : List Char} (hline : ∀ c ∈ Line.terminated line, P c) :
    ∀ c ∈ emphasize words line, P c :=
  forall_mem_flatMap_render hmarkup hwords hline

end

end PackageReadme.Emphasis
