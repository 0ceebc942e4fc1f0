import PackageReadme.Proofs.Emphasis.Targets

/-! The punctuation of link targets.

Of the marks that end a target, the last one is put after the link. A path ends in none, so that
this leaves no mark where there is a path. A host and a local path may end in more than one, and
then all but the last stay in the target (`KeepsMark`). Main statement:
`written_target_ends_in_mark_iff`. -/
namespace PackageReadme.Emphasis
open Text

/-- The text does not end in punctuation. -/
def EndsOutsidePunctuation (s : List Char) : Prop :=
  ∀ front c, s = front ++ [c] → isPunctuation c = false

theorem EndsOutsidePunctuation.of_append {a b : List Char} (h : EndsOutsidePunctuation (a ++ b)) :
    EndsOutsidePunctuation b := by
  rintro front c rfl
  exact h (a ++ front) c (List.append_assoc ..).symm

theorem endsOutsidePunctuation_concat {s : List Char} {c : Char} :
    EndsOutsidePunctuation (s ++ [c]) ↔ isPunctuation c = false := by
  constructor
  · exact fun h => h s c rfl
  · intro hc front d h
    rw [← List.singleton_inj.mp (List.append_inj_right' h rfl)]
    exact hc

/-! ### Marks at the end of a target -/

/-- A target that ends in two marks, of which one stays in what is linked to. -/
inductive KeepsMark : List Char → Prop
  | host {opening host : List Char} {a b : Char} :
    IsOpening opening → (∀ c ∈ host, isHostChar c = true) →
    (a = '.' ∨ a = ':') → (b = '.' ∨ b = ':') → KeepsMark (opening ++ host ++ [a, b])
  /-- With a third period the path would name packages. -/
  | localPath {name : List Char} : (∀ c ∈ name, isLocalChar c = true) → ¬ ['.'] <:+ name →
    KeepsMark ('.' :: '/' :: name ++ ['.', '.'])

theorem isPunctuation_iff_mem {c : Char} :
    isPunctuation c = true ↔ c ∈ ['.', ',', ':', ';', '?', '!'] :=
  List.contains_iff_mem

/-- Of punctuation, hosts have periods and colons. -/
theorem eq_of_isPunctuation_of_isHostChar {c : Char} (h : isPunctuation c = true)
    (hhost : isHostChar c = true) :
    c = '.' ∨ c = ':' := by
  have hmarks : ['.', ',', ':', ';', '?', '!'].all
      (fun mark => !isHostChar mark || mark == '.' || mark == ':') := by
    decide
  have hmark := List.all_eq_true.mp hmarks c (isPunctuation_iff_mem.mp h)
  simpa [hhost] using hmark

/-- Of punctuation, local paths have periods. -/
theorem eq_of_isPunctuation_of_isLocalChar {c : Char} (h : isPunctuation c = true)
    (hlocal : isLocalChar c = true) :
    c = '.' := by
  have hmarks : ['.', ',', ':', ';', '?', '!'].all
      (fun mark => !isLocalChar mark || mark == '.') := by
    decide
  have hmark := List.all_eq_true.mp hmarks c (isPunctuation_iff_mem.mp h)
  simpa [hlocal] using hmark

theorem isPunctuation_eq_false_of_isPathChar {c : Char} (h : isPathChar c = true) :
    isPunctuation c = false := by
  have hmarks : ['.', ',', ':', ';', '?', '!'].all (fun mark => !isPathChar mark) := by
    decide
  rw [← Bool.not_eq_true]
  intro hpunctuation
  have hmark := List.all_eq_true.mp hmarks c (isPunctuation_iff_mem.mp hpunctuation)
  rw [h] at hmark
  cases hmark

theorem IsPath.endsOutsidePunctuation {s : List Char} (h : IsPath s) :
    EndsOutsidePunctuation s := by
  induction h with
  | nil => exact fun front c h => by simp at h
  | @cons marks rest c _ hc _ ih =>
    rcases List.eq_nil_or_concat' rest with rfl | ⟨front, d, rfl⟩
    · exact endsOutsidePunctuation_concat.mpr (isPunctuation_eq_false_of_isPathChar hc)
    · rw [← List.cons_append, ← List.append_assoc, endsOutsidePunctuation_concat]
      exact endsOutsidePunctuation_concat.mp ih

/-- Two marks that end a text do not reach back to a slash in it. -/
theorem exists_append_marks (lead : List Char) {s front : List Char} {a b : Char}
    (ha : isPunctuation a = true) (hb : isPunctuation b = true)
    (h : lead ++ '/' :: s = front ++ [a, b]) : ∃ inner, s = inner ++ [a, b] := by
  rcases List.eq_nil_or_concat' s with rfl | ⟨most, d, rfl⟩
  · have hslash : '/' = b := by
      simpa using congrArg List.getLast? h
    rw [← hslash] at hb
    cases hb
  · rw [← List.cons_append, ← List.append_assoc, List.append_cons front a] at h
    obtain ⟨hmost, hd⟩ := List.append_inj' h rfl
    rcases List.eq_nil_or_concat' most with rfl | ⟨inner, e, rfl⟩
    · have hslash : '/' = a := by
        simpa using congrArg List.getLast? hmost
      rw [← hslash] at ha
      cases ha
    · rw [← List.cons_append, ← List.append_assoc] at hmost
      obtain ⟨-, he⟩ := List.append_inj' hmost rfl
      refine ⟨inner, ?_⟩
      rw [List.singleton_inj.mp he, List.singleton_inj.mp hd, List.append_assoc]
      rfl

/-- **A URL that ends in two marks ends in its host.** -/
theorem IsUrl.keepsMark {front : List Char} {a b : Char} (h : IsUrl (front ++ [a, b]))
    (ha : isPunctuation a = true) (hb : isPunctuation b = true) : KeepsMark (front ++ [a, b]) := by
  obtain ⟨opening, host, path, hopening, hhost, hpath, htarget⟩ := h
  -- a path would end in a character that is no mark
  rcases List.eq_nil_or_concat' path with rfl | ⟨tail, c, rfl⟩
  · obtain ⟨protocol, hprotocol, rfl⟩ := hopening
    have hslash : protocol ++ [':', '/'] ++ '/' :: host = front ++ [a, b] := by
      rw [htarget]
      simp
    obtain ⟨inner, rfl⟩ := exists_append_marks _ ha hb hslash
    obtain ⟨hinner, hab⟩ := List.forall_mem_append.mp hhost.chars
    rw [htarget, List.append_nil, ← List.append_assoc]
    exact .host ⟨protocol, hprotocol, rfl⟩ hinner
      (eq_of_isPunctuation_of_isHostChar ha (hab a (by simp)))
      (eq_of_isPunctuation_of_isHostChar hb (hab b (by simp)))
  · have hc : b = c := by
      simpa using congrArg List.getLast? htarget
    rw [hc, endsOutsidePunctuation_concat.mp hpath.endsOutsidePunctuation] at hb
    cases hb

theorem IsLocal.keepsMark {front : List Char} {a b : Char} (h : IsLocal (front ++ [a, b]))
    (hpattern : ¬ "...".toList <:+ front ++ [a, b]) (ha : isPunctuation a = true)
    (hb : isPunctuation b = true) :
    KeepsMark (front ++ [a, b]) := by
  obtain ⟨name, hname, htarget⟩ := h
  obtain ⟨inner, rfl⟩ := exists_append_marks ['.'] ha hb htarget.symm
  obtain ⟨hinner, hab⟩ := List.forall_mem_append.mp hname
  rw [htarget] at hpattern ⊢
  rw [eq_of_isPunctuation_of_isLocalChar ha (hab a (by simp)),
    eq_of_isPunctuation_of_isLocalChar hb (hab b (by simp))] at hpattern ⊢
  refine .localPath hinner fun hthird => hpattern ?_
  obtain ⟨most, rfl⟩ := hthird
  exact ⟨'.' :: '/' :: most, by simp⟩

theorem not_endsOutsidePunctuation_iff {s : List Char} :
    ¬ EndsOutsidePunctuation s ↔ ∃ front c, s = front ++ [c] ∧ isPunctuation c = true := by
  simp [EndsOutsidePunctuation]

/-- What is left of a target that keeps a mark ends in that mark. -/
theorem KeepsMark.exists_concat {target : List Char} (h : KeepsMark target) :
    ∃ front a b, target = front ++ [a] ++ [b] ∧ isPunctuation a = true ∧
      isPunctuation b = true := by
  cases h with
  | @host opening host a b _ _ ha hb =>
    refine ⟨opening ++ host, a, b, by simp, ?_, ?_⟩
    · rcases ha with rfl | rfl <;> rfl
    · rcases hb with rfl | rfl <;> rfl
  | @localPath name _ _ => exact ⟨'.' :: '/' :: name, '.', '.', by simp, rfl, rfl⟩

/-- What is left of a target without its last mark ends in a mark just if the target ends in two. -/
theorem ReadsLink.not_endsOutsidePunctuation_iff {s rest mark : List Char} {link : Link}
    (h : ReadsLink s link) (hpattern : ¬ (link.isLocal = true ∧ "...".toList <:+ link.target))
    (hmark : Punctuated link.target rest mark) :
    ¬ EndsOutsidePunctuation rest ↔ KeepsMark link.target := by
  have hkind := h.isTarget_of_isLocal
  obtain ⟨title, target, isLocal⟩ := link
  simp only at hkind hpattern hmark ⊢
  cases hmark with
  | @marked rest b hb =>
    constructor
    · intro hends
      obtain ⟨front, a, rfl, ha⟩ := Emphasis.not_endsOutsidePunctuation_iff.mp hends
      rw [List.append_assoc] at hkind hpattern ⊢
      cases isLocal with
      | false => exact IsUrl.keepsMark hkind ha hb
      | true => exact IsLocal.keepsMark hkind (fun hsuffix => hpattern ⟨rfl, hsuffix⟩) ha hb
    · intro hkeeps
      obtain ⟨front, a, b, htarget, ha, -⟩ := hkeeps.exists_concat
      rw [(List.append_inj' htarget rfl).1]
      exact Emphasis.not_endsOutsidePunctuation_iff.mpr ⟨front, a, rfl, ha⟩
  | unmarked hends =>
    refine ⟨fun hnot => absurd hends hnot, fun hkeeps => ?_⟩
    obtain ⟨front, a, b, htarget, -, hb⟩ := hkeeps.exists_concat
    exact Emphasis.not_endsOutsidePunctuation_iff.mpr ⟨_, b, htarget, hb⟩

/-! ### Targets that are written -/

/-- **Which targets are written with a mark at their end.** A local path that names packages is no
link. Every other link is written with its target but for the last mark, and the rest ends in a mark
only for a URL without a path whose host ends in two marks, and for a local path that ends in two
periods. -/
theorem written_target_ends_in_mark_iff {line : List Char} {front back : List Piece} {link : Link}
    (h : pieces (Line.terminated line) = front ++ .link link :: back) :
    emphasize [] line = front.flatMap (Piece.render []) ++ link.render ++
      back.flatMap (Piece.render []) ∧
      (IsPattern link.target ∧ link.render = link.source ∨
        ∃ shown rest mark, Punctuated link.target rest mark ∧
          (link.render = anchor shown rest ++ mark ∨
            link.render = '!' :: anchor shown rest ++ mark) ∧
          (¬ EndsOutsidePunctuation rest ↔ KeepsMark link.target)) := by
  constructor
  · exact emphasize_around_link h
  · have hmem : .link link ∈ pieces (Line.terminated line) := by
      simp [h]
    obtain ⟨text, hreads⟩ := readsLink_of_mem_pieces hmem
    rcases link.render_cases with
      ⟨hpattern, hkept⟩ | ⟨hpattern, shown, rest, mark, hpunctuated, hwritten⟩
    · have hlocal := hreads.isTarget_of_isLocal
      rw [if_pos hpattern.1] at hlocal
      exact .inl ⟨⟨hlocal, hpattern.2⟩, hkept⟩
    · exact .inr ⟨shown, rest, mark, hpunctuated, hwritten,
        hreads.not_endsOutsidePunctuation_iff hpattern hpunctuated⟩

/-- A host that ends in two marks, under the title of an image. -/
theorem written_target_ends_in_mark_iff_host :
    let link : Link := ⟨some ⟨"image/x".toList, ' '⟩, "http://a.b.:".toList, false⟩
    pieces (Line.terminated "(image/x) http://a.b.: ok".toList) =
        [] ++ .link link :: [.plain ' ', .word "ok".toList, .plain '\n'] ∧
      ∃ shown rest mark, Punctuated link.target rest mark ∧
        (link.render = anchor shown rest ++ mark ∨ link.render = '!' :: anchor shown rest ++ mark) ∧
        ¬ EndsOutsidePunctuation rest := by
  intro link
  have hpieces : pieces (Line.terminated "(image/x) http://a.b.: ok".toList) =
      [] ++ .link link :: [.plain ' ', .word "ok".toList, .plain '\n'] := by
    decide +kernel
  have hkeeps : KeepsMark link.target :=
    @KeepsMark.host "http://".toList "a.b".toList '.' ':' ⟨"http".toList, by decide, rfl⟩
      (List.all_eq_true.mp (by decide)) (.inl rfl) (.inr rfl)
  obtain ⟨-, ⟨⟨-, hpattern⟩, -⟩ | ⟨shown, rest, mark, hpunctuated, hwritten, hends⟩⟩ :=
    written_target_ends_in_mark_iff hpieces
  · exact absurd hpattern (by decide)
  · exact ⟨hpieces, shown, rest, mark, hpunctuated, hwritten, hends.mpr hkeeps⟩

/-- Of two periods after a host, one stays in the target. -/
theorem target_keeps_period :
    emphasize [] "http://a..".toList = anchor "http://a.".toList "http://a.".toList ++
      ".\n".toList ∧
      ¬ EndsOutsidePunctuation "http://a.".toList := by
  constructor
  · decide +kernel
  · exact not_endsOutsidePunctuation_iff.mpr ⟨"http://a".toList, '.', rfl, rfl⟩

end PackageReadme.Emphasis
