import PackageReadme.Proofs.Emphasis.Punctuation
import PackageReadme.Proofs.Emphasis.Tokens
import PackageReadme.Proofs.Text.Lines

/-! URLs that stand by themselves are linked.

The readers take the longest host and then the longest path, while the grammar may part host and
path in more than one way. A URL that ends in no punctuation is read whole all the same if a blank
follows it (`IsUrl.readsTarget`). Before it nothing is read but words, so that the text before it is
kept, and what follows is emphasized as a line of its own (`emphasize_append_link`). Main statement:
`emphasize_append_url`. -/
namespace PackageReadme.Emphasis
open Text

/-! ### Reading a whole URL -/

/-- A character that stands in URLs. -/
def isUrlChar (c : Char) : Bool :=
  isHostChar c || (isPathChar c || isPunctuation c)

theorem IsPath.forall_mem {s : List Char} (h : IsPath s) :
    ∀ c ∈ s, (isPathChar c || isPunctuation c) = true := by
  induction h with
  | nil => exact List.forall_mem_nil _
  | cons hmarks hc _ ih =>
    refine List.forall_mem_append.mpr ⟨fun c hmark => ?_, List.forall_mem_cons.mpr ⟨?_, ih⟩⟩
    · rw [hmarks c hmark, Bool.or_true]
    · rw [hc, Bool.true_or]

theorem IsUrl.forall_mem {u : List Char} (h : IsUrl u) : ∀ c ∈ u, isUrlChar c = true := by
  obtain ⟨opening, host, path, ⟨protocol, hprotocol, rfl⟩, hhost, hpath, rfl⟩ := h
  have hprotocols : ∀ protocol ∈ protocols, (protocol ++ [':', '/', '/']).all isUrlChar = true := by
    decide
  have hopening := List.all_eq_true.mp (hprotocols protocol hprotocol)
  refine List.forall_mem_append.mpr ⟨List.forall_mem_append.mpr ⟨hopening, fun c hc => ?_⟩,
    fun c hc => ?_⟩
  · rw [isUrlChar, hhost.chars c hc, Bool.true_or]
  · rw [isUrlChar, hpath.forall_mem c hc, Bool.or_true]

theorem IsLocal.forall_mem {target : List Char} (h : IsLocal target) :
    ∀ c ∈ target, isUrlChar c = true := by
  obtain ⟨name, hname, rfl⟩ := h
  refine List.forall_mem_cons.mpr ⟨rfl, List.forall_mem_cons.mpr ⟨rfl, fun c hc => ?_⟩⟩
  have hchar := hname c hc
  simp only [isLocalChar, isUrlChar, isHostChar, isPathChar, Bool.or_eq_true, List.contains_iff_mem,
    List.mem_cons, List.not_mem_nil, or_false] at hchar ⊢
  tauto

theorem IsTarget.forall_mem {target : List Char} (h : IsTarget target) :
    ∀ c ∈ target, isUrlChar c = true :=
  h.elim IsUrl.forall_mem IsLocal.forall_mem

/-- A path is all that a text has of it, up to a character of no path. -/
theorem path_append {s rest : List Char} (hs : ∀ c ∈ s, (isPathChar c || isPunctuation c) = true)
    (hlast : EndsOutsidePunctuation s)
    (hrest : Stops (fun c => isPathChar c || isPunctuation c) rest) :
    path (s ++ rest) = s := by
  obtain ⟨marks, hmarks, hpunctuation, -⟩ := exists_path_append (s ++ rest)
  rw [takeWhile_eq_iff.mpr ⟨rest, rfl, hs, hrest⟩] at hmarks
  rcases List.eq_nil_or_concat' marks with rfl | ⟨front, mark, rfl⟩
  · rw [List.append_nil] at hmarks
    exact hmarks.symm
  · have hmark := hpunctuation mark (by simp)
    rw [← List.append_assoc] at hmarks
    rw [hlast _ mark hmarks] at hmark
    cases hmark

/-- **A URL is read whole**, whichever way host and path are parted in it. -/
theorem IsUrl.readsTarget {u rest : List Char} (hu : IsUrl u) (hlast : EndsOutsidePunctuation u)
    (hrest : Stops isUrlChar rest) : ReadsTarget (u ++ rest) u false := by
  obtain ⟨opening, host, tail, hopening, hhost, htail, rfl⟩ := hu
  -- the host that is read goes on into the path
  obtain ⟨after, hafter, hmore, hstops⟩ := takeWhile_eq_iff.mp (rfl : tail.takeWhile isHostChar = _)
  generalize tail.takeWhile isHostChar = more at hafter hmore
  subst hafter
  have hlong : IsHost (host ++ more) :=
    ⟨by simp [hhost.nonempty], List.forall_mem_append.mpr ⟨hhost.chars, hmore⟩⟩
  have hnext : Stops isHostChar (after ++ rest) := by
    cases after with
    | nil => exact hrest.mono fun c hc => by rw [isUrlChar, hc, Bool.true_or]
    | cons d after => exact hstops.append (List.cons_ne_nil d after) rest
  have hpath : path (after ++ rest) = after := by
    refine path_append (fun c hc => htail.forall_mem c (List.mem_append_right _ hc)) ?_ ?_
    · exact hlast.of_append.of_append
    · exact hrest.mono fun c hc => by rw [isUrlChar, hc, Bool.or_true]
  have hreads : ReadsTarget (opening ++ (host ++ more) ++ (after ++ rest)) _ false :=
    .url hopening hlong hnext
  rw [hpath] at hreads
  simpa only [List.append_assoc] using hreads

/-! ### Before a link -/

/-- What follows `p` goes on neither with what parts a protocol from a host nor with a word that `p`
ends in. -/
structure Parts (p rest : List Char) : Prop where
  noMark : Stops (fun c => c == ':' || c == '/') rest
  noWord : EndsOutsideWord p ∨ Stops isWordChar rest

/-- A protocol that starts in `p` is over there, with what parts it from a host. -/
theorem Parts.prefix_of_isOpening {front p rest opening : List Char} (h : Parts (front ++ p) rest)
    (hne : p ≠ []) (hopening : IsOpening opening) (hs : opening <+: p ++ rest) : opening <+: p := by
  rcases List.prefix_or_prefix_of_prefix hs (List.prefix_append p rest) with hshort | ⟨more, hmore⟩
  · exact hshort
  · cases more with
    | nil => exact ⟨[], by rw [← hmore, List.append_nil, List.append_nil]⟩
    | cons d more =>
      -- the opening goes on into the rest, with a mark or with more of the protocol
      exfalso
      rw [← hmore, List.prefix_append_right_inj] at hs
      obtain ⟨later, rfl⟩ := hs
      obtain ⟨protocol, hprotocol, rfl⟩ := hopening
      have hmark : d ≠ ':' ∧ d ≠ '/' := by
        simpa using h.noMark d _ rfl
      rcases List.append_eq_append_iff.mp hmore with ⟨inner, rfl, hinner⟩ | ⟨inner, -, hinner⟩
      · cases inner with
        | nil => exact hmark.1 (List.cons.inj hinner).1
        | cons e inner =>
          have hwords : ∀ protocol ∈ protocols, protocol.all isWordChar = true := by
            decide
          have hall := List.all_eq_true.mp (hwords _ hprotocol)
          rcases h.noWord with hends | hstops
          · obtain ⟨most, c, rfl⟩ := (List.eq_nil_or_concat' p).resolve_left hne
            have hc := hall c (by simp)
            rw [hends (front ++ most) c (List.append_assoc ..).symm] at hc
            cases hc
          · have he := hall e (by simp)
            rw [← (List.cons.inj hinner).1, hstops d _ rfl] at he
            cases he
      · have hmem : d ∈ [':', '/', '/'] := by
          simp [hinner]
        simp [hmark.1, hmark.2] at hmem

/-- Nothing before a link is one, if it has neither targets nor parentheses that open. -/
theorem TargetFree.linkFree_of_parts {p rest : List Char} (h : TargetFree p) (hparen : '(' ∉ p)
    (hparts : Parts p rest) : LinkFree p rest := by
  rintro front after rfl hne
  have hfree : TargetFree after := h.of_infix (List.suffix_append front after).isInfix
  rw [Option.eq_none_iff_forall_ne_some]
  intro link hlink
  rw [link?_eq_some_iff] at hlink
  generalize hs : after ++ rest = s at hlink
  cases hlink with
  | bare hreads =>
    obtain ⟨start, hstart, hfront⟩ := hreads.exists_isStart
    have hprefix := hfront.trans hreads.isPrefix
    rw [← hs] at hprefix
    cases hstart with
    | @url opening host hopening _ =>
      have hopens := hparts.prefix_of_isOpening hne hopening ((List.prefix_append ..).trans hprefix)
      obtain ⟨protocol, -, rfl⟩ := hopening
      exact hfree.noUrl ((List.suffix_append ..).isInfix.trans hopens.isInfix)
    | localPath =>
      obtain ⟨c, after, rfl⟩ := List.exists_cons_of_ne_nil hne
      obtain ⟨rfl, hslash⟩ := List.cons_prefix_cons.mp hprefix
      cases after with
      | nil =>
        obtain ⟨later, rfl⟩ := hslash
        cases hparts.noMark '/' _ rfl
      | cons d after =>
        obtain ⟨rfl, -⟩ := List.cons_prefix_cons.mp hslash
        exact hfree.noLocal ⟨[], after, rfl⟩
  | titled =>
    obtain ⟨c, after, rfl⟩ := List.exists_cons_of_ne_nil hne
    obtain ⟨rfl, -⟩ := List.cons.inj hs
    exact hparen (by simp)

theorem Parts.append {p s : List Char} (h : Parts p s) (hne : s ≠ []) (rest : List Char) :
    Parts p (s ++ rest) :=
  ⟨h.noMark.append hne rest, h.noWord.imp_right fun hstops => hstops.append hne rest⟩

/-! ### Links in a line -/

/-- What is cut off all starts of a text in the same way is cut off a line with its code spans
too. -/
theorem pieces_append {s rest : List Char} {ps : List Piece} (hs : '\x60' ∉ s)
    (h : ∀ start, start <+: rest → textPieces 0 (s ++ start) = ps ++ textPieces 0 start) :
    pieces (s ++ rest) = ps ++ pieces rest := by
  cases spans rest with
  | text hcount =>
    have hall : (s ++ rest).count '\x60' ≤ 1 := by
      rwa [List.count_append, List.count_eq_zero_of_not_mem hs, Nat.zero_add]
    rw [pieces_of_count_le hall, pieces_of_count_le hcount, h rest (List.prefix_refl rest)]
  | @code text code rest htext hcode _ =>
    have hfront : '\x60' ∉ s ++ text := by
      simp [hs, htext]
    have hline : s ++ (text ++ '\x60' :: code ++ '\x60' :: rest) =
        s ++ text ++ '\x60' :: code ++ '\x60' :: rest := by
      simp only [List.append_assoc]
    rw [hline, pieces_code hfront hcode, pieces_code htext hcode,
      h text ⟨'\x60' :: code ++ '\x60' :: rest, by simp⟩, List.append_assoc]

/-- **A link parts a line in two** if what stands before it has no links and no code spans. -/
theorem emphasize_append_link {p q : List Char} {link : Link} (hfree : TargetFree p)
    (hparen : '(' ∉ p) (htick : '\x60' ∉ p ++ link.source) (hparts : Parts p link.source)
    (hpaired : Paired link.source) (hlast : (p ++ link.source).getLast? ≠ some '\n')
    (hq : Stops isUrlChar (Line.terminated q))
    (hreads : ∀ rest, Stops isUrlChar rest → ReadsLink (link.source ++ rest) link) :
    emphasize [] (p ++ link.source ++ q) = p ++ link.render ++ emphasize [] q := by
  obtain ⟨written, hwritten⟩ := exists_replaces [] p
  obtain rfl := hwritten.eq_of_nil
  obtain ⟨ps, hps, hcut⟩ := hwritten.exists_pieces
  have hne : link.source ≠ [] := source_ne_nil_of_read? (hreads [] fun c rest h => by cases h).read?
  have hpieces : pieces (written ++ link.source ++ Line.terminated q) =
      ps ++ [.link link] ++ pieces (Line.terminated q) := by
    refine pieces_append htick fun start hstart => ?_
    have hafter := hparts.append hne start
    have hlink : textPieces 0 (link.source ++ start) = .link link :: textPieces 0 start :=
      @textPieces_of_read? (.link link) _ (hreads start (hq.of_isPrefix hstart)).read? hpaired
    rw [List.append_assoc, hcut _ (hfree.linkFree_of_parts hparen hafter) hafter.noWord, hlink,
      List.append_assoc]
    rfl
  rw [emphasize, terminated_append hlast, hpieces, List.flatMap_append, List.flatMap_append, hps,
    List.flatMap_singleton, emphasize]
  rfl

/-! ### URLs in a line -/

theorem stops_terminated {q : List Char} (hq : ∀ c rest, q = c :: rest → c = ' ' ∨ c = '\t') :
    Stops isUrlChar (Line.terminated q) := by
  have hblank : Stops isUrlChar (q ++ ['\n']) := by
    cases q with
    | nil =>
      rintro c rest hcons
      cases hcons
      rfl
    | cons d q =>
      rintro c rest hcons
      cases hcons
      rcases hq _ _ rfl with rfl | rfl <;> rfl
  unfold Line.terminated
  split
  · exact hblank.of_isPrefix (List.prefix_append ..)
  · exact hblank

theorem anchorInSentence_eq_anchor {title url : List Char} (h : EndsOutsidePunctuation url) :
    anchorInSentence title url = anchor title url := by
  unfold anchorInSentence
  split
  · rename_i mark hmark
    obtain ⟨front, rfl⟩ := List.getLast?_eq_some_iff.mp hmark
    rw [h front mark rfl]
    rfl
  · rfl

theorem IsUrl.ne_nil {u : List Char} (h : IsUrl u) : u ≠ [] :=
  IsTarget.ne_nil (.inl h)

theorem IsUrl.getLast?_append_ne {u : List Char} (h : IsUrl u) (s : List Char) :
    (s ++ u).getLast? ≠ some '\n' := by
  obtain ⟨front, c, rfl⟩ := (List.eq_nil_or_concat' u).resolve_left h.ne_nil
  rw [← List.append_assoc, List.getLast?_concat, ne_eq, Option.some.injEq]
  exact ne_of_class (h.forall_mem c (by simp)) rfl

theorem IsUrl.notMem_backtick {u : List Char} (h : IsUrl u) : '\x60' ∉ u :=
  fun hmem => ne_of_class (h.forall_mem _ hmem) rfl rfl

theorem IsUrl.stops_mark {u : List Char} (h : IsUrl u) :
    Stops (fun c => c == ':' || c == '/') u := by
  obtain ⟨opening, host, path, ⟨protocol, hprotocol, rfl⟩, -, -, rfl⟩ := h
  have hheads : ∀ protocol ∈ protocols, protocol.head?.any
      (fun c => !(c == ':' || c == '/')) = true := by
    decide
  have hhead := hheads protocol hprotocol
  cases protocol with
  | nil => cases hhead
  | cons d protocol =>
    rintro c rest hcons
    rw [← (List.cons.inj hcons).1]
    simpa using hhead

section
variable {p u q : List Char} (hu : IsUrl u) (hpaired : Paired u) (hlast : EndsOutsidePunctuation u)
  (hq : Stops isUrlChar (Line.terminated q)) (hfree : TargetFree p) (hparen : '(' ∉ p)
  (htick : '\x60' ∉ p)
include hu hpaired hlast hq hfree hparen htick

theorem emphasize_append_bare (hword : EndsOutsideWord p) :
    emphasize [] (p ++ u ++ q) = p ++ anchor u u ++ emphasize [] q := by
  have hticks : '\x60' ∉ p ++ u := by
    simp [htick, hu.notMem_backtick]
  have hlink := @emphasize_append_link p q ⟨none, u, false⟩ hfree hparen hticks
    ⟨hu.stops_mark, .inl hword⟩ hpaired
    (hu.getLast?_append_ne p) hq fun rest hrest => .bare (hu.readsTarget hlast hrest)
  have hrender : Link.render ⟨none, u, false⟩ = anchor u u := anchorInSentence_eq_anchor hlast
  rwa [hrender] at hlink

theorem emphasize_append_titled {title : List Char} (hne : title ≠ []) (hopening : '(' ∉ title)
    (hclosing : ')' ∉ title) (hspan : '\x60' ∉ title) :
    emphasize [] (p ++ "(".toList ++ title ++ ") ".toList ++ u ++ q) =
      p ++ Link.render ⟨some ⟨title, ' '⟩, u, false⟩ ++ emphasize [] q := by
  have hplain : Paired title := paired_of_forall_ne fun c hc =>
    ⟨ne_of_mem_of_not_mem hc hopening, ne_of_mem_of_not_mem hc hclosing⟩
  have hsource : Link.source ⟨some ⟨title, ' '⟩, u, false⟩ = '(' :: title ++ [')'] ++ ' ' :: u := by
    simp [Link.source]
  have hticks : '\x60' ∉ p ++ Link.source ⟨some ⟨title, ' '⟩, u, false⟩ := by
    rw [hsource]
    simp [htick, hspan, hu.notMem_backtick]
  have hsourcePaired : Paired (Link.source ⟨some ⟨title, ' '⟩, u, false⟩) := by
    rw [hsource, paired_append_iff hplain.parenthesized]
    exact (paired_append_iff (a := [' ']) (paired_of_forall_ne (by simp)) u).mpr hpaired
  have hend : (p ++ Link.source ⟨some ⟨title, ' '⟩, u, false⟩).getLast? ≠ some '\n' := by
    rw [hsource, List.append_cons _ ' ' u, ← List.append_assoc]
    exact hu.getLast?_append_ne _
  have hparts : Parts p (Link.source ⟨some ⟨title, ' '⟩, u, false⟩) := by
    constructor
    · rintro c rest hcons
      cases hcons
      rfl
    · refine .inr ?_
      rintro c rest hcons
      cases hcons
      rfl
  have hreads (rest : List Char) (hrest : Stops isUrlChar rest) :
      ReadsLink (Link.source ⟨some ⟨title, ' '⟩, u, false⟩ ++ rest)
        ⟨some ⟨title, ' '⟩, u, false⟩ := by
    rw [Link.source, List.append_assoc]
    exact .titled ⟨hne, hclosing, rfl⟩ (hu.readsTarget hlast hrest)
  rw [← emphasize_append_link hfree hparen hticks hparts hsourcePaired hend hq hreads, hsource]
  congr 1
  simp

end

/-- **A URL that stands by itself is linked**, if its parentheses are paired, it ends in no
punctuation and a blank or nothing follows. The text before it is kept if it has no targets, no
opening parentheses and no backticks, and what follows is emphasized by itself. By itself means
outside a word, or after a title in parentheses and a space. -/
theorem emphasize_append_url {p u q : List Char} (hu : IsUrl u) (hpaired : Paired u)
    (hlast : EndsOutsidePunctuation u) (hq : ∀ c rest, q = c :: rest → c = ' ' ∨ c = '\t')
    (hfree : TargetFree p) (hparen : '(' ∉ p) (htick : '\x60' ∉ p) :
    (EndsOutsideWord p → emphasize [] (p ++ u ++ q) = p ++ anchor u u ++ emphasize [] q) ∧
      ∀ title, title ≠ [] → '(' ∉ title → ')' ∉ title → '\x60' ∉ title →
        (¬ "image/".toList <+: title →
          emphasize [] (p ++ "(".toList ++ title ++ ") ".toList ++ u ++ q) =
            p ++ anchor title u ++ emphasize [] q) ∧
        ∀ shown, title = "image/".toList ++ shown →
          emphasize [] (p ++ "(".toList ++ title ++ ") ".toList ++ u ++ q) =
            p ++ '!' :: anchor shown u ++ emphasize [] q := by
  have hblank := stops_terminated hq
  refine ⟨emphasize_append_bare hu hpaired hlast hblank hfree hparen htick,
    fun title hne hopening hclosing hspan => ?_⟩
  rw [emphasize_append_titled hu hpaired hlast hblank hfree hparen htick hne hopening
    hclosing hspan]
  constructor
  · intro hplain
    have hnone : after? "image/".toList title = none := by
      rw [Option.eq_none_iff_forall_ne_some]
      intro shown hshown
      exact hplain ⟨shown, (after?_eq_some_iff.mp hshown).symm⟩
    simp only [Link.render, Bool.false_and, Bool.false_eq_true, if_false, hnone,
      anchorInSentence_eq_anchor hlast]
  · rintro shown rfl
    simp only [Link.render, Bool.false_and, Bool.false_eq_true, if_false, after?_append,
      anchorInSentence_eq_anchor hlast]

/-- A URL with parentheses and punctuation inside, a title that holds markup, and a code span after
it. -/
theorem emphasize_append_url_titled :
    let u := "http://a.b:8/c,(d)'".toList
    let p := "x1 ".toList
    let q := "\t\x60http://e\x60".toList
    IsUrl u ∧ Paired u ∧ EndsOutsidePunctuation u ∧ TargetFree p ∧
      emphasize [] (p ++ u ++ q) = p ++ anchor u u ++ emphasize [] q ∧
      emphasize [] (p ++ "(".toList ++ "image/<i>".toList ++ ") ".toList ++ u ++ q) =
        p ++ '!' :: anchor "<i>".toList u ++ emphasize [] q := by
  intro u p q
  have hu : IsUrl u := by
    refine ⟨"http://".toList, "a.b".toList, ":8/c,(d)'".toList, ⟨"http".toList, by decide, rfl⟩,
      ⟨by decide, List.all_eq_true.mp (by decide)⟩, ?_, by decide⟩
    have hpath : ":8/c,(d)'".toList.all (fun c => isPathChar c || isPunctuation c) = true := by
      decide
    have hchars := fun c hc => Bool.or_eq_true_iff.mp (List.all_eq_true.mp hpath c hc)
    refine isPath_of_forall hchars fun front c h => ?_
    have hc : '\'' = c := by
      simpa using congrArg List.getLast? h
    rw [← hc]
    rfl
  have hpaired : Paired u := paired_iff.mpr (by decide)
  have hlast : EndsOutsidePunctuation u :=
    endsOutsidePunctuation_concat (s := "http://a.b:8/c,(d)".toList).mpr rfl
  have hfree : TargetFree p := ⟨by decide, by decide⟩
  have hword : EndsOutsideWord p := by
    intro front c h
    have hc : ' ' = c := by
      simpa [p] using congrArg List.getLast? h
    rw [← hc]
    rfl
  have hq : ∀ c rest, q = c :: rest → c = ' ' ∨ c = '\t' := by
    intro c rest h
    exact .inr (List.cons.inj h).1.symm
  obtain ⟨hbare, htitled⟩ := emphasize_append_url hu hpaired hlast hq hfree (by decide) (by decide)
  have himage := (htitled "image/<i>".toList (by decide) (by decide) (by decide) (by decide)).2
    "<i>".toList rfl
  exact ⟨hu, hpaired, hlast, hfree, hbare hword, himage⟩

end PackageReadme.Emphasis
