import PackageReadme.Proofs.Comment.Tiling

/-! Where the headings of a comment stand.

A heading is one line of text with a void line and more text below it. Above it stands a void line
too, but code may lie in between: code does not cancel the void line before it. `Reads.stands`
follows that through the rules, with all lines that were read before in view, and `heading_stands`
says it of the blocks, whose spans reach further than their own lines. -/
namespace PackageReadme.Comment
open Text

/-! ### Above a heading -/

/-- The last of the lines that is not indented is void. -/
def EndsInVoid (ls : List Line) : Prop :=
  ∃ front gap code, ls = front ++ gap :: code ∧ gap.isVoid = true ∧
    ∀ line ∈ code, line.isIndented = true

theorem endsInVoid_concat (ls : List Line) {gap : Line} (h : gap.isVoid = true) :
    EndsInVoid (ls ++ [gap]) :=
  ⟨ls, gap, [], rfl, h, List.forall_mem_nil _⟩

theorem EndsInVoid.concat {ls : List Line} (h : EndsInVoid ls) {line : Line}
    (hline : goesOnWithCode line = true) :
    EndsInVoid (ls ++ [line]) := by
  by_cases hvoid : line.isVoid = true
  · exact endsInVoid_concat ls hvoid
  · have hindented : line.isIndented = true := by
      simpa [goesOnWithCode, hvoid] using hline
    obtain ⟨front, gap, code, rfl, hgap, hcode⟩ := h
    refine ⟨front, gap, code ++ [line], by simp, hgap, fun l hl => ?_⟩
    rcases List.mem_append.mp hl with hl | hl
    · exact hcode l hl
    · rw [List.mem_singleton.mp hl]
      exact hindented

theorem EndsInVoid.append {ls : List Line} (h : EndsInVoid ls) {code : List Line}
    (hcode : ∀ line ∈ code, goesOnWithCode line = true) : EndsInVoid (ls ++ code) := by
  induction code generalizing ls with
  | nil => rwa [List.append_nil]
  | cons line code ih =>
    rw [List.append_cons]
    exact ih (h.concat (hcode line (.head _))) fun l hl => hcode l (.tail _ hl)

/-! ### The place of a heading -/

/-- Line `i` stands where a heading may stand and passes as one. -/
structure Stands (ls : List Line) (i : Nat) (title : List Char) : Prop where
  /-- The line above is void, or else indented, and then the last line above that is not indented is
  void. -/
  above : ∃ gap, ∃ j < i, ls[j]? = some gap ∧ gap.isVoid = true ∧
    ∀ k, j < k → k < i → ∃ code, ls[k]? = some code ∧ code.isIndented = true
  own : ∃ line, ls[i]? = some line ∧ line.isVoid = false ∧ line.isIndented = false ∧
  heading? line = some title
  below : ∃ gap, ls[i + 1]? = some gap ∧ gap.isVoid = true
  text : ∃ next, ls[i + 2]? = some next ∧ next.isVoid = false ∧ next.isIndented = false

theorem EndsInVoid.stands {above rest : List Line} {line gap next : Line} {title : List Char}
    (h : EndsInVoid above) (hline : goesOnWithParagraph line = true)
    (htitle : heading? line = some title) (hgap : gap.isVoid = true)
    (hnext : goesOnWithParagraph next = true) :
    Stands (above ++ line :: gap :: next :: rest) above.length title where
  above := by
    obtain ⟨front, void, code, rfl, hvoid, hcode⟩ := h
    refine ⟨void, front.length, by simp, by simp, hvoid, fun k hlow hhigh => ?_⟩
    -- line `k` is one of the lines of code, which start right after the void line
    have hk : k - (front.length + 1) < code.length := by
      simp only [List.length_append, List.length_cons] at hhigh
      omega
    refine ⟨code[k - (front.length + 1)], ?_, hcode _ (List.getElem_mem hk)⟩
    rw [List.getElem?_append_left hhigh, List.getElem?_append_right (Nat.le_of_lt hlow)]
    rw [show k - front.length = k - (front.length + 1) + 1 by omega, List.getElem?_cons_succ]
    exact List.getElem?_eq_getElem hk
  own := by
    obtain ⟨hsolid, hflush⟩ := goesOnWithParagraph_iff.mp hline
    exact ⟨line, by simp, hsolid, hflush, htitle⟩
  below := ⟨gap, by simp, hgap⟩
  text := ⟨next, by simp, goesOnWithParagraph_iff.mp hnext⟩

/-- A heading that is read stands where a heading may stand, if a void line that is remembered is
there among the lines before. -/
theorem Reads.stands {detectDiff afterVoid afterHeading : Bool} {index : Nat} {above ls : List Line}
    {bs : List Block} (h : Reads detectDiff afterVoid afterHeading index ls bs)
    (hindex : index = above.length) (habove : afterVoid = true → EndsInVoid above) :
    ∀ block ∈ bs, block.kind = .heading →
      ∃ title, block.lines = [title] ∧ Stands (above ++ ls) block.start title := by
  induction h generalizing above with
  | done => exact List.forall_mem_nil _
  | @void _ _ _ line rest _ hvoid _ ih =>
    rw [List.append_cons]
    exact ih (by simp [hindex]) fun _ => endsInVoid_concat above hvoid
  | @code _ _ _ line more rest _ hindented hmore _ _ _ ih =>
    have hcode : ∀ l ∈ line :: more, goesOnWithCode l = true := by
      refine List.forall_mem_cons.mpr ⟨?_, hmore⟩
      rw [goesOnWithCode, hindented, Bool.or_true]
    rw [← List.append_assoc]
    refine List.forall_mem_cons.mpr ⟨fun hkind => absurd hkind (by simp), ?_⟩
    exact ih (by simp [hindex]) fun hafter => (habove hafter).append hcode
  | @heading _ line title gap next rest _ hline htitle hgap hnext _ ih =>
    refine List.forall_mem_cons.mpr ⟨fun _ => ⟨title, rfl, ?_⟩, ?_⟩
    · rw [hindex]
      exact (habove rfl).stands hline htitle hgap hnext
    · rw [List.append_cons, List.append_cons]
      exact ih (by simp [hindex]) fun _ => endsInVoid_concat _ hgap
  | @paragraph _ _ _ line more rest _ _ _ _ _ ih =>
    rw [← List.append_assoc]
    refine List.forall_mem_cons.mpr ⟨fun hkind => absurd hkind (by simp), ?_⟩
    exact ih (by simp [hindex]) fun hafter => absurd hafter (by simp)

/-! ### Own lines and whole spans -/

/-- A block over its own lines, within the same block over a whole span. -/
structure Block.Within (own wide : Block) : Prop where
  kind : wide.kind = own.kind
  lines : wide.lines = own.lines
  start : wide.start ≤ own.start
  stop : own.stop ≤ wide.stop

/-- The own lines of blocks lie in the lines that they are read from. -/
theorem Reads.inside {detectDiff afterVoid afterHeading : Bool} {index : Nat} {ls : List Line}
    {bs : List Block} (h : Reads detectDiff afterVoid afterHeading index ls bs) :
    ∀ block ∈ bs, index ≤ block.start ∧ block.start < block.stop ∧
      block.stop ≤ index + ls.length := by
  induction h with
  | done => exact List.forall_mem_nil _
  | void _ _ ih =>
    intro block hblock
    obtain ⟨hstart, hspan, hstop⟩ := ih block hblock
    rw [List.length_cons]
    omega
  | code _ _ _ _ _ ih =>
    refine List.forall_mem_cons.mpr ⟨by simp, fun block hblock => ?_⟩
    obtain ⟨hstart, hspan, hstop⟩ := ih block hblock
    rw [List.length_append]
    omega
  | heading _ _ _ _ _ ih =>
    refine List.forall_mem_cons.mpr ⟨by simp, fun block hblock => ?_⟩
    obtain ⟨hstart, hspan, hstop⟩ := ih block hblock
    simp only [List.length_cons] at hstop ⊢
    omega
  | paragraph _ _ _ _ ih =>
    refine List.forall_mem_cons.mpr ⟨by simp, fun block hblock => ?_⟩
    obtain ⟨hstart, hspan, hstop⟩ := ih block hblock
    rw [List.length_append]
    omega

/-- The own lines of a block lie before those of the blocks after it. -/
theorem Reads.pairwise {detectDiff afterVoid afterHeading : Bool} {index : Nat} {ls : List Line}
    {bs : List Block} (h : Reads detectDiff afterVoid afterHeading index ls bs) :
    bs.Pairwise fun a b => a.stop ≤ b.start := by
  induction h with
  | done => exact .nil
  | void _ _ ih => exact ih
  | code _ _ _ _ hread ih => exact .cons (fun next hnext => (hread.inside next hnext).1) ih
  | heading _ _ _ _ hread ih =>
    exact .cons (fun next hnext => Nat.le_trans (Nat.le_succ _) (hread.inside next hnext).1) ih
  | paragraph _ _ _ hread ih => exact .cons (fun next hnext => (hread.inside next hnext).1) ih

theorem exists_within_of_mem_stretch {count : Nat} {bs : List Block}
    (hpairwise : bs.Pairwise fun a b => a.stop ≤ b.start)
    (hcount : ∀ own ∈ bs, own.stop ≤ count) :
    ∀ wide ∈ stretch count bs, ∃ own ∈ bs, own.Within wide := by
  fun_induction stretch count bs with
  | case1 => exact List.forall_mem_nil _
  | case2 last =>
    intro wide hwide
    rw [List.mem_singleton.mp hwide]
    exact ⟨last, .head _, rfl, rfl, Nat.le_refl _, hcount last (.head _)⟩
  | case3 block next rest ih =>
    obtain ⟨hnext, hrest⟩ := List.pairwise_cons.mp hpairwise
    intro wide hwide
    rcases List.mem_cons.mp hwide with rfl | hwide
    · exact ⟨block, .head _, rfl, rfl, Nat.le_refl _, hnext next (.head _)⟩
    · obtain ⟨own, hown, hwithin⟩ := ih hrest (fun own hown => hcount own (.tail _ hown)) wide hwide
      exact ⟨own, .tail _ hown, hwithin⟩

/-- Every block of a comment was read from lines of its span. -/
theorem exists_within_of_mem_blocks {text : List Char} {detectDiff : Bool} {wide : Block}
    (h : wide ∈ blocks text detectDiff) :
    ∃ own ∈ scan detectDiff 0 false false 0 (unindent (lines text)), own.Within wide := by
  have hread := reads_scan detectDiff false false 0 (unindent (lines text))
  rw [blocks] at h
  generalize scan detectDiff 0 false false 0 (unindent (lines text)) = bs at h hread
  cases bs with
  | nil => cases h
  | cons first rest =>
    obtain ⟨hfirst, hrest⟩ := List.pairwise_cons.mp hread.pairwise
    have hcount : ∀ own ∈ first :: rest, own.stop ≤ (unindent (lines text)).length := by
      intro own hown
      have hstop := (hread.inside own hown).2.2
      rwa [Nat.zero_add] at hstop
    have hfromStart : ({ first with start := 0 } :: rest).Pairwise fun a b => a.stop ≤ b.start :=
      .cons hfirst hrest
    obtain ⟨own, hown, hwithin⟩ :=
      exists_within_of_mem_stretch hfromStart
        (List.forall_mem_cons.mpr (List.forall_mem_cons.mp hcount)) wide h
    -- the first block starts at the first line, whatever line it was read from
    rcases List.mem_cons.mp hown with rfl | hown
    · exact ⟨first, .head _, hwithin.kind, hwithin.lines,
        Nat.le_trans hwithin.start (Nat.zero_le _), hwithin.stop⟩
    · exact ⟨own, .tail _ hown, hwithin⟩

/-! ### The one line of a heading -/

/-- Of the lines from `start` to `stop`, line `i` is the only one that is not void. -/
def OnlySolid (ls : List Line) (start stop i : Nat) : Prop :=
  ∀ k line, start ≤ k → k < stop → ls[k]? = some line → line.isVoid = false → k = i

theorem eq_of_solid_eq_singleton {ls : List Line} {only a b : Line} (h : solid ls = [only])
    {i k : Nat} (hi : ls[i]? = some a) (ha : a.isVoid = false) (hk : ls[k]? = some b)
    (hb : b.isVoid = false) : i = k := by
  obtain ⟨front, back, rfl, hfront, -, hback⟩ := List.filter_eq_cons_iff.mp h
  rw [List.filter_eq_nil_iff] at hback
  -- every line but the one between `front` and `back` is void
  have hplace : ∀ (n : Nat) (line : Line), (front ++ only :: back)[n]? = some line →
      line.isVoid = false →
      n = front.length := by
    intro n line hline hsolid
    rcases Nat.lt_trichotomy n front.length with hn | hn | hn
    · rw [List.getElem?_append_left hn] at hline
      exact absurd (by simp [hsolid]) (hfront line (List.mem_of_getElem? hline))
    · exact hn
    · rw [List.getElem?_append_right (Nat.le_of_lt hn),
        show n - front.length = n - front.length - 1 + 1 by omega, List.getElem?_cons_succ] at hline
      exact absurd (by simp [hsolid]) (hback line (List.mem_of_getElem? hline))
  rw [hplace i a hi ha, hplace k b hk hb]

theorem getElem?_region {block : Block} (ls : List Line) {k : Nat} (hstart : block.start ≤ k)
    (hstop : k < block.stop) :
    (block.region ls)[k - block.start]? = ls[k]? := by
  rw [Block.region, List.extract_eq_take_drop, List.getElem?_take_of_lt (by omega),
    List.getElem?_drop, Nat.add_sub_cancel' hstart]

theorem onlySolid_of_shows {ls : List Line} {block : Block}
    (h : block.Shows (content (block.region ls))) (hkind : block.kind = .heading) {i : Nat}
    {line : Line} (hstart : block.start ≤ i) (hstop : i < block.stop) (hline : ls[i]? = some line)
    (hsolid : line.isVoid = false) : OnlySolid ls block.start block.stop i := by
  rw [Block.Shows, hkind] at h
  obtain ⟨only, hcontent, -⟩ := h
  rw [← getElem?_region ls hstart hstop] at hline
  have hregion : solid (block.region ls) = solid [only] := by
    rw [← solid_content, hcontent]
  have honly : solid (block.region ls) = [only] := by
    by_cases hvoid : only.isVoid = true
    · have hnil : solid (block.region ls) = [] := by
        rw [hregion, solid_eq_nil_iff]
        simpa using hvoid
      have htrue := solid_eq_nil_iff.mp hnil line (List.mem_of_getElem? hline)
      rw [hsolid] at htrue
      cases htrue
    · rw [hregion, solid, List.filter_singleton]
      simp [hvoid]
  intro k other hlow hhigh hother hsolid'
  rw [← getElem?_region ls hlow hhigh] at hother
  have hsame := eq_of_solid_eq_singleton honly hline hsolid hother hsolid'
  omega

/-! ### Headings -/

/-- **A heading stands between void lines**, but for code: it is the only line of its span that is
not void, and a void line and then text that is not indented stand below it. The line above is void
too, unless it is indented, and then the last line above that is not indented is void. -/
theorem heading_stands {text : List Char} {detectDiff : Bool} {block : Block}
    (hblock : block ∈ blocks text detectDiff) (hkind : block.kind = .heading) :
    ∃ i title, block.start ≤ i ∧ i < block.stop ∧
      OnlySolid (unindent (lines text)) block.start block.stop i ∧
      block.lines = [title] ∧ Stands (unindent (lines text)) i title := by
  obtain ⟨own, hown, hwithin⟩ := exists_within_of_mem_blocks hblock
  have hread := reads_scan detectDiff false false 0 (unindent (lines text))
  have hinside := hread.inside own hown
  have habove : false = true → EndsInVoid [] := fun h => absurd h (by simp)
  obtain ⟨title, hlines, hstands⟩ := hread.stands rfl habove own hown (hwithin.kind ▸ hkind)
  rw [List.nil_append] at hstands
  have hstop : own.start < block.stop := Nat.lt_of_lt_of_le hinside.2.1 hwithin.stop
  obtain ⟨line, hline, hsolid, -, -⟩ := hstands.own
  exact ⟨own.start, title, hwithin.start, hstop,
    onlySolid_of_shows (shows_of_mem_blocks hblock) hkind hwithin.start hstop hline hsolid,
    hwithin.lines.trans hlines, hstands⟩

/-- A heading that is the first block, so that its span starts above it. -/
theorem heading_stands_first :
    ⟨.heading, ["Title".toList], 0, 3⟩ ∈ blocks "\nTitle\n\nText\n".toList true ∧
      Stands (unindent (lines "\nTitle\n\nText\n".toList)) 1 "Title".toList := by
  have hblock : ⟨.heading, ["Title".toList], 0, 3⟩ ∈ blocks "\nTitle\n\nText\n".toList true := by
    decide
  obtain ⟨i, title, hstart, hstop, honly, hlines, hstands⟩ := heading_stands hblock rfl
  have hi : 1 = i := honly 1 "Title\n".toList (by decide) (by decide) (by decide) (by decide)
  have htitle : title = "Title".toList := (List.singleton_inj.mp hlines).symm
  subst hi htitle
  exact ⟨hblock, hstands⟩

/-- **Code above a heading**: the line right above this one is neither void nor missing, and it is a
heading. -/
theorem heading_below_code :
    ⟨.heading, ["Title".toList], 3, 5⟩ ∈ blocks "Text\n\n\tcode\nTitle\n\nText\n".toList true ∧
      (unindent (lines "Text\n\n\tcode\nTitle\n\nText\n".toList))[3]? = some "Title\n".toList ∧
      (unindent (lines "Text\n\n\tcode\nTitle\n\nText\n".toList))[2]? = some "\tcode\n".toList ∧
      Line.isVoid "\tcode\n".toList = false := by
  decide

end PackageReadme.Comment
