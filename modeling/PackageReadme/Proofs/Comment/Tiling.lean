import PackageReadme.Proofs.Comment.Reading
import PackageReadme.Proofs.Text.Indentation

/-! The blocks of a comment cover its lines.

`blocks_tile`: the spans of the blocks are consecutive, none is empty, and together they are all the
lines. What a block shows is what stands in its span, void lines around it aside: a paragraph shows
the lines themselves, code shows them without the indentation that they share, and a heading shows
its one line without the blanks around it. There are no blocks only if all lines are void. -/
namespace PackageReadme.Comment
open Text

/-! ### Spans -/

/-- Consecutive spans that are not empty, from one line up to another. -/
def Tiles : (start stop : Nat) → List Block → Prop
  | start, stop, [] => start = stop
  | start, stop, block :: rest =>
    block.start = start ∧ start < block.stop ∧ Tiles block.stop stop rest

/-- The lines without the void lines at their ends. -/
def content (ls : List Line) : List Line :=
  (ls.dropWhile Line.isVoid).rdropWhile Line.isVoid

namespace Block

/-- The lines of a comment that stand in the span of a block. -/
def region (block : Block) (ls : List Line) : List Line :=
  ls.extract block.start block.stop

/-- Whether a block shows lines as its kind demands. -/
def Shows (block : Block) (body : List Line) : Prop :=
  match block.kind with
  | .paragraph => block.lines = body ∧ ∀ line ∈ body, line.isVoid = false ∧ line.isIndented = false
  | .code _ => ∃ indent, IsSharedIndent indent body ∧
      block.lines = body.map fun line => if line.isVoid then line else line.drop indent.length
  | .heading => ∃ line, body = [line] ∧ block.lines = [trim line]

end Block

/-! ### Void lines around a body -/

theorem rdropWhile_append_of_pos {α : Type} {p : α → Bool} {a b : List α}
    (h : ∀ x ∈ b, p x = true) :
    (a ++ b).rdropWhile p = a.rdropWhile p := by
  have hrev : ∀ x ∈ b.reverse, p x = true := fun x hx => h x (List.mem_reverse.mp hx)
  rw [List.rdropWhile, List.reverse_append, List.dropWhile_append_of_pos hrev]
  rfl

/-- A body is what is left of itself with void lines around it. -/
theorem IsBody.content_eq {lead body tail : List Line} (hbody : IsBody body)
    (hlead : ∀ line ∈ lead, line.isVoid = true) (htail : ∀ line ∈ tail, line.isVoid = true) :
    content (lead ++ body ++ tail) = body := by
  obtain ⟨first, rest, hfirst, hsolid⟩ := hbody.first
  obtain ⟨front, last, hlast, hsolidLast⟩ := hbody.last
  have hstart : (body ++ tail).dropWhile Line.isVoid = body ++ tail := by
    rw [hfirst, List.cons_append]
    exact List.dropWhile_cons_of_neg (by rw [hsolid]; exact Bool.false_ne_true)
  rw [content, List.append_assoc, List.dropWhile_append_of_pos hlead, hstart,
    rdropWhile_append_of_pos htail, hlast]
  exact List.rdropWhile_concat_neg _ _ _ (by rw [hsolidLast]; exact Bool.false_ne_true)

theorem IsBody.length_pos {body : List Line} (h : IsBody body) : 0 < body.length := by
  obtain ⟨first, rest, hfirst, -⟩ := h.first
  rw [hfirst, List.length_cons]
  exact Nat.succ_pos _

/-- The lines that are not void. -/
def solid (ls : List Line) : List Line :=
  ls.filter fun line => !line.isVoid

theorem solid_eq_nil_iff {ls : List Line} : solid ls = [] ↔ ∀ line ∈ ls, line.isVoid = true := by
  simp [solid]

/-- Leaving out void lines at the ends loses no other line. -/
theorem solid_content (ls : List Line) : solid (content ls) = solid ls := by
  have hlead : solid (ls.takeWhile Line.isVoid) = [] :=
    solid_eq_nil_iff.mpr fun line h => List.mem_takeWhile_imp h
  have htail : solid ((ls.dropWhile Line.isVoid).rtakeWhile Line.isVoid) = [] :=
    solid_eq_nil_iff.mpr fun line h => List.mem_rtakeWhile_imp h
  calc solid (content ls)
      = solid (content ls) ++ solid ((ls.dropWhile Line.isVoid).rtakeWhile Line.isVoid) := by
        rw [htail, List.append_nil]
    _ = solid (ls.dropWhile Line.isVoid) := by
        rw [solid, solid, ← List.filter_append, content, List.rdropWhile_append_rtakeWhile, solid]
    _ = solid (ls.takeWhile Line.isVoid) ++ solid (ls.dropWhile Line.isVoid) := by
        rw [hlead, List.nil_append]
    _ = solid ls := by
        rw [solid, solid, ← List.filter_append, List.takeWhile_append_dropWhile, solid]

/-! ### What the rules leave -/

/-- Only void lines read as no blocks. -/
theorem Reads.isVoid_of_nil {detectDiff afterVoid afterHeading : Bool} {index : Nat}
    {ls : List Line} {bs : List Block} (h : Reads detectDiff afterVoid afterHeading index ls bs)
    (hbs : bs = []) :
    ∀ line ∈ ls, line.isVoid = true := by
  induction h with
  | done => intro line hline; cases hline
  | void hvoid _ ih =>
    intro line hline
    rcases List.mem_cons.mp hline with rfl | hline
    · exact hvoid
    · exact ih hbs line hline
  | code => cases hbs
  | heading => cases hbs
  | paragraph => cases hbs

theorem shows_code {language : Language} {body : List Line} (hbody : IsBody body)
    (start stop : Nat) :
    Block.Shows ⟨.code language, unindent body, start, stop⟩ body := by
  obtain ⟨first, rest, hfirst, hsolid⟩ := hbody.first
  exact ⟨sharedIndent body, isSharedIndent_sharedIndent ⟨first, by simp [hfirst], hsolid⟩, rfl⟩

theorem heading?_eq_some {line title : List Char} (h : heading? line = some title) :
    title = trim line := by
  simp only [heading?] at h
  split at h
  · exact (Option.some.inj h).symm
  · cases h

/-- The first block shows the first body among the lines, and the others are read from what follows
it. -/
theorem Reads.exists_body {detectDiff afterVoid afterHeading : Bool} {index : Nat} {ls : List Line}
    {blocks : List Block} (h : Reads detectDiff afterVoid afterHeading index ls blocks)
    {block : Block} {bs : List Block} (hbs : blocks = block :: bs) :
    ∃ gap body rest afterVoid' afterHeading', ls = gap ++ body ++ rest ∧
      (∀ line ∈ gap, line.isVoid = true) ∧ IsBody body ∧ block.start = index + gap.length ∧
      block.Shows body ∧
      Reads detectDiff afterVoid' afterHeading' (block.start + body.length) rest bs := by
  induction h with
  | done => cases hbs
  | @void _ _ index line rest _ hvoid _ ih =>
    obtain ⟨gap, body, after, v, h, rfl, hgap, hbody, hstart, hshows, hread⟩ := ih hbs
    refine ⟨line :: gap, body, after, v, h, rfl, fun l hl => ?_, hbody, ?_, hshows, hread⟩
    · rcases List.mem_cons.mp hl with rfl | hl
      · exact hvoid
      · exact hgap l hl
    · rw [hstart, List.length_cons]
      omega
  | @code _ _ index line more rest _ _ _ hbody _ hread _ =>
    cases hbs
    exact ⟨[], line :: more, rest, _, _, rfl, List.forall_mem_nil _, hbody, rfl,
      shows_code hbody .., hread⟩
  | @heading index line title gap next rest _ hline htitle hgap hnext hread _ =>
    cases hbs
    have hsolid := (goesOnWithParagraph_iff.mp hline).1
    refine ⟨[], [line], gap :: next :: rest, true, true, rfl, List.forall_mem_nil _,
      isBody_of_forall (by simpa using hsolid), rfl, ⟨line, rfl, ?_⟩, .void hgap hread⟩
    rw [heading?_eq_some htitle]
  | @paragraph _ _ index line more rest _ hbody _ _ hread _ =>
    cases hbs
    have htext := fun l hl => goesOnWithParagraph_iff.mp (hbody l hl)
    exact ⟨[], line :: more, rest, _, _, rfl, List.forall_mem_nil _,
      isBody_of_forall fun l hl => (htext l hl).1, rfl, ⟨rfl, htext⟩, hread⟩

/-! ### Stretching -/

/-- The blocks tile the lines from one on, and each shows what its span holds. -/
structure Covers (ls : List Line) (start : Nat) (bs : List Block) : Prop where
  tiles : Tiles start ls.length bs
  shows : ∀ block ∈ bs, block.Shows (content (block.region ls))

theorem extract_append_append {α : Type} (front body rest : List α) :
    (front ++ body ++ rest).extract front.length (front ++ body).length = body := by
  rw [List.extract_eq_take_drop, List.append_assoc, List.drop_left, List.length_append,
    Nat.add_sub_cancel_left, List.take_left]

/-- A block over the lines between `front` and `rest` shows the body among them, with blocks that
cover `rest` after it. -/
theorem Covers.cons {ls front gap body tail rest : List Line} {block : Block} {bs : List Block}
    {stop : Nat} (hls : ls = front ++ (gap ++ body ++ tail) ++ rest)
    (hgap : ∀ line ∈ gap, line.isVoid = true) (hbody : IsBody body)
    (htail : ∀ line ∈ tail, line.isVoid = true) (hshows : block.Shows body)
    (hstart : block.start = front.length) (hstop : stop = (front ++ (gap ++ body ++ tail)).length)
    (h : Covers ls stop bs) : Covers ls block.start ({ block with stop := stop } :: bs) where
  tiles := by
    refine ⟨rfl, ?_, h.tiles⟩
    have hpos := hbody.length_pos
    simp only [hstart, hstop, List.length_append]
    omega
  shows := by
    have hregion : Block.region { block with stop := stop } ls = gap ++ body ++ tail := by
      rw [Block.region, hstart, hstop, hls, extract_append_append]
    intro b hb
    rcases List.mem_cons.mp hb with rfl | hb
    · rw [hregion, hbody.content_eq hgap htail]
      exact hshows
    · exact h.shows b hb

/-- A block that starts where `front` ends, and the blocks that are read after its body, are
stretched over all the lines after `front`. -/
theorem covers_stretch {detectDiff afterVoid afterHeading : Bool} (block : Block) (bs : List Block)
    (front gap : List Line) {body rest : List Line} (hgap : ∀ line ∈ gap, line.isVoid = true)
    (hbody : IsBody body) (hshows : block.Shows body) (hstart : block.start = front.length)
    (hread : Reads detectDiff afterVoid afterHeading (front ++ gap ++ body).length rest bs)
    {ls : List Line} (hls : ls = front ++ gap ++ body ++ rest) :
    Covers ls block.start (stretch ls.length (block :: bs)) := by
  induction bs generalizing afterVoid afterHeading block front gap body rest with
  | nil =>
    -- no block is left, so only void lines are, and they go to this one
    have hall : ls = front ++ (gap ++ body ++ rest) ++ [] := by simp [hls]
    have hstop : ls.length = (front ++ (gap ++ body ++ rest)).length := by
      rw [hall, List.append_nil]
    rw [stretch]
    exact .cons hall hgap hbody (hread.isVoid_of_nil rfl) hshows hstart hstop
      ⟨rfl, List.forall_mem_nil _⟩
  | cons next bs ih =>
    -- the lines up to the next body are void, and they go to this block
    obtain ⟨tail, body', rest', v, h, rfl, htail, hbody', hnext, hshows', hread'⟩ :=
      hread.exists_body rfl
    have hall : ls = front ++ (gap ++ body ++ tail) ++ (body' ++ rest') := by simp [hls]
    have hstop : next.start = (front ++ (gap ++ body ++ tail)).length := by
      rw [hnext]
      simp only [List.length_append]
      omega
    have hlen : next.start + body'.length =
        (front ++ (gap ++ body ++ tail) ++ [] ++ body').length := by
      simp only [hstop, List.append_nil, List.length_append]
    rw [hlen] at hread'
    rw [stretch]
    exact .cons hall hgap hbody htail hshows hstart hstop
      (ih next _ [] (List.forall_mem_nil _) hbody' hshows' hstop hread' (by simp [hls]))

/-- Together, the spans of blocks that tile lines hold all of them. -/
theorem Tiles.flatMap_region {ls : List Line} {start : Nat} {bs : List Block}
    (h : Tiles start ls.length bs) : bs.flatMap (fun block => block.region ls) = ls.drop start := by
  induction bs generalizing start with
  | nil =>
    rw [Tiles] at h
    rw [h, List.drop_length]
    rfl
  | cons block rest ih =>
    obtain ⟨rfl, hspan, hrest⟩ := h
    rw [List.flatMap_cons, ih hrest, Block.region, List.extract_eq_take_drop]
    have hdrop : ls.drop block.stop = (ls.drop block.start).drop (block.stop - block.start) := by
      rw [List.drop_drop]
      congr 1
      omega
    rw [hdrop, List.take_append_drop]

/-! ### Blocks -/

/-- Either all lines are void and there are no blocks, or there are both. -/
theorem blocks_eq_nil_or_covers (text : List Char) (detectDiff : Bool) :
    (blocks text detectDiff = [] ∧ ∀ line ∈ unindent (lines text), line.isVoid = true) ∨
      (blocks text detectDiff ≠ [] ∧ (∃ line ∈ unindent (lines text), line.isVoid = false) ∧
        Covers (unindent (lines text)) 0 (blocks text detectDiff)) := by
  have hread := reads_scan detectDiff false false 0 (unindent (lines text))
  cases hscan : scan detectDiff 0 false false 0 (unindent (lines text)) with
  | nil =>
    refine .inl ⟨?_, hread.isVoid_of_nil hscan⟩
    simp only [blocks, hscan, tile]
  | cons block bs =>
    obtain ⟨gap, body, rest, v, h, hls, hgap, hbody, hstart, hshows, hread'⟩ :=
      hread.exists_body hscan
    have hlen : block.start + body.length = ([] ++ gap ++ body).length := by
      rw [hstart]
      simp
    rw [hlen] at hread'
    have hcovers := covers_stretch { block with start := 0 } bs [] gap hgap hbody
      hshows rfl hread' hls
    have hblocks : blocks text detectDiff =
        stretch (unindent (lines text)).length ({ block with start := 0 } :: bs) := by
      simp only [blocks, hscan, tile]
    rw [hblocks]
    obtain ⟨first, more, hfirst, hsolid⟩ := hbody.first
    refine .inr ⟨?_, ⟨first, by simp [hls, hfirst], hsolid⟩, hcovers⟩
    cases bs <;> simp [stretch]

theorem shows_of_mem_blocks {text : List Char} {detectDiff : Bool} {block : Block}
    (h : block ∈ blocks text detectDiff) :
    block.Shows (content (block.region (unindent (lines text)))) := by
  rcases blocks_eq_nil_or_covers text detectDiff with ⟨hnil, -⟩ | ⟨-, -, hcovers⟩
  · rw [hnil] at h
    cases h
  · exact hcovers.shows block h

/-- **The blocks of a comment are its lines**: there is none if all lines are void, and otherwise
their spans tile the lines, each block shows what stands in its span, and so every line that is not
void stands in one block, in order. -/
theorem blocks_tile (text : List Char) (detectDiff : Bool) :
    let ls := unindent (lines text)
    let bs := blocks text detectDiff
    (bs = [] ↔ ∀ line ∈ ls, line.isVoid = true) ∧
      (bs ≠ [] → Tiles 0 ls.length bs) ∧
      (∀ block ∈ bs, block.Shows (content (block.region ls))) ∧
      (bs.flatMap fun block => solid (content (block.region ls))) = solid ls := by
  intro ls bs
  rcases blocks_eq_nil_or_covers text detectDiff with ⟨hnil, hvoid⟩ | ⟨hne, hsolid, hcovers⟩
  · have hbs : bs = [] := hnil
    refine ⟨⟨fun _ => hvoid, fun _ => hbs⟩, fun h => absurd hbs h, fun b hb => ?_, ?_⟩
    · rw [hbs] at hb
      cases hb
    · rw [hbs, solid_eq_nil_iff.mpr hvoid]
      rfl
  · have hall : bs.flatMap (fun block => block.region ls) = ls := hcovers.tiles.flatMap_region
    refine ⟨⟨fun h => absurd h hne, fun hvoid => ?_⟩, fun _ => hcovers.tiles, hcovers.shows, ?_⟩
    · obtain ⟨line, hline, hfalse⟩ := hsolid
      rw [hvoid line hline] at hfalse
      cases hfalse
    · conv_rhs => rw [← hall, solid, List.filter_flatMap]
      simp only [solid_content]
      rfl

end PackageReadme.Comment
