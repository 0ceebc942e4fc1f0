import PackageReadme.Proofs.Settings.Forms
import PackageReadme.Proofs.Settings.Variables

/-! The forms of values in variables, with lists and tables in one another.

`Spells` says which texts are values, and which stand between brackets or braces; `Breaks` says in
which texts reading breaks down. Only texts of the first kind are read, and reading breaks down only
in texts of the second (`sound_readValue`). Each text of the first kind is read to its end before
any text that may follow it (`Spells.reads`), and reading breaks down in each text of the second
(`Breaks.fails`). So the value of a variable is told from the form of its text: see
`value_of_scalarOf`, `exists_value_of_list` and `exists_value_of_table`, and
`exists_value_eq_error_iff` and `value_of_not_spells` for texts of no form. -/
namespace PackageReadme.Environment
open Text

/-! ### Values -/

/-- What a text is for. -/
inductive Part where
  | value
  | items
  | members

/-- The texts of values, and what lists and tables have between their brackets and braces. -/
inductive Spells : Part → List Char → Prop
  | scalar {before text after : List Char} {value : Scalar} :
    Gap before → ScalarOf text value → Gap after →
    Spells .value (before ++ text ++ after)
  | list {before items after : List Char} : Gap before → Spells .items items → Gap after →
    Spells .value (before ++ '[' :: items ++ ']' :: after)
  | table {before members after : List Char} : Gap before → Spells .members members → Gap after →
    Spells .value (before ++ '\x7b' :: members ++ '\x7d' :: after)
  | noItems : Spells .items []
  | lastItem {item : List Char} : Spells .value item → Spells .items item
  | item {item rest : List Char} :
    Spells .value item → Spells .items rest → Spells .items (item ++ ',' :: rest)
  | noMembers : Spells .members []
  | lastMember {label value : List Char} : IsLabel label → Spells .value value →
    Spells .members (label ++ '=' :: value)
  | member {label value rest : List Char} :
    IsLabel label → Spells .value value → Spells .members rest →
    Spells .members (label ++ '=' :: value ++ ',' :: rest)

/-- A text in quotes whose kept part ends inside a character, and blanks before it. -/
def StartsBroken (s : List Char) : Prop :=
  ∃ before part broken rest, Gap before ∧ Quotable part ∧ unescape part = .error (.broken broken) ∧
    s = before ++ '"' :: part ++ '"' :: rest

/-- The texts that reading breaks down in, after what could be read. -/
inductive Breaks : Part → List Char → Prop
  | text {s : List Char} : StartsBroken s → Breaks .value s
  | list {before rest : List Char} :
    Gap before → Breaks .items rest → Breaks .value (before ++ '[' :: rest)
  | table {before rest : List Char} :
    Gap before → Breaks .members rest → Breaks .value (before ++ '\x7b' :: rest)
  | inItem {item : List Char} : Breaks .value item → Breaks .items item
  | afterItem {item rest : List Char} :
    Spells .value item → Breaks .items rest → Breaks .items (item ++ ',' :: rest)
  | inName {s : List Char} : StartsBroken s → Breaks .members s
  | inMember {label value : List Char} :
    IsLabel label → Breaks .value value → Breaks .members (label ++ '=' :: value)
  | afterMember {label value rest : List Char} :
    IsLabel label → Spells .value value → Breaks .members rest →
    Breaks .members (label ++ '=' :: value ++ ',' :: rest)

/-! ### What is read is of these forms -/

theorem readText_eq_broken {s : List Char} {broken : BrokenSlice}
    (h : readText s = .error (.broken broken)) :
    ∃ part rest, Quotable part ∧ unescape part = .error (.broken broken) ∧
      s = part ++ '"' :: rest := by
  rw [readText] at h
  split at h
  · cases h
  · rename_i part rest hpart
    obtain ⟨hquotable, rfl⟩ := quotedPart?_eq_some_iff.mp hpart
    exact ⟨part, rest, hquotable, map_eq_error_iff.mp h, rfl⟩

theorem startsBroken_of_readText {s inner : List Char} {broken : BrokenSlice}
    (hs : skipGap s = '"' :: inner) (h : readText inner = .error (.broken broken)) :
    StartsBroken s := by
  obtain ⟨part, rest, hquotable, htext, rfl⟩ := readText_eq_broken h
  obtain ⟨before, hbefore, hsplit, -⟩ := exists_gap s
  refine ⟨before, part, broken, rest, hbefore, hquotable, htext, ?_⟩
  rw [hsplit, hs]
  simp

theorem startsBroken_of_readNamed {s : List Char} {broken : BrokenSlice}
    (h : readNamed s = .error (.broken broken)) : StartsBroken s := by
  unfold readNamed at h
  split at h
  · rename_i misread hname
    cases h
    unfold readName at hname
    split at hname
    · rename_i inner hs
      exact startsBroken_of_readText hs hname
    · simp only at hname
      split at hname <;> cases hname
  · split at h <;> cases h

theorem startsBroken_of_readScalar {s : List Char} {broken : BrokenSlice}
    (h : readScalar (skipGap s) = .error (.broken broken)) : StartsBroken s := by
  unfold readScalar at h
  split at h
  · cases h
  · cases h
  · rename_i inner hs _ _
    exact startsBroken_of_readText hs (map_eq_error_iff.mp h)
  · cases h
  · cases h
  · cases h

/-- A reader that reads only what is of the form of a value, and breaks down only in a text of that
form. -/
structure Sound (read : ValueReader) : Prop where
  spells {s rest : List Char} {setting : Setting} : read s = .ok (setting, rest) →
    ∃ text, Spells .value text ∧ s = text ++ rest
  breaks {s : List Char} {broken : BrokenSlice} : read s = .error (.broken broken) → Breaks .value s

variable {read : ValueReader}

theorem Sound.spells_items (hread : Sound read) {s rest : List Char} {items : List Setting}
    (h : readItems read s = .ok (items, rest)) :
    ∃ text, Spells .items text ∧ s = text ++ ']' :: rest := by
  fun_induction readItems read s generalizing items with
  | case1 rest =>
    cases h
    exact ⟨[], .noItems, rfl⟩
  | case2 => cases h
  | case3 s _ item after hitem _ ih =>
    obtain ⟨text, htext, rfl⟩ := hread.spells hitem
    obtain ⟨found, hrest, heq⟩ := map_eq_ok_iff.mp h
    cases heq
    obtain ⟨others, hothers, rfl⟩ := ih hrest
    exact ⟨text ++ ',' :: others, .item htext hothers, by simp⟩
  | case4 => cases h
  | case5 s _ item after hitem =>
    cases h
    obtain ⟨text, htext, hs⟩ := hread.spells hitem
    exact ⟨text, .lastItem htext, hs⟩
  | case6 => cases h

theorem Sound.breaks_items (hread : Sound read) {s : List Char} {broken : BrokenSlice}
    (h : readItems read s = .error (.broken broken)) : Breaks .items s := by
  fun_induction readItems read s with
  | case1 => cases h
  | case2 s _ misread hitem =>
    cases h
    exact .inItem (hread.breaks hitem)
  | case3 s _ item after hitem _ ih =>
    obtain ⟨text, htext, rfl⟩ := hread.spells hitem
    exact .afterItem htext (ih (map_eq_error_iff.mp h))
  | case4 => cases h
  | case5 => cases h
  | case6 => cases h

theorem Sound.spells_members (hread : Sound read) {before members : Keyed Setting}
    {s rest : List Char} (h : readMembers read before s = .ok (members, rest)) :
    ∃ text, Spells .members text ∧ s = text ++ '\x7d' :: rest := by
  fun_induction readMembers read before s with
  | case1 before rest =>
    cases h
    exact ⟨[], .noMembers, rfl⟩
  | case2 => cases h
  | case3 => cases h
  | case4 before s _ name value hname item after hitem _ ih =>
    obtain ⟨label, hlabel, rfl⟩ := isLabel_of_readNamed hname
    obtain ⟨text, htext, rfl⟩ := hread.spells hitem
    obtain ⟨others, hothers, rfl⟩ := ih h
    exact ⟨label ++ '=' :: text ++ ',' :: others, .member hlabel htext hothers, by simp⟩
  | case5 => cases h
  | case6 before s _ name value hname item after hitem =>
    cases h
    obtain ⟨label, hlabel, rfl⟩ := isLabel_of_readNamed hname
    obtain ⟨text, htext, rfl⟩ := hread.spells hitem
    exact ⟨label ++ '=' :: text, .lastMember hlabel htext, by simp⟩
  | case7 => cases h

theorem Sound.breaks_members (hread : Sound read) {before : Keyed Setting} {s : List Char}
    {broken : BrokenSlice} (h : readMembers read before s = .error (.broken broken)) :
    Breaks .members s := by
  fun_induction readMembers read before s with
  | case1 => cases h
  | case2 before s _ misread hname =>
    cases h
    exact .inName (startsBroken_of_readNamed hname)
  | case3 before s _ name value hname misread hitem =>
    cases h
    obtain ⟨label, hlabel, rfl⟩ := isLabel_of_readNamed hname
    exact .inMember hlabel (hread.breaks hitem)
  | case4 before s _ name value hname item after hitem _ ih =>
    obtain ⟨label, hlabel, rfl⟩ := isLabel_of_readNamed hname
    obtain ⟨text, htext, rfl⟩ := hread.spells hitem
    have hbreaks := Breaks.afterMember hlabel htext (ih h)
    simpa using hbreaks
  | case5 => cases h
  | case6 => cases h
  | case7 => cases h

theorem spells_of_readScalar {s rest : List Char} {setting : Setting}
    (h : ((readScalar (skipGap s)).map fun (scalar, rest) =>
      (Setting.scalar .environment scalar, skipGap rest)) =
      .ok (setting, rest)) : ∃ text, Spells .value text ∧ s = text ++ rest := by
  obtain ⟨⟨scalar, tail⟩, hread, heq⟩ := map_eq_ok_iff.mp h
  cases heq
  obtain ⟨before, hbefore, hs, hstops⟩ := exists_gap s
  obtain ⟨text, htext, hsplit⟩ := scalarOf_of_readScalar hstops hread
  obtain ⟨after, hafter, htail, -⟩ := exists_gap tail
  refine ⟨before ++ text ++ after, .scalar hbefore htext hafter, ?_⟩
  rw [hs, hsplit, List.append_assoc, List.append_assoc, ← htail]

/-- **Only values are read, and reading breaks down only in broken texts**, at any depth. -/
theorem sound_readValue (depth : Nat) : Sound (readValue depth) := by
  induction depth with
  | zero =>
    exact ⟨spells_of_readScalar,
      fun h => .text (startsBroken_of_readScalar (map_eq_error_iff.mp h))⟩
  | succ depth ih =>
    constructor
    · intro s rest setting h
      obtain ⟨before, hbefore, hs, -⟩ := exists_gap s
      unfold readValue at h
      split at h
      · rename_i inner hskip
        obtain ⟨⟨items, tail⟩, hitems, heq⟩ := map_eq_ok_iff.mp h
        cases heq
        obtain ⟨text, htext, rfl⟩ := ih.spells_items hitems
        obtain ⟨after, hafter, htail, -⟩ := exists_gap tail
        refine ⟨_, .list hbefore htext hafter, ?_⟩
        rw [hs, hskip]
        simpa using htail
      · rename_i inner hskip
        obtain ⟨⟨items, tail⟩, hitems, heq⟩ := map_eq_ok_iff.mp h
        cases heq
        obtain ⟨text, htext, rfl⟩ := ih.spells_members hitems
        obtain ⟨after, hafter, htail, -⟩ := exists_gap tail
        refine ⟨_, .table hbefore htext hafter, ?_⟩
        rw [hs, hskip]
        simpa using htail
      · exact spells_of_readScalar h
    · intro s broken h
      obtain ⟨before, hbefore, hs, -⟩ := exists_gap s
      unfold readValue at h
      split at h
      · rename_i inner hskip
        rw [hs, hskip]
        exact .list hbefore (ih.breaks_items (map_eq_error_iff.mp h))
      · rename_i inner hskip
        rw [hs, hskip]
        exact .table hbefore (ih.breaks_members (map_eq_error_iff.mp h))
      · exact .text (startsBroken_of_readScalar (map_eq_error_iff.mp h))

/-! ### What is of these forms is read -/

theorem readValue_scalar {s : List Char} (hs : Stops (fun c => c == '[' || c == '\x7b') (skipGap s))
    (depth : Nat) :
    readValue depth s =
      (readScalar (skipGap s)).map fun (scalar, rest) =>
        (.scalar .environment scalar, skipGap rest) := by
  cases depth with
  | zero => rfl
  | succ depth =>
    unfold readValue
    split
    · rename_i heq
      cases hs _ _ heq
    · rename_i heq
      cases hs _ _ heq
    · rfl

theorem readValue_list {before : List Char} (hbefore : Gap before) (depth : Nat)
    (rest : List Char) :
    readValue (depth + 1) (before ++ '[' :: rest) =
      (readItems (readValue depth) rest).map fun (items, rest) =>
        (.list .environment items, skipGap rest) := by
  have hskip : skipGap (before ++ '[' :: rest) = '[' :: rest :=
    skipGap_append hbefore (stops_cons rfl)
  simp only [readValue, hskip]

theorem readValue_table {before : List Char} (hbefore : Gap before) (depth : Nat)
    (rest : List Char) :
    readValue (depth + 1) (before ++ '\x7b' :: rest) =
      (readMembers (readValue depth) [] rest).map fun (members, rest) =>
        (.table .environment members, skipGap rest) := by
  have hskip : skipGap (before ++ '\x7b' :: rest) = '\x7b' :: rest :=
    skipGap_append hbefore (stops_cons rfl)
  simp only [readValue, hskip]

theorem ScalarOf.stops {text : List Char} {value : Scalar} (h : ScalarOf text value) :
    Stops (fun c => isGap c || !isBare c) text := by
  cases h with
  | yes => exact stops_cons (by decide)
  | no => exact stops_cons (by decide)
  | quoted hquoted =>
    cases hquoted
    exact stops_cons (by decide)
  | character => exact stops_cons (by decide)
  | bare hbare =>
    intro c rest hcons
    simp [hbare.noGap c rest hcons, hbare.chars c (hcons ▸ List.mem_cons_self ..)]

/-- A value without parts is read with the blanks around it. -/
theorem ScalarOf.readValue {before text after rest : List Char} {value : Scalar}
    (h : ScalarOf text value) (hbefore : Gap before) (hafter : Gap after) (hrest : Ends rest)
    (depth : Nat) :
    readValue depth (before ++ text ++ after ++ rest) = .ok (.scalar .environment value, rest) := by
  have hskip : ∃ gap, Gap gap ∧
      skipGap (before ++ text ++ after ++ rest) = text ++ (gap ++ rest) := by
    by_cases hnil : text = []
    · refine ⟨[], gap_nil, ?_⟩
      rw [hnil, List.append_nil]
      exact skipGap_append (List.forall_mem_append.mpr ⟨hbefore, hafter⟩) (hrest.stops (by decide))
    · refine ⟨after, hafter, ?_⟩
      rw [List.append_assoc, List.append_assoc]
      exact skipGap_append hbefore ((h.stops.mono (by simp +contextual)).append hnil _)
  obtain ⟨gap, hgap, hskip⟩ := hskip
  obtain ⟨tail, hread, htail⟩ := h.exists_readScalar hgap hrest
  have hopen : Stops (fun c => c == '[' || c == '\x7b') (text ++ (gap ++ rest)) := by
    refine (h.stops.mono ?_).append_stops
      ((hgap.stops (by decide)).append_stops (hrest.stops (by decide)))
    intro c hc
    rcases Bool.or_eq_true_iff.mp hc with hc | hc <;> rw [beq_iff_eq.mp hc] <;> decide
  rw [readValue_scalar (hskip ▸ hopen), hskip, hread]
  exact congrArg (fun rest => Except.ok (Setting.scalar .environment value, rest)) htail

/-- The first character of a value closes nothing. -/
theorem Spells.stops {s : List Char} (h : Spells .value s) : Stops (· == ']') s := by
  cases h with
  | scalar hbefore htext hafter =>
    refine ((hbefore.stops (by decide)).append_stops (htext.stops.mono ?_)).append_stops
      (hafter.stops (by decide))
    intro c hc
    rw [beq_iff_eq.mp hc]
    decide
  | list hbefore _ _ =>
    rw [List.append_assoc]
    exact (hbefore.stops (by decide)).append_stops (stops_cons rfl)
  | table hbefore _ _ =>
    rw [List.append_assoc]
    exact (hbefore.stops (by decide)).append_stops (stops_cons rfl)

theorem IsLabel.stops {label : List Char} (h : IsLabel label) (rest : List Char) :
    Stops (· == '\x7d') (label ++ '=' :: rest) := by
  obtain ⟨before, name, after, hbefore, hname, hafter, rfl⟩ := h
  refine (((hbefore.stops (by decide)).append_stops (hname.stops ?_)).append_stops
    (hafter.stops (by decide))).append_stops (stops_cons rfl)
  intro c hc
  rw [beq_iff_eq.mp hc]
  decide

section
variable {s rest value : List Char} {item : Setting} {name : String} {before : Keyed Setting}
  {misread : Misread}

theorem readItems_next (hs : Stops (· == ']') s) (h : read s = .ok (item, ',' :: rest))
    (hlen : rest.length < s.length) :
    readItems read s = (readItems read rest).map fun (items, rest) => (item :: items, rest) := by
  rw [readItems.eq_def]
  split
  · cases hs _ _ rfl
  · simp only [h, if_pos hlen]

theorem readItems_last (hs : Stops (· == ']') s) (h : read s = .ok (item, ']' :: rest)) :
    readItems read s = .ok ([item], rest) := by
  rw [readItems.eq_def]
  split
  · cases hs _ _ rfl
  · simp only [h]

theorem readItems_error (hs : Stops (· == ']') s) (h : read s = .error misread) :
    readItems read s = .error misread := by
  rw [readItems.eq_def]
  split
  · cases hs _ _ rfl
  · simp only [h]

theorem readMembers_next (hs : Stops (· == '\x7d') s) (hname : readNamed s = .ok (name, value))
    (h : read value = .ok (item, ',' :: rest)) (hlen : rest.length < s.length) :
    readMembers read before s = readMembers read (Keyed.insert name item before) rest := by
  rw [readMembers.eq_def]
  split
  · cases hs _ _ rfl
  · simp only [hname, h, if_pos hlen]

theorem readMembers_last (hs : Stops (· == '\x7d') s) (hname : readNamed s = .ok (name, value))
    (h : read value = .ok (item, '\x7d' :: rest)) :
    readMembers read before s = .ok (Keyed.insert name item before, rest) := by
  rw [readMembers.eq_def]
  split
  · cases hs _ _ rfl
  · simp only [hname, h]

theorem readMembers_error (hs : Stops (· == '\x7d') s) (hname : readNamed s = .ok (name, value))
    (h : read value = .error misread) : readMembers read before s = .error misread := by
  rw [readMembers.eq_def]
  split
  · cases hs _ _ rfl
  · simp only [hname, h]

theorem readMembers_unnamed (hs : Stops (· == '\x7d') s) (hname : readNamed s = .error misread) :
    readMembers read before s = .error misread := by
  rw [readMembers.eq_def]
  split
  · cases hs _ _ rfl
  · simp only [hname]

end

/-- At most so many lists and tables deep, a text is read to its end before any text that may follow
it. -/
def Part.Reads (depth : Nat) (s : List Char) : Part → Prop
  | .value => ∀ rest, Ends rest → ∃ setting, readValue depth (s ++ rest) = .ok (setting, rest)
  | .items => ∀ rest, ∃ items, readItems (readValue depth) (s ++ ']' :: rest) = .ok (items, rest)
  | .members => ∀ before rest, ∃ members,
      readMembers (readValue depth) before (s ++ '\x7d' :: rest) = .ok (members, rest)

theorem ends_cons {c : Char} {rest : List Char} (h : c ∈ [',', ']', '\x7d']) :
    Ends (c :: rest) := by
  intro d after hcons
  rwa [← (List.cons.inj hcons).1]

/-- **What is of the form of a value is read**, up to any text that may follow it. The induction is
on the form, and a text needs no more depth than it is long. -/
theorem Spells.reads {part : Part} {s : List Char} (h : Spells part s) :
    ∀ depth, s.length ≤ depth → part.Reads depth s := by
  induction h with
  | scalar hbefore htext hafter =>
    exact fun depth _ rest hrest => ⟨_, htext.readValue hbefore hafter hrest depth⟩
  | @list before items after hbefore hitems hafter ih =>
    intro depth hdepth rest hrest
    have hlen : before.length + items.length + after.length + 2 ≤ depth := by simp at hdepth; omega
    obtain ⟨depth, rfl⟩ : ∃ d, depth = d + 1 := ⟨depth - 1, by omega⟩
    obtain ⟨read, hread⟩ := ih depth (by omega) (after ++ rest)
    refine ⟨.list .environment read, ?_⟩
    have hassoc : before ++ '[' :: items ++ ']' :: after ++ rest =
        before ++ '[' :: (items ++ ']' :: (after ++ rest)) := by
      simp
    rw [hassoc, readValue_list hbefore, hread]
    simp [Except.map, skipGap_append hafter (hrest.stops (by decide))]
  | @table before members after hbefore hmembers hafter ih =>
    intro depth hdepth rest hrest
    have hlen : before.length + members.length + after.length + 2 ≤ depth := by
      simp at hdepth; omega
    obtain ⟨depth, rfl⟩ : ∃ d, depth = d + 1 := ⟨depth - 1, by omega⟩
    obtain ⟨read, hread⟩ := ih depth (by omega) [] (after ++ rest)
    refine ⟨.table .environment read, ?_⟩
    have hassoc : before ++ '\x7b' :: members ++ '\x7d' :: after ++ rest =
        before ++ '\x7b' :: (members ++ '\x7d' :: (after ++ rest)) := by
      simp
    rw [hassoc, readValue_table hbefore, hread]
    simp [Except.map, skipGap_append hafter (hrest.stops (by decide))]
  | noItems => exact fun _ _ rest => ⟨[], by simp [readItems]⟩
  | @lastItem item hitem ih =>
    intro depth hdepth rest
    -- the bracket after an empty item ends the list before the item is read
    by_cases hnil : item = []
    · exact ⟨[], by simp [hnil, readItems]⟩
    · obtain ⟨setting, hread⟩ := ih depth hdepth (']' :: rest) (ends_cons (by decide))
      exact ⟨[setting], readItems_last (hitem.stops.append hnil _) hread⟩
  | @item item others hitem hothers ihitem ihothers =>
    intro depth hdepth rest
    have hlen : item.length + others.length + 1 ≤ depth := by simp at hdepth; omega
    obtain ⟨setting, hread⟩ :=
      ihitem depth (by omega) (',' :: (others ++ ']' :: rest)) (ends_cons (by decide))
    obtain ⟨settings, hreads⟩ := ihothers depth (by omega) rest
    refine ⟨setting :: settings, ?_⟩
    rw [List.append_assoc, List.cons_append,
      readItems_next (hitem.stops.append_stops (stops_cons rfl)) hread (by simp; omega), hreads]
    rfl
  | noMembers => exact fun _ _ before rest => ⟨before, by simp [readMembers]⟩
  | @lastMember label value hlabel hvalue ih =>
    intro depth hdepth before rest
    have hlen : label.length + value.length + 1 ≤ depth := by simp at hdepth; omega
    obtain ⟨name, hname⟩ := hlabel.exists_readNamed (value ++ '\x7d' :: rest)
    obtain ⟨setting, hread⟩ := ih depth (by omega) ('\x7d' :: rest) (ends_cons (by decide))
    refine ⟨Keyed.insert name setting before, ?_⟩
    rw [List.append_assoc, List.cons_append, readMembers_last (hlabel.stops _) hname hread]
  | @member label value others hlabel hvalue hothers ihvalue ihothers =>
    intro depth hdepth before rest
    have hlen : label.length + value.length + others.length + 2 ≤ depth := by simp at hdepth; omega
    obtain ⟨name, hname⟩ := hlabel.exists_readNamed (value ++ ',' :: (others ++ '\x7d' :: rest))
    obtain ⟨setting, hread⟩ :=
      ihvalue depth (by omega) (',' :: (others ++ '\x7d' :: rest)) (ends_cons (by decide))
    obtain ⟨settings, hreads⟩ := ihothers depth (by omega) (Keyed.insert name setting before) rest
    refine ⟨settings, ?_⟩
    have hassoc : label ++ '=' :: value ++ ',' :: others ++ '\x7d' :: rest =
        label ++ '=' :: (value ++ ',' :: (others ++ '\x7d' :: rest)) := by
      simp
    rw [hassoc, readMembers_next (hlabel.stops _) hname hread (by simp; omega), hreads]

theorem StartsBroken.stops {p : Char → Bool} {s : List Char} (h : StartsBroken s)
    (hp : ['"', ' ', '\t', '\n', '\x0c', '\r'].all (fun c => !p c) = true) : Stops p s := by
  obtain ⟨before, part, broken, rest, hbefore, -, -, rfl⟩ := h
  rw [List.all_cons, Bool.and_eq_true, Bool.not_eq_true'] at hp
  rw [List.append_assoc]
  exact (hbefore.stops hp.2).append_stops (stops_cons hp.1)

theorem StartsBroken.exists_readText {s : List Char} (h : StartsBroken s) :
    ∃ inner broken, skipGap s = '"' :: inner ∧ readText inner = .error (.broken broken) := by
  obtain ⟨before, part, broken, rest, hbefore, hpart, htext, rfl⟩ := h
  refine ⟨part ++ '"' :: rest, broken, ?_, ?_⟩
  · rw [List.append_assoc]
    exact skipGap_append hbefore (stops_cons rfl)
  · rw [readText, quotedPart?_eq_some_iff.mpr ⟨hpart, rfl⟩]
    exact map_eq_error_iff.mpr htext

theorem Breaks.stops {s : List Char} (h : Breaks .value s) : Stops (· == ']') s := by
  cases h with
  | text hbroken => exact hbroken.stops (by decide)
  | list hbefore _ => exact (hbefore.stops (by decide)).append_stops (stops_cons rfl)
  | table hbefore _ => exact (hbefore.stops (by decide)).append_stops (stops_cons rfl)

/-- At most so many lists and tables deep, reading a text breaks down. -/
def Part.Fails (depth : Nat) (s : List Char) : Part → Prop
  | .value => ∃ broken, readValue depth s = .error (.broken broken)
  | .items => ∃ broken, readItems (readValue depth) s = .error (.broken broken)
  | .members => ∀ before, ∃ broken, readMembers (readValue depth) before s = .error (.broken broken)

/-- **Reading breaks down in every text that is broken**, after what can be read before. -/
theorem Breaks.fails {part : Part} {s : List Char} (h : Breaks part s) :
    ∀ depth, s.length ≤ depth → part.Fails depth s := by
  induction h with
  | text hbroken =>
    intro depth _
    obtain ⟨inner, broken, hskip, htext⟩ := hbroken.exists_readText
    refine ⟨broken, ?_⟩
    rw [readValue_scalar (hskip ▸ stops_cons rfl), hskip, readScalar_quote]
    exact map_eq_error_iff.mpr (map_eq_error_iff.mpr htext)
  | @list before rest hbefore _ ih =>
    intro depth hdepth
    have hlen : before.length + rest.length + 1 ≤ depth := by simp at hdepth; omega
    obtain ⟨depth, rfl⟩ : ∃ d, depth = d + 1 := ⟨depth - 1, by omega⟩
    obtain ⟨broken, hbroken⟩ := ih depth (by omega)
    exact ⟨broken, by rw [readValue_list hbefore, map_eq_error_iff.mpr hbroken]⟩
  | @table before rest hbefore _ ih =>
    intro depth hdepth
    have hlen : before.length + rest.length + 1 ≤ depth := by simp at hdepth; omega
    obtain ⟨depth, rfl⟩ : ∃ d, depth = d + 1 := ⟨depth - 1, by omega⟩
    obtain ⟨broken, hbroken⟩ := ih depth (by omega) []
    exact ⟨broken, by rw [readValue_table hbefore, map_eq_error_iff.mpr hbroken]⟩
  | inItem hitem ih =>
    intro depth hdepth
    obtain ⟨broken, hbroken⟩ := ih depth hdepth
    exact ⟨broken, readItems_error hitem.stops hbroken⟩
  | @afterItem item rest hitem _ ih =>
    intro depth hdepth
    have hlen : item.length + rest.length + 1 ≤ depth := by simp at hdepth; omega
    obtain ⟨setting, hread⟩ := hitem.reads depth (by omega) (',' :: rest) (ends_cons (by decide))
    obtain ⟨broken, hbroken⟩ := ih depth (by omega)
    refine ⟨broken, ?_⟩
    rw [readItems_next (hitem.stops.append_stops (stops_cons rfl)) hread (by simp; omega)]
    exact map_eq_error_iff.mpr hbroken
  | inName hbroken =>
    intro depth _ before
    obtain ⟨inner, broken, hskip, htext⟩ := hbroken.exists_readText
    refine ⟨broken, readMembers_unnamed (hbroken.stops (by decide)) ?_⟩
    simp only [readNamed, hskip, readName, htext]
  | @inMember label value hlabel _ ih =>
    intro depth hdepth before
    have hlen : label.length + value.length + 1 ≤ depth := by simp at hdepth; omega
    obtain ⟨name, hname⟩ := hlabel.exists_readNamed value
    obtain ⟨broken, hbroken⟩ := ih depth (by omega)
    exact ⟨broken, readMembers_error (hlabel.stops _) hname hbroken⟩
  | @afterMember label value rest hlabel hvalue _ ih =>
    intro depth hdepth before
    have hlen : label.length + value.length + rest.length + 2 ≤ depth := by simp at hdepth; omega
    obtain ⟨name, hname⟩ := hlabel.exists_readNamed (value ++ ',' :: rest)
    obtain ⟨setting, hread⟩ := hvalue.reads depth (by omega) (',' :: rest) (ends_cons (by decide))
    obtain ⟨broken, hbroken⟩ := ih depth (by omega) (Keyed.insert name setting before)
    refine ⟨broken, ?_⟩
    have hassoc : label ++ '=' :: value ++ ',' :: rest =
        label ++ '=' :: (value ++ ',' :: rest) := by simp
    rw [hassoc, readMembers_next (hlabel.stops _) hname hread (by simp; omega), hbroken]

/-! ### Values of variables -/

theorem ends_nil : Ends [] := by
  intro c rest hcons
  cases hcons

theorem value_of_readValue {text : String} {setting : Setting}
    (h : readValue text.length text.toList = .ok (setting, [])) : value text = .ok setting := by
  rw [value, h]

theorem value_of_scalarOf {text : String} {scalar : Scalar} (h : ScalarOf text.toList scalar) :
    value text = .ok (.scalar .environment scalar) := by
  have hread := h.readValue gap_nil gap_nil ends_nil text.length
  rw [List.nil_append, List.append_nil, List.append_nil] at hread
  exact value_of_readValue hread

theorem exists_value_of_list {text : String} {items : List Char} (h : Spells .items items)
    (htext : text.toList = '[' :: items ++ [']']) :
    ∃ read, value text = .ok (.list .environment read) := by
  have hlength : text.length = items.length + 1 + 1 := by simp [← String.length_toList, htext]
  obtain ⟨read, hread⟩ := h.reads _ (Nat.le_succ items.length) []
  refine ⟨read, value_of_readValue ?_⟩
  rw [hlength, htext]
  exact (readValue_list gap_nil _ _).trans (map_eq_ok_iff.mpr ⟨_, hread, rfl⟩)

theorem exists_value_of_table {text : String} {members : List Char} (h : Spells .members members)
    (htext : text.toList = '\x7b' :: members ++ ['\x7d']) :
    ∃ read, value text = .ok (.table .environment read) := by
  have hlength : text.length = members.length + 1 + 1 := by simp [← String.length_toList, htext]
  obtain ⟨read, hread⟩ := h.reads _ (Nat.le_succ members.length) [] []
  refine ⟨read, value_of_readValue ?_⟩
  rw [hlength, htext]
  exact (readValue_table gap_nil _ _).trans (map_eq_ok_iff.mpr ⟨_, hread, rfl⟩)

theorem exists_value_eq_error_iff {text : String} :
    (∃ broken, value text = .error broken) ↔ Breaks .value text.toList := by
  constructor
  · intro ⟨broken, h⟩
    unfold value at h
    split at h
    · cases h
    · cases h
    · cases h
    · rename_i hread
      exact (sound_readValue _).breaks hread
  · intro h
    obtain ⟨broken, hbroken⟩ := h.fails text.length String.length_toList.le
    exact ⟨broken, by rw [value, hbroken]⟩

/-- A text of no form is the text that it is. -/
theorem value_of_not_spells {text : String} (h : ¬ Spells .value text.toList)
    (hbreaks : ¬ Breaks .value text.toList) :
    value text = .ok (.scalar .environment (.text text)) := by
  unfold value
  split
  · rename_i hread
    obtain ⟨read, hspells, heq⟩ := (sound_readValue _).spells hread
    rw [List.append_nil] at heq
    exact absurd (heq ▸ hspells) h
  · rfl
  · rfl
  · rename_i hread
    exact absurd ((sound_readValue _).breaks hread) hbreaks

end PackageReadme.Environment
