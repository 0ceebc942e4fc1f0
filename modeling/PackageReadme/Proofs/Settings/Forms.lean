import PackageReadme.Proofs.Results
import PackageReadme.Proofs.Text.Start
import PackageReadme.Settings.Environment

/-! The forms of values without parts in variables, and of the names in tables.

Each form is said of a text by itself. What a reader reads is of its form (`scalarOf_of_readScalar`,
`isLabel_of_readNamed`), and what is of the form is read to its end before any text that may follow
it (`ScalarOf.exists_readScalar`, `IsLabel.exists_readNamed`). -/
namespace PackageReadme.Environment
open Text

/-! ### Blanks -/

/-- A text of blanks only. -/
def Gap (s : List Char) : Prop :=
  ∀ c ∈ s, isGap c = true

theorem gap_nil : Gap [] :=
  List.forall_mem_nil _

theorem isGap_iff_mem {c : Char} : isGap c = true ↔ c ∈ [' ', '\t', '\n', '\x0c', '\r'] := by
  simp [isGap, or_assoc]

theorem of_isGap {p : Char → Bool} {c : Char} (hp : [' ', '\t', '\n', '\x0c', '\r'].all p = true)
    (h : isGap c = true) : p c = true :=
  List.all_eq_true.mp hp c (isGap_iff_mem.mp h)

/-- What no blank satisfies, blanks do not start with. -/
theorem Gap.stops {p : Char → Bool} {s : List Char} (h : Gap s)
    (hp : [' ', '\t', '\n', '\x0c', '\r'].all (fun c => !p c) = true) : Stops p s :=
  stops_of_forall fun c hc => by simpa using of_isGap hp (h c hc)

theorem exists_gap (s : List Char) :
    ∃ gap, Gap gap ∧ s = gap ++ skipGap s ∧ Stops isGap (skipGap s) := by
  refine ⟨s.takeWhile isGap, fun c => List.mem_takeWhile_imp,
    List.takeWhile_append_dropWhile.symm, ?_⟩
  intro c rest h
  have hhead := List.head?_dropWhile_not isGap s
  rw [← skipGap, h] at hhead
  exact hhead

theorem skipGap_append {gap rest : List Char} (hgap : Gap gap) (hrest : Stops isGap rest) :
    skipGap (gap ++ rest) = rest := by
  rw [skipGap, List.dropWhile_append_of_pos hgap]
  cases rest with
  | nil => rfl
  | cons c rest => exact List.dropWhile_cons_of_neg (by simp [hrest c rest rfl])

/-! ### Texts in quotes -/

/-- What may stand between quotes: a quote only after a backslash. -/
inductive Quotable : List Char → Prop
  | nil : Quotable []
  | escape {c : Char} {s : List Char} : Quotable s → Quotable ('\\' :: c :: s)
  | plain {c : Char} {s : List Char} : c ≠ '"' → c ≠ '\\' → Quotable s → Quotable (c :: s)

theorem quotedPart?_eq_some_iff {s part rest : List Char} :
    quotedPart? s = some (part, rest) ↔ Quotable part ∧ s = part ++ '"' :: rest := by
  constructor
  · intro h
    fun_induction quotedPart? s generalizing part with
    | case1 => cases h
    | case2 rest =>
      cases h
      exact ⟨.nil, rfl⟩
    | case3 c s ih =>
      obtain ⟨⟨inner, after⟩, hinner, heq⟩ := Option.map_eq_some_iff.mp h
      cases heq
      obtain ⟨hquotable, rfl⟩ := ih hinner
      exact ⟨.escape hquotable, rfl⟩
    | case4 => cases h
    | case5 c s hquote hescape hlast ih =>
      obtain ⟨⟨inner, after⟩, hinner, heq⟩ := Option.map_eq_some_iff.mp h
      cases heq
      have hbackslash : c ≠ '\\' := by
        intro hc
        cases s with
        | nil => exact hlast hc rfl
        | cons d s => exact hescape d s hc rfl
      obtain ⟨hquotable, rfl⟩ := ih hinner
      exact ⟨.plain hquote hbackslash hquotable, rfl⟩
  · intro ⟨hpart, hs⟩
    subst hs
    induction hpart with
    | nil => rfl
    | escape _ ih =>
      rw [List.cons_append, List.cons_append, quotedPart?, ih]
      rfl
    | plain hquote hbackslash _ ih =>
      rw [List.cons_append, quotedPart?, ih]
      · rfl
      · exact hquote
      · exact fun _ _ hc => absurd hc hbackslash
      · exact fun hc => absurd hc hbackslash

/-- A text in quotes and the text that it is for. -/
inductive QuotedOf : List Char → String → Prop
  | intro {part text : List Char} : Quotable part → unescape part = .ok text →
    QuotedOf ('"' :: part ++ ['"']) (String.ofList text)

theorem readText_eq_ok_iff {s rest : List Char} {text : String} :
    readText s = .ok (text, rest) ↔ ∃ quoted, QuotedOf quoted text ∧ '"' :: s = quoted ++ rest := by
  rw [readText]
  constructor
  · intro h
    split at h
    · cases h
    · rename_i part after hpart
      obtain ⟨hquotable, rfl⟩ := quotedPart?_eq_some_iff.mp hpart
      obtain ⟨found, htext, heq⟩ := map_eq_ok_iff.mp h
      cases heq
      exact ⟨_, .intro hquotable htext, by simp⟩
  · intro ⟨_, hquoted, hs⟩
    obtain ⟨hquotable, htext⟩ := hquoted
    rw [List.cons_append, List.cons_append, List.cons.injEq, List.append_assoc,
      List.singleton_append] at hs
    rw [quotedPart?_eq_some_iff.mpr ⟨hquotable, hs.2⟩]
    simp only [htext]
    rfl

/-! ### Values without parts -/

/-- A text that stands for itself or for a number. -/
structure IsBareWord (s : List Char) : Prop where
  chars : ∀ c ∈ s, isBare c = true
  noGap : Stops isGap s
  noTrue : ¬ "true".toList <+: s
  noFalse : ¬ "false".toList <+: s
  noQuote : Stops (fun c => c == '"' || c == '\'') s

/-- A text without parts and its value. -/
inductive ScalarOf : List Char → Scalar → Prop
  | yes : ScalarOf "true".toList (.bool true)
  | no : ScalarOf "false".toList (.bool false)
  | quoted {s : List Char} {text : String} : QuotedOf s text → ScalarOf s (.text text)
  | character {c : Char} : ScalarOf ['\'', c, '\''] (.text (String.ofList [c]))
  | bare {s : List Char} : IsBareWord s → ScalarOf s (bare s)

theorem after?_eq_none_iff {start s : List Char} : after? start s = none ↔ ¬ start <+: s := by
  rw [Option.eq_none_iff_forall_ne_some]
  constructor
  · intro h ⟨rest, hs⟩
    exact h rest (after?_eq_some_iff.mpr hs.symm)
  · intro h rest hrest
    exact h ⟨rest, (after?_eq_some_iff.mp hrest).symm⟩

theorem scalarOf_of_readScalar {s rest : List Char} {scalar : Scalar} (hs : Stops isGap s)
    (h : readScalar s = .ok (scalar, rest)) : ∃ text, ScalarOf text scalar ∧ s = text ++ rest := by
  unfold readScalar at h
  split at h
  · rename_i htrue
    cases h
    exact ⟨_, .yes, after?_eq_some_iff.mp htrue⟩
  · rename_i hfalse _
    cases h
    exact ⟨_, .no, after?_eq_some_iff.mp hfalse⟩
  · obtain ⟨found, hread, heq⟩ := map_eq_ok_iff.mp h
    cases heq
    obtain ⟨quoted, hquoted, hsplit⟩ := readText_eq_ok_iff.mp hread
    exact ⟨quoted, .quoted hquoted, hsplit⟩
  · cases h
    exact ⟨_, .character, rfl⟩
  · cases h
  · rename_i s _ _ _ hdouble _ hsingle htrue hfalse
    cases h
    have hfront : s.takeWhile isBare <+: s := List.takeWhile_prefix _
    refine ⟨_, .bare ⟨fun c => List.mem_takeWhile_imp, hs.of_isPrefix hfront, ?_, ?_, ?_⟩, ?_⟩
    · exact fun hstart => (hstart.trans hfront).elim fun rest h =>
        htrue rest (after?_eq_some_iff.mpr h.symm)
    · exact fun hstart => (hstart.trans hfront).elim fun rest h =>
        hfalse rest (after?_eq_some_iff.mpr h.symm)
    · refine Stops.of_isPrefix (s := s) ?_ hfront
      intro c rest hcons
      by_contra hc
      simp only [Bool.not_eq_false, Bool.or_eq_true, beq_iff_eq] at hc
      rcases hc with rfl | rfl
      · exact hdouble rest hcons
      · exact hsingle rest hcons
    · exact (takeWhile_append_drop isBare s).symm

/-- A text that may follow a value. -/
def Ends (s : List Char) : Prop :=
  ∀ c rest, s = c :: rest → c ∈ [',', ']', '\x7d']

theorem Ends.stops {p : Char → Bool} {s : List Char} (h : Ends s)
    (hp : [',', ']', '\x7d'].all (fun c => !p c) = true) : Stops p s := by
  intro c rest hcons
  have hc := List.all_eq_true.mp hp c (h c rest hcons)
  rwa [Bool.not_eq_true'] at hc

theorem readScalar_of_bare {s : List Char} (htrue : ¬ "true".toList <+: s)
    (hfalse : ¬ "false".toList <+: s) (hquote : Stops (fun c => c == '"' || c == '\'') s) :
    readScalar s = .ok (bare (s.takeWhile isBare), s.drop (s.takeWhile isBare).length) := by
  simp only [readScalar, after?_eq_none_iff.mpr htrue, after?_eq_none_iff.mpr hfalse]
  split
  · rename_i hsome
    cases hsome
  · rename_i hsome _
    cases hsome
  · cases hquote _ _ rfl
  · cases hquote _ _ rfl
  · cases hquote _ _ rfl
  · rfl

theorem readScalar_quote (rest : List Char) :
    readScalar ('"' :: rest) = (readText rest).map fun (text, rest) => (.text text, rest) :=
  rfl

theorem isBlank_of_isGap {c : Char} (h : isGap c = true) : isBlank c = true :=
  of_isGap (by decide) h

theorem bare_append {gap : List Char} (hgap : Gap gap) (s : List Char) :
    bare (s ++ gap) = bare s := by
  rw [bare, bare, trim_append fun c hc => isBlank_of_isGap (hgap c hc)]

/-- What is of the form of a value without parts is read so, up to the blanks after it. -/
theorem ScalarOf.exists_readScalar {text gap rest : List Char} {value : Scalar}
    (h : ScalarOf text value) (hgap : Gap gap) (hrest : Ends rest) :
    ∃ tail, readScalar (text ++ (gap ++ rest)) = .ok (value, tail) ∧ skipGap tail = rest := by
  have hnext : Stops isGap rest := hrest.stops (by decide)
  have hskip := skipGap_append hgap hnext
  cases h with
  | yes =>
    refine ⟨gap ++ rest, ?_, hskip⟩
    simp only [readScalar, after?_append]
  | no =>
    have htrue : after? "true".toList ("false".toList ++ (gap ++ rest)) = none := rfl
    refine ⟨gap ++ rest, ?_, hskip⟩
    simp only [readScalar, htrue, after?_append]
  | quoted hquoted =>
    obtain @⟨part, inner, -, -⟩ := id hquoted
    have hread : readText (part ++ ['"'] ++ (gap ++ rest)) =
        .ok (String.ofList inner, gap ++ rest) :=
      readText_eq_ok_iff.mpr ⟨_, hquoted, rfl⟩
    refine ⟨gap ++ rest, ?_, hskip⟩
    rw [List.cons_append, List.cons_append, readScalar_quote, hread]
    rfl
  | character => exact ⟨gap ++ rest, rfl, hskip⟩
  | bare hbare =>
    -- blanks after the word are read with it, and neither they nor the rest make it another one
    have hstops : Stops (fun c => isBare c && !isGap c) (gap ++ rest) :=
      (hgap.stops (by decide)).append_stops (hrest.stops (by decide))
    have hword {word : List Char} (hchars : word.all (fun c => isBare c && !isGap c) = true)
        (hnot : ¬ word <+: text) : ¬ word <+: text ++ (gap ++ rest) := fun hstart =>
      hnot (prefix_of_forall_of_stops (List.all_eq_true.mp hchars) hstops hstart)
    have hquote : Stops (fun c => c == '"' || c == '\'') (text ++ (gap ++ rest)) :=
      hbare.noQuote.append_stops ((hgap.stops (by decide)).append_stops (hrest.stops (by decide)))
    have hrun : (text ++ (gap ++ rest)).takeWhile isBare = text ++ gap := by
      refine takeWhile_eq_iff.mpr ⟨rest, (List.append_assoc ..).symm, ?_, hrest.stops (by decide)⟩
      exact List.forall_mem_append.mpr ⟨hbare.chars, fun c hc => of_isGap (by decide) (hgap c hc)⟩
    refine ⟨rest, ?_, skipGap_append gap_nil hnext⟩
    rw [readScalar_of_bare (hword (by decide) hbare.noTrue) (hword (by decide) hbare.noFalse)
      hquote, hrun, bare_append hgap, ← List.append_assoc, List.drop_left]

/-! ### Names in tables -/

inductive IsName : List Char → Prop
  | letters {s : List Char} : s ≠ [] → (∀ c ∈ s, isNameLetter c = true) → IsName s
  | quoted {s : List Char} {name : String} : QuotedOf s name → IsName s

/-- A name and the blanks around it. -/
def IsLabel (s : List Char) : Prop :=
  ∃ before name after, Gap before ∧ IsName name ∧ Gap after ∧ s = before ++ name ++ after

theorem isName_of_readName {s rest : List Char} {name : String}
    (h : readName s = .ok (name, rest)) :
    ∃ text, IsName text ∧ s = text ++ rest := by
  unfold readName at h
  split at h
  · obtain ⟨quoted, hquoted, hsplit⟩ := readText_eq_ok_iff.mp h
    exact ⟨quoted, .quoted hquoted, hsplit⟩
  · simp only at h
    split at h
    · cases h
    · rename_i hne
      cases h
      refine ⟨s.takeWhile isNameLetter,
        .letters (by simpa using hne) fun c => List.mem_takeWhile_imp, ?_⟩
      exact (takeWhile_append_drop isNameLetter s).symm

theorem IsName.exists_readName {text rest : List Char} (h : IsName text)
    (hrest : Stops isNameLetter rest) :
    ∃ name, readName (text ++ rest) = .ok (name, rest) := by
  cases h with
  | letters hne hletters =>
    have hrun : (text ++ rest).takeWhile isNameLetter = text :=
      takeWhile_eq_iff.mpr ⟨rest, rfl, hletters, hrest⟩
    refine ⟨String.ofList text, ?_⟩
    unfold readName
    split
    · rename_i inner heq
      obtain ⟨c, text, rfl⟩ := List.exists_cons_of_ne_nil hne
      have hquote := hletters c (List.mem_cons_self ..)
      rw [(List.cons.inj heq).1] at hquote
      cases hquote
    · simp [hrun, hne]
  | quoted hquoted =>
    obtain @⟨part, inner, -, -⟩ := id hquoted
    exact ⟨_, readText_eq_ok_iff.mpr ⟨_, hquoted, rfl⟩⟩

theorem isLabel_of_readNamed {s rest : List Char} {name : String}
    (h : readNamed s = .ok (name, rest)) :
    ∃ label, IsLabel label ∧ s = label ++ '=' :: rest := by
  obtain ⟨before, hbefore, hs, -⟩ := exists_gap s
  unfold readNamed at h
  split at h
  · cases h
  · rename_i tail hread
    obtain ⟨text, htext, hsplit⟩ := isName_of_readName hread
    obtain ⟨after, hafter, htail, -⟩ := exists_gap tail
    split at h
    · rename_i rest heq
      cases h
      refine ⟨before ++ text ++ after, ⟨before, text, after, hbefore, htext, hafter, rfl⟩, ?_⟩
      rw [hs, hsplit, htail, heq]
      simp
    · cases h

theorem IsName.ne_nil {text : List Char} (h : IsName text) : text ≠ [] := by
  cases h with
  | letters hne _ => exact hne
  | quoted hquoted =>
    cases hquoted
    simp

theorem IsName.stops {p : Char → Bool} {text : List Char} (h : IsName text)
    (hp : ∀ c, p c = true → isNameLetter c = false ∧ c ≠ '"') : Stops p text := by
  cases h with
  | letters _ hletters =>
    refine stops_of_forall fun c hc => Bool.eq_false_iff.mpr fun hpc => ?_
    exact Bool.false_ne_true ((hp c hpc).1.symm.trans (hletters c hc))
  | quoted hquoted =>
    cases hquoted
    exact stops_cons (Bool.eq_false_iff.mpr fun hpc => (hp _ hpc).2 rfl)

theorem IsName.stops_gap {text : List Char} (h : IsName text) : Stops isGap text :=
  h.stops fun c hc => by
    simpa using of_isGap (p := fun c => !isNameLetter c && c != '"') (by decide) hc

theorem IsLabel.exists_readNamed {label : List Char} (h : IsLabel label) (rest : List Char) :
    ∃ name, readNamed (label ++ '=' :: rest) = .ok (name, rest) := by
  obtain ⟨before, text, after, hbefore, htext, hafter, rfl⟩ := h
  have hnext : Stops isNameLetter (after ++ '=' :: rest) :=
    (hafter.stops (by decide)).append_stops (stops_cons rfl)
  obtain ⟨name, hname⟩ := htext.exists_readName hnext
  have hskip : skipGap (before ++ text ++ after ++ '=' :: rest) =
      text ++ (after ++ '=' :: rest) := by
    rw [List.append_assoc, List.append_assoc]
    exact skipGap_append hbefore (htext.stops_gap.append htext.ne_nil _)
  have hequals : skipGap (after ++ '=' :: rest) = '=' :: rest :=
    skipGap_append hafter (stops_cons rfl)
  refine ⟨name, ?_⟩
  rw [readNamed, hskip, hname]
  simp only [hequals]

end PackageReadme.Environment
