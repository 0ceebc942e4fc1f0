import PackageReadme.Proofs.Json.AnyValue

/-! Values are read back from their texts over several lines.

Blanks may stand wherever an item, a member or a value is looked for, so that line breaks and their
indentation change nothing. A value is read back if its containers do not lie too deep in one
another and its numbers are whole ones of 64 bits (`Fits`). Main statement: `Fits.parse_pretty`. -/
namespace PackageReadme.Json

/-- Containers lie at most so deep in one another, and numbers are whole ones of 64 bits. -/
inductive Fits : Nat → Json → Prop
  | null {depth : Nat} : Fits depth .null
  | bool {depth : Nat} (b : Bool) : Fits depth (.bool b)
  | nat {depth : Nat} {n : Nat} : n ≤ maxNatural → Fits depth (.nat n)
  | string {depth : Nat} (s : String) : Fits depth (.string s)
  | array {depth : Nat} {items : List Json} :
    (∀ item ∈ items, Fits depth item) → Fits (depth + 1) (.array items)
  | object {depth : Nat} {members : List (String × Json)} :
    (∀ member ∈ members, Fits depth member.2) →
    Fits (depth + 1) (.object members)

/-! ### Members that fit -/

section
variable {α : Type} {depth : Nat} {toJson : α → Json} {name : String}
  {members : List (String × Json)}

theorem Fits.list (h : ∀ value, Fits depth (toJson value)) (values : List α) :
    Fits (depth + 1) (.array (values.map toJson)) :=
  .array (List.forall_mem_map.mpr fun value _ => h value)

def FitsAll (depth : Nat) (members : List (String × Json)) : Prop :=
  ∀ member ∈ members, Fits depth member.2

theorem Fits.of_members (h : FitsAll depth members) : Fits (depth + 1) (.object members) :=
  .object h

theorem Fits.of_append_nil (h : FitsAll depth (members ++ [])) :
    Fits (depth + 1) (.object members) := by
  rw [List.append_nil] at h
  exact .of_members h

namespace FitsAll

theorem done : FitsAll depth [] :=
  List.forall_mem_nil _

theorem always {json : Json} (h : Fits depth json) (hrest : FitsAll depth members) :
    FitsAll depth ((name, json) :: members) :=
  List.forall_mem_cons.mpr ⟨h, hrest⟩

theorem text {s : String} (hrest : FitsAll depth members) :
    FitsAll depth (textMember name s ++ members) := by
  unfold textMember
  split
  · exact hrest
  · exact always (.string s) hrest

theorem option (h : ∀ value, Fits depth (toJson value)) {value : Option α}
    (hrest : FitsAll depth members) :
    FitsAll depth (optionMember name toJson value ++ members) := by
  cases value with
  | none => exact hrest
  | some value => exact always (h value) hrest

theorem list (h : ∀ value, Fits depth (toJson value)) {values : List α}
    (hrest : FitsAll (depth + 1) members) :
    FitsAll (depth + 1) (listMember name toJson values ++ members) := by
  cases values with
  | nil => exact hrest
  | cons value values => exact always (.list h (value :: values)) hrest

end FitsAll
end

/-! ### Blanks -/

/-- Blanks before something else. -/
def Gap (s : List Char) : Prop :=
  ∀ c ∈ s, isBlankChar c = true

theorem gap_nil : Gap [] :=
  List.forall_mem_nil _

theorem gap_lineBreak (depth : Nat) : Gap (lineBreak depth) := by
  refine List.forall_mem_cons.mpr ⟨rfl, fun c hc => ?_⟩
  rw [(List.mem_replicate.mp hc).2]
  rfl

/-- The text starts with something that is no blank. -/
def Starts (s : List Char) : Prop :=
  ∃ c tail, s = c :: tail ∧ isBlankChar c = false

theorem skipBlanks_gap {gap s : List Char} (hgap : Gap gap) (hs : Starts s) :
    skipBlanks (gap ++ s) = s := by
  obtain ⟨c, tail, rfl, hc⟩ := hs
  rw [skipBlanks, List.dropWhile_append_of_pos hgap, List.dropWhile_cons_of_neg (by simp [hc])]

/-! ### Separators before blanks -/

theorem nextItem_gap (first : Bool) {gap s : List Char} (hgap : Gap gap) (hs : Starts s)
    (hend : s.head? ≠ some ']') :
    nextItem first (separator first ++ (gap ++ s)) = .ok (some s) := by
  have hskip := skipBlanks_gap hgap hs
  obtain ⟨c, tail, rfl, -⟩ := hs
  have hc : c ≠ ']' := fun heq => hend (by rw [heq]; rfl)
  cases first with
  | true => simp [separator, nextItem, hskip, hc]
  | false =>
    have hcomma : isBlankChar ',' = false := by
      decide
    simp [separator, nextItem, skipBlanks_cons hcomma, hskip, hc]

theorem nextName_gap (first : Bool) {gap : List Char} (hgap : Gap gap) (name : String)
    (rest : List Char) :
    nextName first (separator first ++ (gap ++ (stringText name ++ rest))) =
      .ok (some name, rest) := by
  have hname := readName_stringText name rest
  obtain ⟨tail, htail⟩ : ∃ tail, stringText name ++ rest = '"' :: tail := ⟨_, rfl⟩
  have hskip := skipBlanks_gap hgap ⟨'"', tail, htail, by decide⟩
  have hcomma : isBlankChar ',' = false := by
    decide
  rw [htail] at hname hskip ⊢
  cases first with
  | true => simp [separator, nextName, hskip, hname]
  | false => simp [separator, nextName, skipBlanks_cons hcomma, hskip, hname]

/-! ### Items and members on lines -/

/-- The lines of items, with a separator in front unless they are the first. -/
def itemLines (first : Bool) (depth : Nat) : List Json → List Char
  | [] => []
  | item :: rest =>
    separator first ++ (lineBreak depth ++ (prettyChars depth item ++ itemLines false depth rest))

/-- The lines of members, with a separator in front unless they are the first. -/
def memberLines (first : Bool) (depth : Nat) : List (String × Json) → List Char
  | [] => []
  | (name, value) :: rest =>
    separator first ++ (lineBreak depth ++ (stringText name ++
      ':' :: ' ' :: (prettyChars depth value ++ memberLines false depth rest)))

theorem prettyItems_eq (depth : Nat) (items : List Json) :
    prettyItems depth items = itemLines true depth items := by
  match items with
  | [] => simp [prettyItems, itemLines]
  | [item] => simp [prettyItems, itemLines, separator]
  | item :: next :: rest =>
    have ih := prettyItems_eq depth (next :: rest)
    simp only [itemLines, separator, if_true, List.nil_append] at ih
    simp [prettyItems, itemLines, separator, ih]

theorem prettyMembers_eq (depth : Nat) (members : List (String × Json)) :
    prettyMembers depth members = memberLines true depth members := by
  match members with
  | [] => simp [prettyMembers, memberLines]
  | [(name, value)] => simp [prettyMembers, memberLines, separator]
  | (name, value) :: next :: rest =>
    have ih := prettyMembers_eq depth (next :: rest)
    simp only [memberLines, separator, if_true, List.nil_append] at ih
    simp [prettyMembers, memberLines, separator, ih]

/-- A container is closed on a line of its own, unless it is empty. -/
def closing (depth : Nat) (isEmpty : Bool) : List Char :=
  if isEmpty then [] else lineBreak depth

theorem gap_closing (depth : Nat) (isEmpty : Bool) : Gap (closing depth isEmpty) := by
  cases isEmpty with
  | true => exact gap_nil
  | false => exact gap_lineBreak depth

theorem prettyChars_array (depth : Nat) (items : List Json) :
    prettyChars depth (.array items) =
      '[' :: (itemLines true (depth + 1) items ++ (closing depth items.isEmpty ++ [']'])) := by
  cases items with
  | nil => simp [prettyChars, itemLines, closing]
  | cons item items => simp [prettyChars, prettyItems_eq, closing]

theorem prettyChars_object (depth : Nat) (members : List (String × Json)) :
    prettyChars depth (.object members) =
      '\x7b' :: (memberLines true (depth + 1) members ++
        (closing depth members.isEmpty ++ ['\x7d'])) := by
  cases members with
  | nil => simp [prettyChars, memberLines, closing]
  | cons member members => simp [prettyChars, prettyMembers_eq, closing]

/-! ### Reading -/

/-- The text of a value starts with no blank, and not the way a list ends. -/
theorem starts_prettyChars {depth : Nat} {json : Json} (h : Fits depth json) (indent : Nat) :
    ∃ c tail, prettyChars indent json = c :: tail ∧ isBlankChar c = false ∧ c ≠ ']' := by
  cases h with
  | null => exact ⟨'n', _, rfl, by decide, by decide⟩
  | bool b =>
    cases b
    · exact ⟨'f', _, rfl, by decide, by decide⟩
    · exact ⟨'t', _, rfl, by decide, by decide⟩
  | @nat _ n =>
    obtain ⟨c, cs, hcons, hc⟩ := exists_digit_toDigits n
    exact ⟨c, cs, hcons, not_isBlankChar_of_isDigit hc, ne_of_isDigit hc (by decide)⟩
  | string s => exact ⟨'"', _, rfl, by decide, by decide⟩
  | array => exact ⟨'[', _, prettyChars_array .., by decide, by decide⟩
  | object => exact ⟨'\x7b', _, prettyChars_object .., by decide, by decide⟩

theorem Fits.starts {depth : Nat} {json : Json} (h : Fits depth json) (indent : Nat)
    (rest : List Char) :
    Starts (prettyChars indent json ++ rest) := by
  obtain ⟨c, tail, hchars, hc, -⟩ := starts_prettyChars h indent
  exact ⟨c, tail ++ rest, by rw [hchars, List.cons_append], hc⟩

theorem ends_itemLines (depth : Nat) (items : List Json) (indent : Nat) (isEmpty : Bool)
    (rest : List Char) :
    Ends (itemLines false depth items ++ (closing indent isEmpty ++ ']' :: rest)) := by
  cases items with
  | cons item items => exact .inl rfl
  | nil =>
    cases isEmpty with
    | true => exact .inr (.inl rfl)
    | false => exact .inr (.inr (.inr rfl))

theorem ends_memberLines (depth : Nat) (members : List (String × Json)) (indent : Nat)
    (isEmpty : Bool) (rest : List Char) :
    Ends (memberLines false depth members ++ (closing indent isEmpty ++ '\x7d' :: rest)) := by
  cases members with
  | cons member members => exact .inl rfl
  | nil =>
    cases isEmpty with
    | true => exact .inr (.inr (.inl rfl))
    | false => exact .inr (.inr (.inr rfl))

/-- A value is read from its text, after any blanks. -/
def ReadsPretty (decoder : Decoder Json) (indent : Nat) (json : Json) : Prop :=
  ∀ gap rest, Gap gap → Ends rest →
    decoder.read (gap ++ (prettyChars indent json ++ rest)) = .ok (json, rest)

theorem readItems_itemLines {depth indent outer : Nat} {decoder : Decoder Json} {items : List Json}
    (hfits : ∀ item ∈ items, Fits depth item)
    (hreads : ∀ item ∈ items, ReadsPretty decoder indent item) (first isEmpty : Bool)
    (rest : List Char) :
    readItems decoder first (itemLines first indent items ++
      (closing outer isEmpty ++ ']' :: rest)) =
      .ok (items, rest) := by
  induction items generalizing first with
  | nil =>
    have hskip := skipBlanks_gap (gap_closing outer isEmpty)
      (⟨']', rest, rfl, by decide⟩ : Starts (']' :: rest))
    exact readItems_end (by simp [itemLines, nextItem, hskip]) (by simp [itemLines, endList, hskip])
  | cons item items ih =>
    obtain ⟨hitem, hitems⟩ := List.forall_mem_cons.mp hfits
    obtain ⟨hread, hreads⟩ := List.forall_mem_cons.mp hreads
    have hends := ends_itemLines indent items outer isEmpty rest
    rw [itemLines]
    simp only [List.append_assoc]
    obtain ⟨c, tail, hchars, -, hc⟩ := starts_prettyChars hitem indent
    have hnext := nextItem_gap first (gap_lineBreak indent)
      (hitem.starts indent (itemLines false indent items ++ (closing outer isEmpty ++ ']' :: rest)))
      (by simp [hchars, hc])
    exact readItems_item hnext (hread [] _ gap_nil hends) (ih hitems hreads false)

theorem readMembers_memberLines {indent outer : Nat} {decoder : String → Decoder Json}
    {members : List (String × Json)}
    (hreads : ∀ member ∈ members, ReadsPretty (decoder member.1) indent member.2)
    (first isEmpty : Bool) (rest : List Char) :
    readMembers decoder first (memberLines first indent members ++
      (closing outer isEmpty ++ '\x7d' :: rest)) =
      .ok (members, rest) := by
  induction members generalizing first with
  | nil =>
    have hskip := skipBlanks_gap (gap_closing outer isEmpty)
      (⟨'\x7d', rest, rfl, by decide⟩ : Starts ('\x7d' :: rest))
    exact readMembers_end (by simp [memberLines, nextName, hskip])
  | cons member members ih =>
    obtain ⟨name, value⟩ := member
    obtain ⟨hread, hreads⟩ := List.forall_mem_cons.mp hreads
    have hends := ends_memberLines indent members outer isEmpty rest
    have hspace : Gap [' '] := List.forall_mem_singleton.mpr rfl
    rw [memberLines]
    simp only [List.append_assoc, List.cons_append]
    exact readMembers_member (nextName_gap first (gap_lineBreak indent) name _) (colon_cons _)
      (hread [' '] _ hspace hends) (ih hreads false)

theorem Fits.reads_of_scalar {depth indent : Nat} {json : Json} (h : Fits depth json)
    (hscalar : ∀ rest, Ends rest → ReadsScalar (prettyChars indent json ++ rest) json rest) :
    ReadsPretty (.any depth) indent json := by
  intro gap rest hgap hrest
  refine ReadsMarked.read (.scalar ?_)
  rw [skipBlanks_gap hgap (h.starts indent rest)]
  exact hscalar rest hrest

/-- **A value is read back from its text over several lines**, wherever the text stands. -/
theorem Fits.reads {depth : Nat} {json : Json} (h : Fits depth json) (indent : Nat) :
    ReadsPretty (.any depth) indent json := by
  induction h generalizing indent with
  | null => exact Fits.null.reads_of_scalar fun rest _ => .null rfl
  | bool b =>
    refine (Fits.bool b).reads_of_scalar fun rest _ => ?_
    cases b with
    | false => exact .false rfl
    | true => exact .true rfl
  | nat hn =>
    exact (Fits.nat hn).reads_of_scalar fun rest hrest => .number (readNumber?_toDigits hn hrest)
  | string s =>
    refine (Fits.string s).reads_of_scalar fun rest _ => ?_
    have hscalar := ReadsScalar.string (stringBody_flatMap s.toList rest)
    rw [String.ofList_toList] at hscalar
    simpa [prettyChars, stringText] using hscalar
  | @array depth items hfits ih =>
    intro gap rest hgap _
    have hskip := skipBlanks_gap hgap ((Fits.array hfits).starts indent rest)
    simp only [prettyChars_array, List.cons_append, List.append_assoc, List.nil_append] at hskip ⊢
    refine ReadsMarked.read (.array hskip ?_)
    exact readItems_itemLines hfits (fun item hitem => ih item hitem (indent + 1)) true _ rest
  | @object depth members hfits ih =>
    intro gap rest hgap _
    have hskip := skipBlanks_gap hgap ((Fits.object hfits).starts indent rest)
    simp only [prettyChars_object, List.cons_append, List.append_assoc, List.nil_append] at hskip ⊢
    refine ReadsMarked.read (.object hskip ?_)
    exact readMembers_memberLines (fun member hmember => ih member hmember (indent + 1)) true _ rest

theorem Fits.parse_pretty {json : Json} (h : Fits depthLimit json) :
    Json.parse json.pretty = .ok json := by
  refine parse_eq_ok_iff.mpr ⟨[], ?_, rfl⟩
  have hread := h.reads 0 [] [] gap_nil trivial
  rwa [List.nil_append, List.append_nil, ← String.toList_ofList (l := prettyChars 0 json)] at hread

end PackageReadme.Json
