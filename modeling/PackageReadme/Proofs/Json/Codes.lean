import Mathlib.Data.List.Basic
import PackageReadme.Json.Printer
import PackageReadme.Proofs.Json.Taking

/-! Decoders that read back what is written.

A decoder fits a way of writing values (`Codes`) if it reads each value from its text, whatever
follows the text inside a container, and takes it from the JSON value as well. Fitting decoders are
built up the way decoders are: texts, flags and numbers come first, then lists, maps and values that
may be absent, and last records, whose members are written field by field (`Writes`). -/
namespace PackageReadme.Json

/-- What may stand after a value: nothing, a separator, the end of a container, or a new line before
that. -/
def Ends : List Char → Prop
  | [] => True
  | c :: _ => c = ',' ∨ c = ']' ∨ c = '\x7d' ∨ c = '\n'

/-- The text of a value shows by its first character that it is one, and that it is not `null`. -/
def Opens (s : List Char) : Prop :=
  ∃ c tail, s = c :: tail ∧ isBlankChar c = false ∧ c ≠ ']' ∧ c ≠ 'n'

/-- A decoder reads each value back from the way it is written, and takes it back from the value
that is written. -/
structure Codes {α : Type} (decoder : Decoder α) (toJson : α → Json) : Prop where
  opens : ∀ value, Opens (compactChars (toJson value))
  reads : ∀ value rest, Ends rest →
  decoder.read (compactChars (toJson value) ++ rest) = .ok (value, rest)
  takes : ∀ value, decoder.ofJson (toJson value) = .ok value

theorem skipBlanks_cons {c : Char} (h : isBlankChar c = false) (s : List Char) :
    skipBlanks (c :: s) = c :: s := by
  simp [skipBlanks, h]

/-! ### Texts and flags -/

/-- A control character below a space is written in four hexadecimal digits that stand for it. -/
theorem hexUnit?_control (n : Nat) (h : n < 32) :
    ∃ a b, (if n < 16 then ['0'] else []) ++ Text.hexadecimal n = [a, b] ∧
      hexUnit? '0' '0' a b = some n := by
  have hall : ∀ n : Fin 32, ((if n.val < 16 then ['0'] else []) ++
      Text.hexadecimal n.val).length = 2 ∧
      Text.hexadecimal? (['0',
        '0'] ++ ((if n.val < 16 then ['0'] else []) ++ Text.hexadecimal n.val)) = some n.val := by
    decide
  obtain ⟨hlength, hvalue⟩ := hall ⟨n, h⟩
  obtain ⟨a, b, hab⟩ := List.length_eq_two.1 hlength
  exact ⟨a, b, hab, by rw [hab] at hvalue; exact hvalue⟩

theorem stringBody_escapedChar (c : Char) (s : List Char) :
    stringBody (escapedChar c ++ s) = consChar c (stringBody s) := by
  by_cases hletter : c = '"' ∨ c = '\\' ∨ c = '\x08' ∨ c = '\t' ∨ c = '\n' ∨ c = '\x0c' ∨ c = '\r'
  · rcases hletter with rfl | rfl | rfl | rfl | rfl | rfl | rfl <;> rfl
  · simp only [not_or] at hletter
    by_cases hcontrol : c.toNat < 32
    · obtain ⟨a, b, hab, hunit⟩ := hexUnit?_control c.toNat hcontrol
      have hescaped : escapedChar c = ['\\', 'u', '0', '0', a, b] := by
        simp only [escapedChar, hletter, hcontrol, if_true, if_false, List.append_assoc, hab]
        rfl
      have hhigh : isHighSurrogate c.toNat = false := by
        simp only [isHighSurrogate, Bool.and_eq_false_iff, decide_eq_false_iff_not]
        omega
      have hlow : isLowSurrogate c.toNat = false := by
        simp only [isLowSurrogate, Bool.and_eq_false_iff, decide_eq_false_iff_not]
        omega
      simp [hescaped, stringBody, hunit, hhigh, hlow]
    · simp [escapedChar, hletter, hcontrol, stringBody]

/-- The body of a written text is read up to its quotation mark. -/
theorem stringBody_flatMap (cs rest : List Char) :
    stringBody (cs.flatMap escapedChar ++ '"' :: rest) = .ok (cs, rest) := by
  induction cs with
  | nil => simp [stringBody]
  | cons c cs ih => simp [stringBody_escapedChar, ih, consChar]

theorem codes_string : Codes .string .string where
  opens s := ⟨'"', _, rfl, by decide, by decide, by decide⟩
  reads s rest _ := by
    simp [Decoder.string, readString, compactChars, stringText, skipBlanks_cons, isBlankChar,
      stringBody_flatMap]
  takes _ := rfl

theorem codes_bool : Codes .bool .bool where
  opens b := by
    cases b
    · exact ⟨'f', _, rfl, by decide, by decide, by decide⟩
    · exact ⟨'t', _, rfl, by decide, by decide, by decide⟩
  reads b rest _ := by
    cases b <;> rfl
  takes _ := rfl

/-! ### Numbers -/

/-- The first digit of a positive number is not zero. -/
theorem head?_toDigits_ne {n : Nat} (h : 0 < n) : (Nat.toDigits 10 n).head? ≠ some '0' := by
  induction n using Nat.strongRecOn with
  | ind n ih =>
    by_cases hn : n < 10
    · have hdigit : ∀ d : Fin 10, 0 < d.val → Nat.digitChar d.val ≠ '0' := by
        decide
      rw [Nat.toDigits_of_lt_base hn, List.head?_cons]
      exact fun hzero => hdigit ⟨n, hn⟩ h (Option.some.inj hzero)
    · rw [Nat.toDigits_of_base_le (by decide) (by omega),
        List.head?_append_of_ne_nil _ Nat.toDigits_ne_nil]
      exact ih (n / 10) (by omega) (by omega)

theorem le_ofDigitChars (digits : List Char) (value : Nat) :
    value ≤ Nat.ofDigitChars 10 digits value := by
  induction digits generalizing value with
  | nil => exact Nat.le_refl _
  | cons c cs ih =>
    rw [Nat.ofDigitChars_cons]
    exact Nat.le_trans (by omega) (ih _)

/-- Digits are taken in whole as long as the number fits into 64 bits. -/
theorem absorb_eq (digits : List Char) (value : Nat)
    (h : Nat.ofDigitChars 10 digits value ≤ maxNatural) :
    absorb value digits = (Nat.ofDigitChars 10 digits value, 0) := by
  induction digits generalizing value with
  | nil => rfl
  | cons c cs ih =>
    have hnext : value * 10 + digitValue c = 10 * value + (c.toNat - '0'.toNat) := by
      rw [Nat.mul_comm]
      rfl
    rw [Nat.ofDigitChars_cons] at h ⊢
    rw [absorb, hnext, if_pos (Nat.le_trans (le_ofDigitChars cs _) h)]
    exact ih _ h

theorem not_isDigit_head_of_ends {rest : List Char} (h : Ends rest) :
    (rest.head?.any Char.isDigit) = false := by
  cases rest with
  | nil => rfl
  | cons c rest => rcases h with rfl | rfl | rfl | rfl <;> rfl

theorem takeWhile_isDigit_append {digits rest : List Char} (hdigits : ∀ c ∈ digits, c.isDigit)
    (h : Ends rest) :
    (digits ++ rest).takeWhile Char.isDigit = digits := by
  rw [List.takeWhile_append_of_pos hdigits]
  cases rest with
  | nil => simp
  | cons c rest => rcases h with rfl | rfl | rfl | rfl <;> simp

/-- Nothing that may stand after a value goes on with a number. -/
theorem afterWhole_of_ends (n : Nat) {rest : List Char} (h : Ends rest) :
    afterWhole true n 0 rest = .ok (.natural n, rest) := by
  cases rest with
  | nil => rfl
  | cons c rest => rcases h with rfl | rfl | rfl | rfl <;> rfl

/-- The digits of a number that fits into 64 bits are read back. -/
theorem unsigned_toDigits {n : Nat} (hn : n ≤ maxNatural) {rest : List Char} (h : Ends rest) :
    unsigned true (Nat.toDigits 10 n ++ rest) = .ok (.natural n, rest) := by
  have hdigits : ∀ c ∈ Nat.toDigits 10 n, c.isDigit :=
    fun c => Nat.isDigit_of_mem_toDigits (by decide) (by decide)
  have hvalue : Nat.ofDigitChars 10 (Nat.toDigits 10 n) 0 = n :=
    Nat.ofDigitChars_toDigits (by decide) (by decide)
  have hwhole := takeWhile_isDigit_append hdigits h
  have habsorb : absorb 0 (Nat.toDigits 10 n) = (n, 0) := by
    rw [absorb_eq _ _ (by rw [hvalue]; exact hn), hvalue]
  have hzero : (Nat.toDigits 10 n).head? = some '0' → Nat.toDigits 10 n = ['0'] := by
    intro hhead
    by_cases hpos : 0 < n
    · exact absurd hhead (head?_toDigits_ne hpos)
    · rw [Nat.eq_zero_of_not_pos hpos]
      rfl
  revert hdigits hwhole habsorb hzero
  cases hcons : Nat.toDigits 10 n with
  | nil => exact absurd hcons Nat.toDigits_ne_nil
  | cons c cs =>
    intro hdigits hwhole habsorb hzero
    have hlead : (c = '0' && (cs ++ rest).head?.any Char.isDigit) = false := by
      by_cases hc : c = '0'
      · subst hc
        have hcs : cs = [] := by simpa using hzero rfl
        simp [hcs, not_isDigit_head_of_ends h]
      · simp [hc]
    rw [List.cons_append] at hwhole ⊢
    have hc : c.isDigit = true := hdigits c (by simp)
    simp only [unsigned, hc, hlead, hwhole, habsorb, Bool.not_true, Bool.false_eq_true, if_false]
    rw [← List.cons_append, List.drop_left]
    exact afterWhole_of_ends n h

theorem ne_of_isDigit {c d : Char} (hc : c.isDigit = true) (hd : d.isDigit = false) : c ≠ d :=
  fun h => by simp [h, hd] at hc

theorem not_isBlankChar_of_isDigit {c : Char} (h : c.isDigit = true) : isBlankChar c = false := by
  have hne (d : Char) (hd : d.isDigit = false) : (c == d) = false :=
    beq_false_of_ne (ne_of_isDigit h hd)
  simp only [isBlankChar, hne _ (by decide : ' '.isDigit = false),
    hne _ (by decide : '\n'.isDigit = false), hne _ (by decide : '\t'.isDigit = false),
    hne _ (by decide : '\r'.isDigit = false), Bool.or_self]

theorem exists_digit_toDigits (n : Nat) :
    ∃ c cs, Nat.toDigits 10 n = c :: cs ∧ c.isDigit = true := by
  cases hcons : Nat.toDigits 10 n with
  | nil => exact absurd hcons Nat.toDigits_ne_nil
  | cons c cs =>
    have hmem : c ∈ Nat.toDigits 10 n := by
      simp [hcons]
    exact ⟨c, cs, rfl, Nat.isDigit_of_mem_toDigits (by decide) (by decide) hmem⟩

theorem readNumber?_toDigits {n : Nat} (hn : n ≤ maxNatural) {rest : List Char} (h : Ends rest) :
    readNumber? (Nat.toDigits 10 n ++ rest) = some (.ok (.natural n, rest)) := by
  obtain ⟨c, cs, hcons, hc⟩ := exists_digit_toDigits n
  have hunsigned := unsigned_toDigits hn h
  rw [hcons, List.cons_append] at hunsigned ⊢
  unfold readNumber?
  split
  · rename_i heq
    exact absurd (List.cons.inj heq).1 (ne_of_isDigit hc (by decide))
  · rename_i heq
    obtain ⟨rfl, rfl⟩ := List.cons.inj heq
    rw [if_pos hc, hunsigned]
  · rename_i heq
    cases heq

theorem codes_word : Codes .word fun word => .nat word.toNat where
  opens word := by
    obtain ⟨c, cs, hcons, hc⟩ := exists_digit_toDigits word.toNat
    exact ⟨c, cs, hcons, not_isBlankChar_of_isDigit hc, ne_of_isDigit hc (by decide),
      ne_of_isDigit hc (by decide)⟩
  reads word rest h := by
    obtain ⟨c, cs, hcons, hc⟩ := exists_digit_toDigits word.toNat
    have hword : word.toNat < Nat.pow 2 32 := word.toNat_lt
    have hfits : word.toNat ≤ maxNatural := Nat.le_of_lt (Nat.lt_trans hword (by decide))
    have hnumber := readNumber?_toDigits hfits h
    show readWord (Nat.toDigits 10 word.toNat ++ rest) = .ok (word, rest)
    rw [hcons, List.cons_append] at hnumber ⊢
    simp only [readWord, skipBlanks_cons (not_isBlankChar_of_isDigit hc), hnumber, wordOf, hword,
      if_true, UInt32.ofNat_toNat]
  takes word := by
    have hword : word.toNat < Nat.pow 2 32 := word.toNat_lt
    simp only [Decoder.word, Json.nat, wordOf, hword, if_true, UInt32.ofNat_toNat]

/-! ### Separators -/

/-- What stands between an item or a member and the one before it, if there is one. -/
def separator (first : Bool) : List Char :=
  if first then [] else [',']

/-- The text of items, with a separator in front unless they are the first. -/
def itemsFrom (first : Bool) : List Json → List Char
  | [] => []
  | item :: rest => separator first ++ compactChars item ++ itemsFrom false rest

/-- The text of members, with a separator in front unless they are the first. -/
def membersFrom (first : Bool) : List (String × Json) → List Char
  | [] => []
  | (name, value) :: rest =>
    separator first ++ (stringText name ++ ':' :: compactChars value) ++ membersFrom false rest

theorem compactItems_eq (items : List Json) : compactItems items = itemsFrom true items := by
  match items with
  | [] => simp [compactItems, itemsFrom]
  | [item] => simp [compactItems, itemsFrom, separator]
  | item :: next :: rest =>
    have ih := compactItems_eq (next :: rest)
    simp only [itemsFrom, separator, if_true, List.nil_append] at ih
    simp [compactItems, itemsFrom, separator, ih]

theorem compactMembers_eq (members : List (String × Json)) :
    compactMembers members = membersFrom true members := by
  match members with
  | [] => simp [compactMembers, membersFrom]
  | [(name, value)] => simp [compactMembers, membersFrom, separator]
  | (name, value) :: next :: rest =>
    have ih := compactMembers_eq (next :: rest)
    simp only [membersFrom, separator, if_true, List.nil_append] at ih
    simp [compactMembers, membersFrom, separator, ih]

theorem ends_itemsFrom (items : List Json) (rest : List Char) :
    Ends (itemsFrom false items ++ ']' :: rest) := by
  cases items with
  | nil => exact .inr (.inl rfl)
  | cons item items => exact .inl rfl

theorem ends_membersFrom (members : List (String × Json)) (rest : List Char) :
    Ends (membersFrom false members ++ '\x7d' :: rest) := by
  cases members with
  | nil => exact .inr (.inr (.inl rfl))
  | cons member members => exact .inl rfl

theorem nextItem_separator (first : Bool) {s : List Char} (h : Opens s) (rest : List Char) :
    nextItem first (separator first ++ s ++ rest) = .ok (some (s ++ rest)) := by
  obtain ⟨c, tail, rfl, hblank, hend, -⟩ := h
  cases first with
  | true => simp [separator, nextItem, skipBlanks_cons hblank, hend]
  | false =>
    have hcomma : isBlankChar ',' = false := by
      decide
    simp [separator, nextItem, skipBlanks_cons hcomma, skipBlanks_cons hblank, hend]

theorem readName_stringText (name : String) (rest : List Char) :
    readName (stringText name ++ rest) = .ok (name, rest) := by
  simp [stringText, readName, stringBody_flatMap]

theorem nextName_separator (first : Bool) (name : String) (rest : List Char) :
    nextName first (separator first ++ stringText name ++ rest) = .ok (some name, rest) := by
  have hname := readName_stringText name rest
  have hquote : isBlankChar '"' = false := by
    decide
  have hcomma : isBlankChar ',' = false := by
    decide
  simp only [stringText, List.append_assoc, List.cons_append, List.nil_append] at hname ⊢
  cases first with
  | true => simp [separator, nextName, skipBlanks_cons hquote, hname]
  | false => simp [separator, nextName, skipBlanks_cons hcomma, skipBlanks_cons hquote, hname]

theorem nextName_end (first : Bool) (rest : List Char) :
    nextName first ('\x7d' :: rest) = .ok (none, rest) := by
  rfl

theorem colon_cons (rest : List Char) : colon (':' :: rest) = .ok rest := by
  rfl

/-! ### Lists, maps and values that may be absent -/

section
variable {α : Type} {decoder : Decoder α} {toJson : α → Json}

theorem readItems_end {first : Bool} {s rest : List Char} (hnext : nextItem first s = .ok none)
    (hend : endList s = .ok rest) : readItems decoder first s = .ok ([], rest) := by
  rw [readItems]
  split <;> simp_all

theorem readItems_item {first : Bool} {s t rest after : List Char} {value : α} {values : List α}
    (hnext : nextItem first s = .ok (some t)) (hread : decoder.read t = .ok (value, rest))
    (hitems : readItems decoder false rest = .ok (values, after)) :
    readItems decoder first s = .ok (value :: values, after) := by
  rw [readItems]
  split <;> grind

theorem Codes.readItems (h : Codes decoder toJson) (first : Bool) (values : List α)
    (rest : List Char) :
    readItems decoder first (itemsFrom first (values.map toJson) ++ ']' :: rest) =
      .ok (values, rest) := by
  induction values generalizing first with
  | nil => exact readItems_end rfl rfl
  | cons value values ih =>
    have hends := ends_itemsFrom (values.map toJson) rest
    have hnext := nextItem_separator first (h.opens value)
      (itemsFrom false (values.map toJson) ++ ']' :: rest)
    rw [List.map_cons, itemsFrom, List.append_assoc]
    exact readItems_item hnext (h.reads value _ hends) (ih false)

theorem mapM_eq_ok_of_forall {β : Type} {f : β → Except Cause α} {g : α → β} {values : List α}
    (h : ∀ value ∈ values, f (g value) = .ok value) : (values.map g).mapM f = .ok values := by
  induction values with
  | nil => rfl
  | cons value values ih =>
    obtain ⟨hvalue, hvalues⟩ := List.forall_mem_cons.mp h
    rw [List.map_cons, List.mapM_cons, hvalue, ih hvalues]
    rfl

theorem Codes.list (h : Codes decoder toJson) :
    Codes decoder.list fun values => .array (values.map toJson) where
  opens values := ⟨'[', _, rfl, by decide, by decide, by decide⟩
  reads values rest _ := by
    have hopen : isBlankChar '[' = false := by
      decide
    simp [Decoder.list, compactChars, readList, skipBlanks_cons hopen, compactItems_eq, h.readItems]
  takes values := mapM_eq_ok_of_forall fun value _ => h.takes value

/-- A value that is there is read as one that may be absent. -/
theorem Codes.read_option (h : Codes decoder toJson) (value : α) {rest : List Char}
    (hrest : Ends rest) :
    decoder.option.read (compactChars (toJson value) ++ rest) = .ok (some value, rest) := by
  have hread := h.reads value rest hrest
  obtain ⟨c, tail, hopen, hblank, -, hnull⟩ := h.opens value
  rw [hopen, List.cons_append] at hread ⊢
  simp [Decoder.option, readOption, skipBlanks_cons hblank, hnull, hread]

/-- What is written for a value is not `null`. -/
theorem Codes.ne_null (h : Codes decoder toJson) (value : α) : toJson value ≠ .null := by
  intro hnull
  obtain ⟨c, tail, hopen, -, -, hne⟩ := h.opens value
  rw [hnull] at hopen
  exact hne (List.cons.inj hopen).1.symm

theorem Codes.take_option (h : Codes decoder toJson) (value : α) :
    decoder.option.ofJson (toJson value) = .ok (some value) := by
  have htake := h.takes value
  have hne := h.ne_null value
  generalize toJson value = json at htake hne
  cases json with
  | null => exact absurd rfl hne
  | _ => simp only [Decoder.option, htake, Except.map]

theorem readMembers_end {item : String → Decoder α} {first : Bool} {s rest : List Char}
    (hname : nextName first s = .ok (none, rest)) : readMembers item first s = .ok ([], rest) := by
  rw [readMembers]
  split <;> simp_all

theorem readMembers_member {item : String → Decoder α} {first : Bool} {name : String}
    {s t u rest after : List Char} {value : α} {members : List (String × α)}
    (hname : nextName first s = .ok (some name, t)) (hcolon : colon t = .ok u)
    (hread : (item name).read u = .ok (value, rest))
    (hmembers : readMembers item false rest = .ok (members, after)) :
    readMembers item first s = .ok ((name, value) :: members, after) := by
  rw [readMembers]
  split <;> grind

theorem Codes.readMembers (h : Codes decoder toJson) (first : Bool) (entries : List (String × α))
    (rest : List Char) :
    readMembers (fun _ => decoder) first
        (membersFrom first (entries.map fun entry => (entry.1, toJson entry.2)) ++ '\x7d' :: rest) =
      .ok (entries, rest) := by
  induction entries generalizing first with
  | nil => exact readMembers_end (nextName_end first rest)
  | cons entry entries ih =>
    obtain ⟨name, value⟩ := entry
    have hends := ends_membersFrom (entries.map fun entry => (entry.1, toJson entry.2)) rest
    have hname := nextName_separator first name
    rw [List.map_cons, membersFrom]
    simp only [List.append_assoc, List.cons_append] at hname ⊢
    exact readMembers_member (hname _) (colon_cons _) (h.reads value _ hends) (ih false)

theorem Codes.read_map (h : Codes decoder toJson) (entries : List (String × α)) (rest : List Char) :
    decoder.map.read (compactChars (.object
      (entries.map fun entry => (entry.1, toJson entry.2))) ++ rest) =
      .ok (.ofEntries entries, rest) := by
  have hopen : isBlankChar '\x7b' = false := by
    decide
  simp [Decoder.map, compactChars, readMap, skipBlanks_cons hopen, compactMembers_eq, h.readMembers]

theorem Codes.take_map (h : Codes decoder toJson) (entries : List (String × α)) :
    decoder.map.ofJson (.object (entries.map fun entry => (entry.1, toJson entry.2))) =
      .ok (.ofEntries entries) := by
  simp only [Decoder.map, Keyed.ofEntries_map]
  refine mapM_eq_ok_of_forall fun entry _ => ?_
  simp only [h.takes, Except.map]

end

/-! ### Records -/

section
variable {α ρ : Type} {decoder : Decoder α} {toJson : α → Json} {name : String}

/-- Members that stand for fields, in the order of the fields, and take one record to another. A
field that is left out has its value in the record already. -/
inductive Writes : List (Field ρ) → List (String × Json) → ρ → ρ → Prop
  | done (record : ρ) : Writes [] [] record record
  | absent {field : Field ρ} {fields members record last} :
    Writes fields members record last → Writes (field :: fields) members record last
  | present {field : Field ρ} {json fields members record last} (put : ρ → ρ)
    (hread : ∀ rest, Ends rest → field.read (compactChars json ++ rest) = .ok (put, rest))
    (htake : field.ofJson json = .ok put) :
    Writes fields members (put record) last →
      Writes (field :: fields) ((field.name, json) :: members) record last

theorem readFields_end {shape : Shape ρ} {first : Bool} {s rest : List Char}
    (hname : nextName first s = .ok (none, rest)) (seen : List String) (record : ρ) :
    readFields shape first seen record s = .ok (record, rest) := by
  rw [readFields]
  split <;> simp_all

theorem readFields_field {shape : Shape ρ} {first : Bool} {seen : List String} {record : ρ}
    {name : String} {s t u rest : List Char} {field : Field ρ} {put : ρ → ρ}
    (hname : nextName first s = .ok (some name, t)) (hcolon : colon t = .ok u)
    (hfield : shape.field? name = some field) (hseen : name ∉ seen)
    (hread : field.read u = .ok (put, rest)) :
    readFields shape first seen record s =
      readFields shape false (name :: seen) (put record) rest := by
  rw [readFields]
  split <;> grind

/-- Each field is found by its name, as no two have the same. -/
theorem find?_name {fields : List (Field ρ)} (hnames : (fields.map Field.name).Nodup)
    {field : Field ρ} (h : field ∈ fields) : fields.find? (·.name = field.name) = some field := by
  induction fields with
  | nil => cases h
  | cons other fields ih =>
    rw [List.map_cons, List.nodup_cons] at hnames
    rcases List.mem_cons.1 h with rfl | h
    · simp
    · have hne : other.name ≠ field.name := fun heq => hnames.1 (heq ▸ List.mem_map_of_mem h)
      simp [hne, ih hnames.2 h]

/-- The members that are written for fields are read into the record, one field after the other. -/
theorem Writes.readFields {shape : Shape ρ} (hnames : (shape.fields.map Field.name).Nodup)
    {fields : List (Field ρ)} {members : List (String × Json)} {record last : ρ}
    (h : Writes fields members record last) (hfields : ∀ field ∈ fields, field ∈ shape.fields)
    (hdistinct : (fields.map Field.name).Nodup) {seen : List String}
    (hseen : ∀ field ∈ fields, field.name ∉ seen) (first : Bool) (rest : List Char) :
    readFields shape first seen record (membersFrom first members ++ '\x7d' :: rest) =
      .ok (last, rest) := by
  induction h generalizing seen first with
  | done record => exact readFields_end (nextName_end first rest) seen record
  | absent _ ih =>
    rw [List.map_cons, List.nodup_cons] at hdistinct
    exact ih (fun field hmem => hfields field (.tail _ hmem)) hdistinct.2
      (fun field hmem => hseen field (.tail _ hmem)) first
  | @present field json fields members record last put hread _ _ ih =>
    rw [List.map_cons, List.nodup_cons] at hdistinct
    have hends := ends_membersFrom members rest
    have hname := nextName_separator first field.name
    rw [membersFrom]
    simp only [List.append_assoc, List.cons_append] at hname ⊢
    rw [readFields_field (hname _) (colon_cons _) (find?_name hnames (hfields field (.head _)))
      (hseen field (.head _)) (hread _ hends)]
    refine ih (fun other hmem => hfields other (.tail _ hmem)) hdistinct.2
      (fun other hmem hin => ?_) false
    rcases List.mem_cons.1 hin with heq | hin
    · exact hdistinct.1 (heq ▸ List.mem_map_of_mem hmem)
    · exact hseen other (.tail _ hmem) hin

theorem Writes.read_record {shape : Shape ρ} (hnames : (shape.fields.map Field.name).Nodup)
    {members : List (String × Json)} {record : ρ}
    (h : Writes shape.fields members shape.initial record) (rest : List Char) :
    (Decoder.record shape).read (compactChars (.object members) ++ rest) = .ok (record, rest) := by
  have hopen : isBlankChar '\x7b' = false := by
    decide
  have hseen : ∀ field ∈ shape.fields, field.name ∉ [] := by
    simp
  have hfields := h.readFields hnames (fun _ => id) hnames hseen true rest
  simp [Decoder.record, compactChars, readRecord, skipBlanks_cons hopen, compactMembers_eq, hfields]

theorem Writes.names_sublist {fields : List (Field ρ)} {members : List (String × Json)}
    {record last : ρ} (h : Writes fields members record last) :
    (members.map Prod.fst).Sublist (fields.map Field.name) := by
  induction h with
  | done => exact .refl _
  | absent _ ih => exact ih.cons _
  | present _ _ _ _ ih => exact ih.cons_cons _

/-- The members that are written for fields put the record together. -/
theorem Writes.putMembers {shape : Shape ρ} (hnames : (shape.fields.map Field.name).Nodup)
    {fields : List (Field ρ)} {members : List (String × Json)} {record last : ρ}
    (h : Writes fields members record last) (hfields : ∀ field ∈ fields, field ∈ shape.fields) :
    putMembers shape record members = .ok last := by
  induction h with
  | done => rfl
  | absent _ ih => exact ih fun field hmem => hfields field (.tail _ hmem)
  | @present field json _ _ _ _ put _ htake _ ih =>
    have hfield : shape.field? field.name = some field :=
      find?_name hnames (hfields field (.head _))
    rw [Json.putMembers, hfield]
    simp only [htake]
    exact ih fun other hmem => hfields other (.tail _ hmem)

theorem Writes.take_record {shape : Shape ρ} (hnames : (shape.fields.map Field.name).Nodup)
    (hapart : shape.fields.Pairwise Field.Apart) {members : List (String × Json)} {record : ρ}
    (h : Writes shape.fields members shape.initial record) :
    recordOf shape (.object members) = .ok record :=
  recordOf_object hapart (hnames.sublist h.names_sublist) (h.putMembers hnames fun _ => id)

/-- A record is read back if its members are written in the order of its fields. -/
theorem codes_record {shape : Shape ρ} {members : ρ → List (String × Json)}
    (hnames : (shape.fields.map Field.name).Nodup) (hapart : shape.fields.Pairwise Field.Apart)
    (h : ∀ record, Writes shape.fields (members record) shape.initial record) :
    Codes (.record shape) fun record => .object (members record) where
  opens record := ⟨'\x7b', _, rfl, by decide, by decide, by decide⟩
  reads record rest _ := (h record).read_record hnames rest
  takes record := (h record).take_record hnames hapart

/-! ### Members of a record -/

theorem read_field_of {put : α → ρ → ρ} {value : α} {json : Json}
    (h : ∀ rest, Ends rest → decoder.read (compactChars json ++ rest) = .ok (value, rest))
    (rest : List Char) (hrest : Ends rest) :
    (Field.of name decoder put).read (compactChars json ++ rest) = .ok (put value, rest) := by
  simp [Field.of, readField, h rest hrest]

theorem take_field_of {put : α → ρ → ρ} {value : α} {json : Json}
    (h : decoder.ofJson json = .ok value) :
    (Field.of name decoder put).ofJson json = .ok (put value) := by
  simp only [Field.of, h, Except.map]

variable {fields : List (Field ρ)} {members : List (String × Json)} {record last : ρ}

theorem Writes.of_append_nil (h : Writes fields (members ++ []) record last) :
    Writes fields members record last := by
  rwa [List.append_nil] at h

/-- A member that is always there. -/
theorem Writes.always (h : Codes decoder toJson) {put : α → ρ → ρ} {value : α}
    (hrest : Writes fields members (put value record) last) :
    Writes (.of name decoder put :: fields) ((name, toJson value) :: members) record last :=
  .present (put value) (read_field_of (h.reads value)) (take_field_of (h.takes value)) hrest

/-- A text that is left out if it is empty. -/
theorem Writes.text {put : String → ρ → ρ} {s : String} (hempty : put "" record = record)
    (hrest : Writes fields members (put s record) last) :
    Writes (.of name .string put :: fields) (textMember name s ++ members) record last := by
  unfold textMember
  split
  · rename_i h
    rw [h, hempty] at hrest
    exact .absent hrest
  · exact .always codes_string hrest

/-- A value that is left out if it is absent. -/
theorem Writes.option (h : Codes decoder toJson) {put : Option α → ρ → ρ} {value : Option α}
    (hempty : put none record = record) (hrest : Writes fields members (put value record) last) :
    Writes (.of name decoder.option put :: fields)
      (optionMember name toJson value ++ members) record last := by
  cases value with
  | none =>
    rw [hempty] at hrest
    exact .absent hrest
  | some value =>
    exact .present (put (some value)) (read_field_of fun _ => h.read_option value)
      (take_field_of (h.take_option value)) hrest

/-- A list that is left out if it is empty. -/
theorem Writes.list (h : Codes decoder toJson) {put : List α → ρ → ρ} {values : List α}
    (hempty : put [] record = record) (hrest : Writes fields members (put values record) last) :
    Writes (.of name decoder.list put :: fields)
      (listMember name toJson values ++ members) record last := by
  cases values with
  | nil =>
    rw [hempty] at hrest
    exact .absent hrest
  | cons value values => exact .always h.list hrest

end

/-! ### Whole texts -/

theorem parse_compact_of_read {α : Type} {decoder : Decoder α} {json : Json} {value : α}
    (h : decoder.read (compactChars json ++ []) = .ok (value, [])) :
    decoder.parse (compact json) = .ok value := by
  rw [List.append_nil] at h
  simp [Decoder.parse, compact, h, skipBlanks]

theorem Codes.parse_compact {α : Type} {decoder : Decoder α} {toJson : α → Json}
    (h : Codes decoder toJson) (value : α) : decoder.parse (compact (toJson value)) = .ok value :=
  parse_compact_of_read (h.reads value [] trivial)

end PackageReadme.Json
