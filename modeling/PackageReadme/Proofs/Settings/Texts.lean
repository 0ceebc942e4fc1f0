import PackageReadme.Proofs.Settings.Agreement
import PackageReadme.Proofs.Settings.Nesting

/-! Settings that are texts, from variables.

A text without blanks around it is the value of its variable exactly if it is written as no other
value (`Typed`) and reading it does not break down (`exists_value_text_iff`). So these are the texts
that a title or an import path can be set to by a variable. Main statement:
`loadSettings_text_iff`. -/
namespace PackageReadme
open Setting

namespace Environment
open Text

/-! ### Numbers -/

/-- Digits only. -/
def Digits (s : List Char) : Prop :=
  ∀ c ∈ s, c.isDigit = true

theorem isSome_decimal?_iff {s : List Char} : (decimal? s).isSome = true ↔ s ≠ [] ∧ Digits s := by
  unfold decimal?
  split
  · rename_i h
    simp only [Bool.or_eq_true, List.isEmpty_iff, Bool.not_eq_true', Option.isSome_none,
      Bool.false_eq_true, false_iff]
      at h ⊢
    intro ⟨hne, hdigits⟩
    rcases h with h | h
    · exact hne h
    · rw [List.all_eq_true.mpr hdigits] at h
      cases h
  · rename_i h
    simpa [Digits] using h

theorem digits_of_decimal? {s : List Char} {n : Nat} (h : decimal? s = some n) :
    s ≠ [] ∧ Digits s :=
  isSome_decimal?_iff.mp (by rw [h]; rfl)

theorem positive?_eq_some_iff {s : List Char} {n : Nat} :
    positive? s = some n ↔ ∃ sign ∈ [[], ['+']], ∃ digits, decimal? digits = some n ∧
      s = sign ++ digits := by
  constructor
  · intro h
    unfold positive? at h
    split at h
    · exact ⟨['+'], by simp, _, h, rfl⟩
    · exact ⟨[], by simp, _, h, rfl⟩
  · intro ⟨sign, hsign, digits, hdigits, hs⟩
    subst hs
    rcases List.mem_pair.mp hsign with rfl | rfl
    · unfold positive?
      split
      · rename_i rest heq
        rw [show digits = '+' :: rest from heq] at hdigits
        cases (digits_of_decimal? hdigits).2 '+' (List.mem_cons_self ..)
      · exact hdigits
    · exact hdigits

/-- An integer in the range of those that are read. -/
inductive IsInteger : List Char → Prop
  | natural {sign digits : List Char} {n : Nat} :
    sign ∈ [[], ['+']] → decimal? digits = some n → n < Nat.pow 2 64 →
    IsInteger (sign ++ digits)
  | negative {digits : List Char} {n : Nat} :
      decimal? digits = some n → n ≤ Nat.pow 2 63 → IsInteger ('-' :: digits)

theorem isSome_integer?_iff {s : List Char} : (integer? s).isSome = true ↔ IsInteger s := by
  rw [Option.isSome_iff_exists]
  constructor
  · intro ⟨number, h⟩
    unfold integer? at h
    split at h
    · obtain ⟨n, hn, hrange⟩ := Option.bind_eq_some_iff.mp h
      exact .negative hn (Option.ite_none_right_eq_some.mp hrange).1
    · obtain ⟨n, hn, hrange⟩ := Option.bind_eq_some_iff.mp h
      obtain ⟨sign, hsign, digits, hdigits, rfl⟩ := positive?_eq_some_iff.mp hn
      exact .natural hsign hdigits (Option.ite_none_right_eq_some.mp hrange).1
  · intro h
    cases h with
    | @natural sign digits n hsign hdigits hlt =>
      have hpositive := positive?_eq_some_iff.mpr ⟨sign, hsign, digits, hdigits, rfl⟩
      refine ⟨.natural n, ?_⟩
      unfold integer?
      split
      · rename_i rest heq
        rw [heq] at hpositive
        cases hpositive
      · rw [hpositive]
        exact if_pos hlt
    | @negative digits n hdigits hle =>
      refine ⟨.negative n, ?_⟩
      rw [integer?, hdigits]
      exact if_pos hle

inductive IsExponent : List Char → Prop
  | none : IsExponent []
  | power {mark : Char} {sign digits : List Char} :
    mark ∈ ['e', 'E'] → sign ∈ [[], ['+'], ['-']] → digits ≠ [] →
    Digits digits → IsExponent (mark :: sign ++ digits)

theorem isSome_exponent?_iff {s : List Char} : (exponent? s).isSome = true ↔ IsExponent s := by
  constructor
  · intro h
    unfold exponent? at h
    split at h
    · exact .none
    · rename_i mark rest
      split at h
      · rename_i hmark
        have hmark : mark ∈ ['e', 'E'] := by simpa using hmark
        split at h
        · rename_i digits
          cases hn : decimal? digits with
          | none => simp [hn] at h
          | some n =>
            obtain ⟨hne, hdigits⟩ := digits_of_decimal? hn
            exact .power hmark (show ['-'] ∈ _ by simp) hne hdigits
        · obtain ⟨n, hn⟩ := Option.isSome_iff_exists.mp (Option.isSome_map ▸ h)
          obtain ⟨sign, hsign, digits, hdigits, rfl⟩ := positive?_eq_some_iff.mp hn
          obtain ⟨hne, hdigits⟩ := digits_of_decimal? hdigits
          exact .power hmark (List.mem_append_left [['-']] hsign) hne hdigits
      · cases h
  · intro h
    cases h with
    | none => rfl
    | @power mark sign digits hmark hsign hne hdigits =>
      obtain ⟨n, hn⟩ := Option.isSome_iff_exists.mp (isSome_decimal?_iff.mpr ⟨hne, hdigits⟩)
      have hmark : (mark = 'e' || mark = 'E') = true := by simpa using hmark
      rcases List.mem_append.mp (show sign ∈ [[], ['+']] ++ [['-']] from hsign) with hsign | hsign
      · have hpositive := positive?_eq_some_iff.mpr ⟨sign, hsign, digits, hn, rfl⟩
        unfold exponent?
        simp only [List.cons_append, if_pos hmark]
        split
        · rename_i rest heq
          rw [heq] at hpositive
          cases hpositive
        · rw [hpositive]
          rfl
      · rw [List.mem_singleton.mp hsign]
        simp [exponent?, hmark, hn]

theorem IsExponent.stops {s : List Char} (h : IsExponent s) : Stops Char.isDigit s := by
  cases h with
  | none => exact stops_of_forall (List.forall_mem_nil _)
  | power hmark _ _ _ =>
    refine stops_cons ?_
    rcases List.mem_pair.mp hmark with rfl | rfl <;> decide

/-- A number with a point, without its sign. -/
inductive IsUnsigned : List Char → Prop
  | intro {whole fraction exponent : List Char} :
    Digits whole → Digits fraction → whole ++ fraction ≠ [] →
    IsExponent exponent → IsUnsigned (whole ++ '.' :: (fraction ++ exponent))

theorem isSome_unsignedFraction?_iff {s : List Char} :
    (unsignedFraction? s).isSome = true ↔ IsUnsigned s := by
  constructor
  · intro h
    unfold unsignedFraction? at h
    simp only at h
    split at h
    · rename_i rest hrest
      split at h
      · rename_i significand exponent hdigits hexponent
        have hs : s = s.takeWhile Char.isDigit ++ '.' :: rest := by
          rw [← hrest, takeWhile_append_drop]
        rw [hs, ← takeWhile_append_drop Char.isDigit rest]
        exact .intro (fun c => List.mem_takeWhile_imp) (fun c => List.mem_takeWhile_imp)
          (digits_of_decimal? hdigits).1
          (isSome_exponent?_iff.mp (by rw [hexponent]; rfl))
      · cases h
    · cases h
  · intro h
    obtain @⟨whole, fraction, exponent, hwhole, hfraction, hne, hexponent⟩ := h
    obtain ⟨significand, hsignificand⟩ := Option.isSome_iff_exists.mp
      (isSome_decimal?_iff.mpr ⟨hne, List.forall_mem_append.mpr ⟨hwhole, hfraction⟩⟩)
    obtain ⟨power, hpower⟩ := Option.isSome_iff_exists.mp (isSome_exponent?_iff.mpr hexponent)
    have hfirst : (whole ++ '.' :: (fraction ++ exponent)).takeWhile Char.isDigit = whole :=
      takeWhile_eq_iff.mpr ⟨_, rfl, hwhole, stops_cons (by decide)⟩
    have hsecond : (fraction ++ exponent).takeWhile Char.isDigit = fraction :=
      takeWhile_eq_iff.mpr ⟨_, rfl, hfraction, hexponent.stops⟩
    simp [unsignedFraction?, hfirst, hsecond, hsignificand, hpower]

theorem IsUnsigned.stops {s : List Char} (h : IsUnsigned s) :
    Stops (fun c => c == '-' || c == '+') s := by
  obtain @⟨whole, fraction, exponent, hwhole, -, -, -⟩ := h
  refine (stops_of_forall fun c hc => ?_).append_stops (stops_cons rfl)
  simp [ne_of_class (hwhole c hc) (by decide : '-'.isDigit = false),
    ne_of_class (hwhole c hc) (by decide : '+'.isDigit = false)]

/-- A number with a point. -/
inductive IsFraction : List Char → Prop
  | intro {sign s : List Char} : sign ∈ [[], ['+'], ['-']] → IsUnsigned s → IsFraction (sign ++ s)

theorem isSome_fraction?_iff {s : List Char} : (fraction? s).isSome = true ↔ IsFraction s := by
  constructor
  · intro h
    unfold fraction? at h
    split at h <;> rw [Option.isSome_map, isSome_unsignedFraction?_iff] at h
    · exact .intro (show ['-'] ∈ _ by simp) h
    · exact .intro (show ['+'] ∈ _ by simp) h
    · exact .intro (show [] ∈ _ by simp) h
  · intro h
    obtain @⟨sign, s, hsign, hs⟩ := h
    have hsome := isSome_unsignedFraction?_iff.mpr hs
    simp only [List.mem_cons, List.not_mem_nil, or_false] at hsign
    rcases hsign with rfl | rfl | rfl
    · rw [List.nil_append]
      unfold fraction?
      split
      · cases hs.stops _ _ rfl
      · cases hs.stops _ _ rfl
      · rw [Option.isSome_map, hsome]
    · rw [List.singleton_append, fraction?, Option.isSome_map, hsome]
    · rw [List.singleton_append, fraction?, Option.isSome_map, hsome]

inductive IsNumber : List Char → Prop
  | integer {s : List Char} : IsInteger s → IsNumber s
  | fraction {s : List Char} : IsFraction s → IsNumber s

/-- A text without blanks around it stands for a number or for itself. -/
theorem bare_cases {s : List Char} (htrim : trim s = s) :
    (IsNumber s ∧ ∃ n, bare s = .number n) ∨ (¬ IsNumber s ∧ bare s = .text (String.ofList s)) := by
  rw [bare, htrim]
  split
  · rename_i n hfraction
    split at hfraction
    · exact .inl ⟨.fraction (isSome_fraction?_iff.mp (by rw [hfraction]; rfl)), n, rfl⟩
    · cases hfraction
  · rename_i hfraction
    split
    · rename_i n hinteger
      exact .inl ⟨.integer (isSome_integer?_iff.mp (by rw [hinteger]; rfl)), n, rfl⟩
    · rename_i hinteger
      refine .inr ⟨fun hnumber => ?_, rfl⟩
      cases hnumber with
      | integer h =>
        have hsome := isSome_integer?_iff.mpr h
        rw [hinteger] at hsome
        cases hsome
      | fraction h =>
        have hsome := isSome_fraction?_iff.mpr h
        have hpoint : s.contains '.' = true := by
          obtain @⟨sign, _, -, ⟨-, -, -, -⟩⟩ := h
          simp
        rw [if_pos hpoint] at hfraction
        rw [hfraction] at hsome
        cases hsome

/-- A character of a number. -/
def isNumeric (c : Char) : Bool :=
  c.isDigit || ['+', '-', '.', 'e', 'E'].contains c

theorem isNumeric_of_sign {sign : List Char} (h : sign ∈ [[], ['+'], ['-']]) :
    ∀ c ∈ sign, isNumeric c = true := by
  simp only [List.mem_cons, List.not_mem_nil, or_false] at h
  rcases h with rfl | rfl | rfl
  · exact List.forall_mem_nil _
  · exact List.forall_mem_singleton.mpr rfl
  · exact List.forall_mem_singleton.mpr rfl

theorem Digits.isNumeric {s : List Char} (h : Digits s) : ∀ c ∈ s, isNumeric c = true := by
  intro c hc
  rw [Environment.isNumeric, h c hc, Bool.true_or]

theorem IsExponent.isNumeric {s : List Char} (h : IsExponent s) : ∀ c ∈ s, isNumeric c = true := by
  cases h with
  | none => exact List.forall_mem_nil _
  | power hmark hsign _ hdigits =>
    refine List.forall_mem_append.mpr ⟨List.forall_mem_cons.mpr ⟨?_, isNumeric_of_sign hsign⟩,
      hdigits.isNumeric⟩
    rcases List.mem_pair.mp hmark with rfl | rfl <;> decide

theorem IsNumber.isNumeric {s : List Char} (h : IsNumber s) : ∀ c ∈ s, isNumeric c = true := by
  cases h with
  | integer h =>
    cases h with
    | natural hsign hdigits _ =>
      exact List.forall_mem_append.mpr
        ⟨isNumeric_of_sign (List.mem_append_left [['-']] hsign),
          (digits_of_decimal? hdigits).2.isNumeric⟩
    | negative hdigits _ =>
      exact List.forall_mem_cons.mpr ⟨by decide, (digits_of_decimal? hdigits).2.isNumeric⟩
  | fraction h =>
    obtain @⟨sign, _, hsign, ⟨hwhole, hfraction, -, hexponent⟩⟩ := h
    refine List.forall_mem_append.mpr ⟨isNumeric_of_sign hsign,
      List.forall_mem_append.mpr ⟨hwhole.isNumeric, ?_⟩⟩
    exact List.forall_mem_cons.mpr
      ⟨by decide, List.forall_mem_append.mpr ⟨hfraction.isNumeric, hexponent.isNumeric⟩⟩

theorem IsNumber.isBareWord {s : List Char} (h : IsNumber s) : IsBareWord s := by
  have hne {c : Char} (hc : c ∈ s) {d : Char} (hd : Environment.isNumeric d = false) : c ≠ d :=
    ne_of_class (h.isNumeric c hc) hd
  have hstart {word : List Char} (hword : word.any (fun c => !Environment.isNumeric c) = true) :
      ¬ word <+: s := by
    intro hstart
    obtain ⟨c, hc, hnot⟩ := List.any_eq_true.mp hword
    simp [h.isNumeric c (hstart.subset hc)] at hnot
  refine ⟨fun c hc => ?_, stops_of_forall fun c hc => ?_, hstart (by decide), hstart (by decide),
    stops_of_forall fun c hc => ?_⟩
  · simp [isBare, hne hc (d := ',') (by decide), hne hc (d := '\x7b') (by decide),
      hne hc (d := '\x7d') (by decide), hne hc (d := '[') (by decide),
      hne hc (d := ']') (by decide)]
  · refine Bool.eq_false_iff.mpr fun hgap => ?_
    have hnot := of_isGap (p := fun c => !Environment.isNumeric c) (by decide) hgap
    simp [h.isNumeric c hc] at hnot
  · simp [hne hc (d := '"') (by decide), hne hc (d := '\'') (by decide)]

/-! ### Texts in quotes -/

theorem length_le_of_bind {x : Option Char} {y : Option (List Char)} {text : List Char} {n : Nat}
    (h : (x.bind fun char => y.map (char :: ·)) = some text)
    (hy : ∀ {inner}, y = some inner → inner.length ≤ n) :
    text.length ≤ n + 1 := by
  obtain ⟨char, -, h⟩ := Option.bind_eq_some_iff.mp h
  obtain ⟨inner, hinner, rfl⟩ := Option.map_eq_some_iff.mp h
  exact Nat.succ_le_succ (hy hinner)

theorem length_resolve?_le {s text : List Char} (h : resolve? s = some text) :
    text.length ≤ s.length := by
  fun_induction resolve? s generalizing text with
  | case1 =>
    cases h
    exact Nat.le_refl _
  | case2 a b c d rest ih =>
    exact (length_le_of_bind h ih).trans (by simp only [List.length_cons]; omega)
  | case3 a b c d e f g i rest ih =>
    exact (length_le_of_bind h ih).trans (by simp only [List.length_cons]; omega)
  | case4 c rest _ _ ih =>
    exact (length_le_of_bind h ih).trans (by simp only [List.length_cons]; omega)
  | case5 => cases h
  | case6 c rest _ _ _ _ ih =>
    obtain ⟨inner, hinner, rfl⟩ := Option.map_eq_some_iff.mp h
    exact Nat.succ_le_succ (ih hinner)

theorem length_splitBytes_le {bytes : Nat} {s front rest : List Char}
    (h : splitBytes bytes s = .ok (front, rest)) :
    front.length ≤ bytes := by
  induction s generalizing bytes front rest with
  | nil =>
    cases h
    exact Nat.zero_le _
  | cons c s ih =>
    unfold splitBytes at h
    split at h
    · cases h
      exact Nat.zero_le _
    · split at h
      · cases h
      · rename_i hsize
        split at h
        · rename_i hsplit
          cases h
          have hrest := ih hsplit
          have hpos := c.utf8Size_pos
          simp only [List.length_cons]
          omega
        · cases h

theorem length_slice_le {stop : Nat} {s part : List Char} (h : slice 0 stop s = .ok part) :
    part.length ≤ stop := by
  unfold slice at h
  split at h
  · cases h
  · split at h
    · cases h
    · rename_i hsplit
      cases h
      exact length_splitBytes_le hsplit

theorem found_eq_ok_iff {α : Type} {x : Option α} {value : α} :
    found x = .ok value ↔ x = some value := by
  cases x <;> simp [found]

theorem length_unescape_le {s text : List Char} (h : unescape s = .ok text) :
    text.length ≤ s.length := by
  have hplain : (s.takeWhile (· != '\\')).length ≤ s.length := (List.takeWhile_prefix _).length_le
  unfold unescape at h
  simp only at h
  split at h
  · cases h
  · split at h
    · cases h
      exact hplain
    · split at h
      · cases h
      · rename_i kept hkept
        obtain ⟨resolved, hresolved, rfl⟩ := map_eq_ok_iff.mp h
        have hkept := length_slice_le hkept
        have hresolved := length_resolve?_le (found_eq_ok_iff.mp hresolved)
        rw [List.length_drop] at hresolved
        rw [List.length_append]
        omega

theorem QuotedOf.length_lt {s : List Char} {text : String} (h : QuotedOf s text) :
    text.length < s.length := by
  obtain @⟨part, text, -, htext⟩ := h
  have := length_unescape_le htext
  simp only [String.length_ofList, List.length_cons, List.length_append]
  omega

/-! ### Values that are their own texts -/

/-- A text that is written as a value other than itself. -/
inductive Typed : List Char → Prop
  | yes : Typed "true".toList
  | no : Typed "false".toList
  | number {s : List Char} : IsNumber s → Typed s
  | character {c : Char} : Typed ['\'', c, '\'']
  | quoted {s : List Char} {text : String} : QuotedOf s text → Typed s
  | list {items : List Char} : Spells .items items → Typed ('[' :: items ++ [']'])
  | table {members : List Char} : Spells .members members → Typed ('\x7b' :: members ++ ['\x7d'])

theorem eq_nil_of_trim {before s after : List Char} (hbefore : Gap before) (hafter : Gap after)
    (htrim : trim (before ++ s ++ after) = before ++ s ++ after) : before = [] ∧ after = [] := by
  have hinner : trim (before ++ s ++ after) = trim s := by
    rw [trim_append fun c hc => isBlank_of_isGap (hafter c hc), trim, trimStart,
      List.dropWhile_append_of_pos fun c hc => isBlank_of_isGap (hbefore c hc)]
    rfl
  have hlength : (trim s).length ≤ s.length :=
    (dropTail_isPrefix _ _).length_le.trans (List.dropWhile_suffix _).length_le
  rw [← hinner, htrim, List.length_append, List.length_append] at hlength
  exact ⟨List.length_eq_zero_iff.mp (by omega), List.length_eq_zero_iff.mp (by omega)⟩

theorem Typed.not_shows {text : String} (h : Typed text.toList)
    (htrim : trim text.toList = text.toList) {setting : Setting}
    (hvalue : value text = .ok setting) : ¬ Shows setting (.text text) := by
  -- the forms of values without parts give another scalar, and lists and tables give none
  have hscalar {scalar : Scalar} (hform : ScalarOf text.toList scalar) (hne : scalar ≠ .text text) :
      ¬ Shows setting (.text text) := by
    obtain rfl := Except.ok.inj (hvalue.symm.trans (value_of_scalarOf hform))
    exact fun hshows => hne (Option.some.inj hshows)
  generalize hs : text.toList = s at h hscalar htrim
  cases h with
  | yes => exact hscalar .yes (by simp)
  | no => exact hscalar .no (by simp)
  | number hnumber =>
    rcases bare_cases htrim with ⟨-, n, hn⟩ | ⟨hnot, -⟩
    · exact hscalar (.bare hnumber.isBareWord) (by simp [hn])
    · exact absurd hnumber hnot
  | character =>
    refine hscalar .character fun heq => ?_
    have hlength := congrArg List.length hs
    rw [← Scalar.text.inj heq] at hlength
    simp at hlength
  | quoted hquoted =>
    refine hscalar (.quoted hquoted) fun heq => ?_
    have hlength := hquoted.length_lt
    rw [Scalar.text.inj heq, ← hs, String.length_toList] at hlength
    exact Nat.lt_irrefl _ hlength
  | list hitems =>
    obtain ⟨read, hread⟩ := exists_value_of_list hitems hs
    obtain rfl := Except.ok.inj (hvalue.symm.trans hread)
    exact fun hshows => by cases hshows
  | table hmembers =>
    obtain ⟨read, hread⟩ := exists_value_of_table hmembers hs
    obtain rfl := Except.ok.inj (hvalue.symm.trans hread)
    exact fun hshows => by cases hshows

theorem Spells.typed_or_isBareWord {s : List Char} (h : Spells .value s) (htrim : trim s = s) :
    Typed s ∨ IsBareWord s := by
  cases h with
  | scalar hbefore htext hafter =>
    obtain ⟨rfl, rfl⟩ := eq_nil_of_trim hbefore hafter htrim
    rw [List.nil_append, List.append_nil]
    cases htext with
    | yes => exact .inl .yes
    | no => exact .inl .no
    | quoted hquoted => exact .inl (.quoted hquoted)
    | character => exact .inl .character
    | bare hbare => exact .inr hbare
  | @list before items after hbefore hitems hafter =>
    have hassoc : before ++ '[' :: items ++ ']' :: after =
        before ++ ('[' :: items ++ [']']) ++ after := by simp
    rw [hassoc] at htrim ⊢
    obtain ⟨rfl, rfl⟩ := eq_nil_of_trim hbefore hafter htrim
    rw [List.nil_append, List.append_nil]
    exact .inl (.list hitems)
  | @table before members after hbefore hmembers hafter =>
    have hassoc : before ++ '\x7b' :: members ++ '\x7d' :: after =
        before ++ ('\x7b' :: members ++ ['\x7d']) ++ after := by simp
    rw [hassoc] at htrim ⊢
    obtain ⟨rfl, rfl⟩ := eq_nil_of_trim hbefore hafter htrim
    rw [List.nil_append, List.append_nil]
    exact .inl (.table hmembers)

/-- A text without blanks around it is the value of its variable exactly if it is written as no
other value and reading it does not break down. -/
theorem exists_value_text_iff {text : String} (htrim : trim text.toList = text.toList) :
    (∃ setting, value text = .ok setting ∧ Shows setting (.text text)) ↔
      ¬ Typed text.toList ∧ ¬ Breaks .value text.toList := by
  constructor
  · intro ⟨setting, hvalue, hshows⟩
    refine ⟨fun htyped => htyped.not_shows htrim hvalue hshows, fun hbreaks => ?_⟩
    obtain ⟨broken, hbroken⟩ := exists_value_eq_error_iff.mpr hbreaks
    rw [hbroken] at hvalue
    cases hvalue
  · intro ⟨htyped, hbreaks⟩
    refine ⟨.scalar .environment (.text text), ?_, rfl⟩
    by_cases hspells : Spells .value text.toList
    · have hbare := (hspells.typed_or_isBareWord htrim).resolve_left htyped
      rcases bare_cases htrim with ⟨hnumber, -⟩ | ⟨-, htext⟩
      · exact absurd (.number hnumber) htyped
      · have hvalue := value_of_scalarOf (.bare hbare)
        rwa [htext, String.ofList_toList] at hvalue
    · exact value_of_not_spells hspells hbreaks

end Environment

/-! ### Settings -/

/-- A setting that is a text. -/
inductive TextSetting where
  | title
  | importPath
  deriving DecidableEq, Repr

namespace TextSetting

def name : TextSetting → String
  | .title => "title"
  | .importPath => "import_path"

/-- The variable of a setting. -/
def variableName : TextSetting → String
  | .title => "READMEGEN_TITLE"
  | .importPath => "READMEGEN_IMPORT_PATH"

/-- The settings with one of them set. -/
def only : TextSetting → String → Settings
  | .title, text => { title := text }
  | .importPath, text => { importPath := text }

theorem path?_variableName (setting : TextSetting) :
    Environment.path? setting.variableName = some [setting.name] := by
  cases setting <;> decide +kernel

theorem take_eq (setting : TextSetting) (origin : Origin) (value : Setting) :
    Settings.take (.table origin [(setting.name, value)]) =
      ((takeText value).map setting.only).mapError (·.below setting.name) := by
  cases htext : takeText value <;> cases setting <;>
    simp [Settings.take, takeRecord, fillByName, Settings.slots, Slot.text, Slot.bool, name, only,
      htext, Except.map, Except.mapError]

theorem only_injective (setting : TextSetting) : Function.Injective setting.only := by
  intro a b h
  cases setting with
  | title => exact congrArg Settings.title h
  | importPath => exact congrArg Settings.importPath h

theorem take_iff (setting : TextSetting) {origin : Origin} {value : Setting} {text : String} :
    Settings.take (.table origin [(setting.name, value)]) = .ok (setting.only text) ↔
      Shows value (.text text) := by
  rw [take_eq, mapError_eq_ok_iff, map_eq_ok_iff, ← takeText_iff]
  constructor
  · intro ⟨found, htake, hfound⟩
    rwa [← setting.only_injective hfound]
  · intro htake
    exact ⟨text, htake, rfl⟩

end TextSetting

theorem Environment.layerOver_append {front : List (String × String)}
    (h : ∀ var ∈ front, path? var.1 = none) (base : Setting) (rest : List (String × String)) :
    layerOver base (front ++ rest) = layerOver base rest := by
  induction front with
  | nil => rfl
  | cons var front ih =>
    rw [List.forall_mem_cons] at h
    rw [List.cons_append, layerOver, h.1]
    exact ih h.2

/-- The layer of an environment in which one variable is for a setting. -/
theorem Environment.layer_of_single {before after : List (String × String)} {name key text : String}
    (hkey : path? key = some [name]) (hothers : ∀ var ∈ before ++ after, path? var.1 = none) :
    layer (before ++ (key, text) :: after) =
      (value text).map fun setting => .table .environment [(name, setting)] := by
  obtain ⟨hbefore, hafter⟩ := List.forall_mem_append.mp hothers
  rw [layer, layerOver_append hbefore, layerOver, hkey]
  cases value text with
  | error broken => rfl
  | ok setting =>
    have hrest := layerOver_append hafter
      ((nest setting [name]).laidOver (.table .environment [])) []
    rw [List.append_nil] at hrest
    refine hrest.trans ?_
    rw [nest, nest, laidOver_table]
    simp [layerOver, membersOver, Keyed.get?, Keyed.insert, Except.map]

/-- Variables with no other source beside them give the settings that are taken out of them. -/
theorem load_environment_iff {invocation : Invocation} (hgiven : invocation.given = [])
    {members : Keyed Setting} (hmembers : (table .environment members).Ordered)
    {settings : Settings} :
    Settings.load invocation none (.table .environment members) = .ok settings ↔
      Settings.take (.table .environment members) = .ok settings := by
  obtain ⟨below, hbelow⟩ : ∃ below, Settings.builtIn = .table .builtIn below :=
    ⟨_, ofJson_object .builtIn (by decide)⟩
  have hover : (table .arguments []).laidOver
      ((table .environment members).laidOver Settings.builtIn) =
      .table .arguments (membersOver members below) := by
    rw [hbelow, laidOver_table, laidOver_of_empty]
  have htake : Settings.take (.table .arguments (membersOver members below)) =
      Settings.take ((table .environment members).laidOver Settings.builtIn) := by
    rw [hbelow, laidOver_table]
    rfl
  simp only [Settings.load, Invocation.layer_of_given_eq_nil hgiven, hover, mapError_eq_ok_iff,
    htake, Settings.take_laidOver_builtIn hmembers]

/-- **The texts that a title or an import path can be set to by a variable**, where nothing else
gives settings. A text without blanks around it is set, and all else left as it is built in, exactly
if the text is written as no other value and reading it does not break down. -/
theorem loadSettings_text_iff {world : World} {invocation : Invocation} (setting : TextSetting)
    {text : String} {before after : List (String × String)}
    (hsource : settingsSource world invocation = .ok none) (hgiven : invocation.given = [])
    (henvironment : world.environment = before ++ (setting.variableName, text) :: after)
    (hothers : ∀ var ∈ before ++ after, Environment.path? var.1 = none)
    (htrim : Text.trim text.toList = text.toList) :
    (loadSettings world invocation).1 = .ok (setting.only text) ↔
      ¬ Environment.Typed text.toList ∧ ¬ Environment.Breaks .value text.toList := by
  have hlayer : Environment.layer (before ++ (setting.variableName, text) :: after) = _ :=
    Environment.layer_of_single setting.path?_variableName hothers
  rw [← Environment.exists_value_text_iff htrim]
  simp only [loadSettings, hsource, henvironment, hlayer]
  cases hvalue : Environment.value text with
  | error broken =>
    constructor
    · intro h
      cases h
    · intro h
      obtain ⟨value, hvalue, -⟩ := h
      cases hvalue
  | ok value =>
    have hordered : (table .environment [(setting.name, value)]).Ordered :=
      Environment.Ordered.nest (Environment.ordered_value hvalue) [setting.name]
    refine mapError_eq_ok_iff.trans ((load_environment_iff hgiven hordered).trans
      (setting.take_iff.trans ?_))
    constructor
    · intro hshows
      exact ⟨value, rfl, hshows⟩
    · intro h
      obtain ⟨found, hfound, hshows⟩ := h
      rwa [Except.ok.inj hfound]

/-- A title that begins as a list would. -/
theorem loadSettings_text_iff_bracket :
    let text := "[1, 2] and \"more\""
    let world : World := { environment :=
      [("HOME", "/"), ("READMEGEN_TITLE", text), ("LANG", "C")] }
    let invocation : Invocation := { manifest := "packages.json" }
    settingsSource world invocation = .ok none ∧ invocation.given = [] ∧
      (∀ var ∈ [("HOME", "/")] ++ [("LANG", "C")], Environment.path? var.1 = none) ∧
      Text.trim text.toList = text.toList ∧
      (loadSettings world invocation).1 = .ok { title := text } ∧
      ¬ Environment.Typed text.toList ∧ ¬ Environment.Breaks .value text.toList := by
  intro text world invocation
  have hsource : settingsSource world invocation = .ok none :=
    eq_ok_of_toOption (by decide +kernel +zetaReduce)
  have hothers : ∀ var ∈ [("HOME", "/")] ++ [("LANG", "C")], Environment.path? var.1 = none := by
    decide +kernel
  have htrim : Text.trim text.toList = text.toList := by
    decide +kernel +zetaReduce
  have hload : (loadSettings world invocation).1 = .ok { title := text } :=
    eq_ok_of_toOption (by decide +kernel +zetaReduce)
  exact ⟨hsource, rfl, hothers, htrim, hload,
    (loadSettings_text_iff .title hsource rfl rfl hothers htrim).mp hload⟩

/-- A title of digits is a number, so that there are no settings at all. -/
theorem loadSettings_of_digits :
    let text := "123"
    let world : World := { environment := [("READMEGEN_TITLE", text)] }
    let invocation : Invocation := { manifest := "m.json" }
    settingsSource world invocation = .ok none ∧ invocation.given = [] ∧
      Text.trim text.toList = text.toList ∧
      ∀ settings, (loadSettings world invocation).1 ≠ .ok settings := by
  intro text world invocation
  refine ⟨eq_ok_of_toOption (by decide +kernel +zetaReduce),
    rfl, by decide +kernel +zetaReduce, fun settings h => ?_⟩
  have hnone : (loadSettings world invocation).1.toOption = none := by
    decide +kernel +zetaReduce
  rw [h] at hnone
  cases hnone

end PackageReadme
