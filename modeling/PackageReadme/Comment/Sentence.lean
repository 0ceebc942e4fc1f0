import PackageReadme.Text.Bytes

/-! The first sentence of a text.

A sentence ends at an ideographic full stop, or at a period before a space, unless the period ends a
single capital letter as in `U.S. law` (`EndsSentence`). The end is searched for among the bytes of
the text, with the last three of them in mind, and the text is cut after so many bytes. A cut that
falls inside a character cannot be made, but this one never does: `exists_cutSentence` says that the
cut can be made and that it is at the first end of a sentence. -/
namespace PackageReadme.Comment
open Text

/-! ### Where a sentence ends -/

def endsInCapital (s : List Char) : Bool :=
  s.getLast?.any Char.isUpper

/-- Ends in a capital letter with no capital letter before it. -/
def Abbreviates (s : List Char) : Prop :=
  endsInCapital s = true ∧ endsInCapital s.dropLast = false

/-- A sentence ends between two parts of a text. -/
def EndsSentence (front rest : List Char) : Prop :=
  front.getLast? = some '。' ∨
    front.getLast? = some '.' ∧ rest.head? = some ' ' ∧ ¬ Abbreviates front.dropLast

/-- A text up to the first place where a sentence ends, or all of it if there is none. -/
structure IsFirstSentence (sentence s : List Char) : Prop where
  ends : ∃ rest, s = sentence ++ rest ∧ (rest = [] ∨ EndsSentence sentence rest)
  first : ∀ front rest, s = front ++ rest → front.length < sentence.length →
    ¬ EndsSentence front rest

/-! ### The search -/

/-- The byte of a capital letter. -/
def isCapital (byte : UInt8) : Bool :=
  65 ≤ byte && byte ≤ 90

/-- How many bytes there are up to the first end of a sentence, `index` of which have been read; the
last of these were `c`, `b` and `a`. An end at a period is seen at the space after it, and one at a
full stop at the last of the three bytes that it takes. -/
def sentenceEnd (c b a : UInt8) (index : Nat) : List UInt8 → Nat
  | [] => index
  | byte :: rest =>
    if byte == 32 && a == 46 && (!isCapital b || isCapital c) then index
    else if b == 227 && a == 128 && byte == 130 then index + 1
    else sentenceEnd b a byte (index + 1) rest

/-- The first sentence of a text, cut off where the search ends. -/
def cutSentence (s : List Char) : Except BrokenSlice (List Char) :=
  slice 0 (sentenceEnd 0 0 0 0 (utf8 s)) s

/-! ### Bytes of one character -/

theorem utf8_cons (c : Char) (s : List Char) : utf8 (c :: s) = String.utf8EncodeChar c ++ utf8 s :=
  List.flatMap_cons

/-- A character of ASCII takes the byte of its number. -/
theorem utf8EncodeChar_of_lt {c : Char} (h : c.toNat < 128) :
    String.utf8EncodeChar c = [UInt8.ofNat c.toNat] := by
  have hval : c.val.toNat ≤ 127 := Nat.le_of_lt_succ h
  simp only [String.utf8EncodeChar, if_pos hval]
  rfl

theorem ofNat_eq_iff {c : Char} (h : c.toNat < 128) {n : Nat} (hn : n < 128) :
    UInt8.ofNat c.toNat = UInt8.ofNat n ↔ c.toNat = n := by
  rw [← UInt8.toNat_inj, UInt8.toNat_ofNat_of_lt' (Nat.lt_trans h (by decide)),
    UInt8.toNat_ofNat_of_lt' (Nat.lt_trans hn (by decide))]

theorem isUpper_eq (c : Char) : c.isUpper = decide (65 ≤ c.val ∧ c.val ≤ 90) := rfl

theorem isCapital_ofNat {c : Char} (h : c.toNat < 128) :
    isCapital (UInt8.ofNat c.toNat) = c.isUpper := by
  have hnat : (UInt8.ofNat c.toNat).toNat = c.toNat :=
    UInt8.toNat_ofNat_of_lt' (Nat.lt_trans h (by decide))
  have hval : c.val.toNat = c.toNat := rfl
  simp [isCapital, isUpper_eq, UInt8.le_iff_toNat_le, UInt32.le_iff_toNat_le, hnat, hval]

/-- What the bytes of a character beyond ASCII may be: three of them are those of a full stop only
if it is one, and no other byte of a character is one that a character starts with. -/
theorem utf8EncodeChar_cases {c : Char} (h : 128 ≤ c.toNat) :
    (∃ x y, String.utf8EncodeChar c = [x, y] ∧ 192 ≤ x.toNat ∧ 128 ≤ y.toNat) ∨
      (∃ x y z, String.utf8EncodeChar c = [x, y, z] ∧ 192 ≤ x.toNat ∧ 128 ≤ y.toNat ∧
        128 ≤ z.toNat ∧ (x = 227 → y = 128 → z = 130 → c = '。')) ∨
      ∃ x y z w, String.utf8EncodeChar c = [x, y, z, w] ∧ 240 ≤ x.toNat ∧ 128 ≤ y.toNat ∧
        y.toNat < 192 ∧ 128 ≤ z.toNat ∧ 128 ≤ w.toNat := by
  have hbyte : ∀ {n : Nat}, n < 256 → (UInt8.ofNat n).toNat = n :=
    fun hn => UInt8.toNat_ofNat_of_lt' hn
  have hval : ¬ c.val.toNat ≤ 127 := Nat.not_le_of_lt h
  simp only [String.utf8EncodeChar, if_neg hval]
  split
  · refine .inl ⟨_, _, rfl, ?_⟩
    rw [hbyte (by omega), hbyte (by omega)]
    omega
  · split
    · refine .inr (.inl ⟨_, _, _, rfl, ?_⟩)
      simp only [← UInt8.toNat_inj]
      rw [hbyte (by omega), hbyte (by omega), hbyte (by omega)]
      refine ⟨by omega, by omega, by omega, fun hx hy hz => Char.ext (UInt32.toNat.inj ?_)⟩
      show c.val.toNat = 12290
      simp only [UInt8.reduceToNat] at hx hy hz
      omega
    · refine .inr (.inr ⟨_, _, _, _, rfl, ?_⟩)
      rw [hbyte (by omega), hbyte (by omega), hbyte (by omega), hbyte (by omega)]
      omega

theorem le_of_mem_utf8EncodeChar {c : Char} (h : 128 ≤ c.toNat) {byte : UInt8}
    (hbyte : byte ∈ String.utf8EncodeChar c) : 128 ≤ byte.toNat := by
  rcases utf8EncodeChar_cases h with ⟨x, y, heq, hx, hy⟩ | ⟨x, y, z, heq, hx, hy, hz, -⟩ |
    ⟨x, y, z, w, heq, hx, hy, -, hz, hw⟩
  · simp only [heq, List.mem_cons, List.not_mem_nil, or_false] at hbyte
    rcases hbyte with rfl | rfl <;> omega
  · simp only [heq, List.mem_cons, List.not_mem_nil, or_false] at hbyte
    rcases hbyte with rfl | rfl | rfl <;> omega
  · simp only [heq, List.mem_cons, List.not_mem_nil, or_false] at hbyte
    rcases hbyte with rfl | rfl | rfl | rfl <;> omega

/-! ### The last bytes -/

/-- The bytes that the search has in mind after a text. -/
def recalled (front : List Char) : List UInt8 :=
  0 :: 0 :: 0 :: utf8 front

theorem recalled_concat (front : List Char) (c : Char) :
    recalled (front ++ [c]) = recalled front ++ String.utf8EncodeChar c := by
  simp [recalled, utf8]

/-- A class of bytes that stands for a class of characters, all of ASCII. -/
structure StandsFor (p : UInt8 → Bool) (q : Char → Bool) : Prop where
  ascii : ∀ c : Char, c.toNat < 128 → p (UInt8.ofNat c.toNat) = q c
  byte : ∀ byte : UInt8, 128 ≤ byte.toNat → p byte = false
  char : ∀ c : Char, 128 ≤ c.toNat → q c = false
  zero : p 0 = false

theorem standsFor_period : StandsFor (· == 46) (· == '.') where
  ascii c h := by
    have hperiod : UInt8.ofNat c.toNat = 46 ↔ c = '.' := by
      rw [show (46 : UInt8) = UInt8.ofNat 46 from rfl, ofNat_eq_iff h (by decide)]
      exact ⟨fun heq => Char.ext (UInt32.toNat.inj heq), fun heq => by rw [heq]; rfl⟩
    apply Bool.eq_iff_iff.mpr
    rw [beq_iff_eq, beq_iff_eq, hperiod]
  byte byte h := by
    apply beq_false_of_ne
    intro heq
    rw [heq] at h
    exact absurd h (by decide)
  char c h := by
    apply beq_false_of_ne
    intro heq
    rw [heq] at h
    exact absurd h (by decide)
  zero := rfl

theorem standsFor_isCapital : StandsFor isCapital Char.isUpper where
  ascii _ h := isCapital_ofNat h
  byte byte h := by
    have hlarge : ¬ byte ≤ 90 := by
      rw [UInt8.le_iff_toNat_le]
      simp only [UInt8.reduceToNat]
      omega
    simp [isCapital, hlarge]
  char c h := by
    have hlarge : ¬ c.val ≤ 90 := by
      rw [UInt32.le_iff_toNat_le]
      have hval : c.val.toNat = c.toNat := rfl
      simp only [UInt32.reduceToNat]
      omega
    simp [isUpper_eq, hlarge]
  zero := rfl

/-- The last byte tells the class of the last character, and is all of it if it is in the class. -/
theorem StandsFor.last {p : UInt8 → Bool} {q : Char → Bool} (h : StandsFor p q) {front : List Char}
    {older : List UInt8} {a : UInt8} (ha : recalled front = older ++ [a]) :
    p a = front.getLast?.any q ∧ (p a = true → recalled front.dropLast = older) := by
  rcases List.eq_nil_or_concat front with hnil | ⟨before, c, hconcat⟩
  · have hzero : [0, 0] ++ [0] = older ++ [a] := by rw [← ha, hnil]; rfl
    have hlast : a = 0 := (List.singleton_inj.mp (List.append_inj_right' hzero rfl)).symm
    rw [hnil, hlast, h.zero]
    exact ⟨rfl, fun hfalse => nomatch hfalse⟩
  · have hrecalled : recalled before ++ String.utf8EncodeChar c = older ++ [a] := by
      rw [← ha, hconcat, List.concat_eq_append, recalled_concat]
    rw [hconcat, List.concat_eq_append, List.getLast?_concat, List.dropLast_concat, Option.any_some]
    by_cases hc : c.toNat < 128
    · rw [utf8EncodeChar_of_lt hc] at hrecalled
      have hlast : UInt8.ofNat c.toNat = a :=
        List.singleton_inj.mp (List.append_inj_right' hrecalled rfl)
      rw [← hlast, h.ascii c hc]
      exact ⟨rfl, fun _ => List.append_inj_left' hrecalled rfl⟩
    · have hlarge : 128 ≤ c.toNat := Nat.le_of_not_lt hc
      have hmem : a ∈ String.utf8EncodeChar c := by
        obtain ⟨init, last, hlast⟩ :=
          (List.eq_nil_or_concat _).resolve_left (String.utf8EncodeChar_ne_nil (c := c))
        rw [hlast, List.concat_eq_append, ← List.append_assoc] at hrecalled
        rw [hlast, List.concat_eq_append, List.append_inj_right' hrecalled rfl]
        exact List.mem_append_right init (List.mem_singleton_self a)
      rw [h.char c hlarge, h.byte a (le_of_mem_utf8EncodeChar hlarge hmem)]
      exact ⟨rfl, fun hfalse => nomatch hfalse⟩

/-- The last three bytes tell whether the text ends in a period that is no abbreviation. -/
theorem period_iff {front : List Char} {older : List UInt8} {c b a : UInt8}
    (h : recalled front = older ++ [c, b, a]) :
    (a == 46 && (!isCapital b || isCapital c)) = true ↔
      front.getLast? = some '.' ∧ ¬ Abbreviates front.dropLast := by
  have hperiod : recalled front = (older ++ [c, b]) ++ [a] := by
    rw [h, List.append_assoc]
    rfl
  obtain ⟨ha, hbefore⟩ := standsFor_period.last hperiod
  have hlast : (a == 46) = true ↔ front.getLast? = some '.' := by
    rw [ha]
    cases front.getLast? <;> simp
  rw [Bool.and_eq_true, hlast]
  apply and_congr_right
  intro hdot
  have hcapital : recalled front.dropLast = (older ++ [c]) ++ [b] := by
    rw [hbefore (hlast.mpr hdot), List.append_assoc]
    rfl
  obtain ⟨hb, hbefore⟩ := standsFor_isCapital.last hcapital
  have hletter : isCapital b = true → isCapital c = endsInCapital front.dropLast.dropLast :=
    fun hb => (standsFor_isCapital.last (hbefore hb)).1
  rw [Abbreviates, endsInCapital, ← hb]
  cases hcase : isCapital b with
  | false => simp
  | true => simp [hletter hcase]

/-! ### One step -/

/-- A byte at which no sentence is seen to end is read. -/
theorem sentenceEnd_cons {c b a byte : UInt8}
    (hperiod : byte = 32 → ¬ (a == 46 && (!isCapital b || isCapital c)) = true)
    (hfull : ¬ (b = 227 ∧ a = 128 ∧ byte = 130)) (index : Nat) (rest : List UInt8) :
    sentenceEnd c b a index (byte :: rest) = sentenceEnd b a byte (index + 1) rest := by
  have hfirst : (byte == 32 && a == 46 && (!isCapital b || isCapital c)) = false := by
    rw [Bool.and_assoc, Bool.and_eq_false_imp, beq_iff_eq]
    exact fun hspace => Bool.eq_false_iff.mpr (hperiod hspace)
  have hsecond : (b == 227 && a == 128 && byte == 130) = false := by
    simpa [and_assoc] using hfull
  rw [sentenceEnd, hfirst, hsecond]
  rfl

theorem sentenceEnd_cons_of_large {c b a byte : UInt8} (hbyte : 128 ≤ byte.toNat)
    (hfull : ¬ (b = 227 ∧ a = 128 ∧ byte = 130)) (index : Nat) (rest : List UInt8) :
    sentenceEnd c b a index (byte :: rest) = sentenceEnd b a byte (index + 1) rest := by
  refine sentenceEnd_cons (fun hspace => ?_) hfull index rest
  rw [hspace] at hbyte
  exact absurd hbyte (by decide)

/-- No character starts with a byte of a full stop other than its first. -/
theorem ne_of_le_start {x : UInt8} (h : 192 ≤ x.toNat) : x ≠ 128 ∧ x ≠ 130 := by
  constructor
  all_goals
    intro heq
    rw [heq] at h
    exact absurd h (by decide)

/-- The bytes of a character beyond ASCII are read, unless it is a full stop. -/
theorem exists_sentenceEnd_of_large {char : Char} (hchar : 128 ≤ char.toNat) (hfull : char ≠ '。')
    (older : List UInt8) (c b a : UInt8) (index : Nat) (rest : List UInt8) :
    ∃ older' c' b' a', older ++ [c, b, a] ++ String.utf8EncodeChar char = older' ++ [c', b', a'] ∧
      sentenceEnd c b a index (String.utf8EncodeChar char ++ rest) =
        sentenceEnd c' b' a' (index + char.utf8Size) rest := by
  rw [← String.length_utf8EncodeChar]
  rcases utf8EncodeChar_cases hchar with ⟨x, y, heq, hx, hy⟩ | ⟨x, y, z, heq, hx, hy, hz, hthree⟩ |
    ⟨x, y, z, w, heq, hx, hy, hyless, hz, hw⟩
  · obtain ⟨hx128, hx130⟩ := ne_of_le_start hx
    rw [heq]
    refine ⟨older ++ [c, b], a, x, y, by simp, ?_⟩
    show sentenceEnd c b a index (x :: y :: rest) = _
    rw [sentenceEnd_cons_of_large (by omega) (by simp [hx130]),
      sentenceEnd_cons_of_large hy (by simp [hx128])]
    rfl
  · obtain ⟨hx128, hx130⟩ := ne_of_le_start hx
    rw [heq]
    refine ⟨older ++ [c, b, a], x, y, z, by simp, ?_⟩
    show sentenceEnd c b a index (x :: y :: z :: rest) = _
    rw [sentenceEnd_cons_of_large (by omega) (by simp [hx130]),
      sentenceEnd_cons_of_large hy (by simp [hx128]),
      sentenceEnd_cons_of_large hz fun hstop => hfull (hthree hstop.1 hstop.2.1 hstop.2.2)]
    rfl
  · obtain ⟨hx128, hx130⟩ := ne_of_le_start (by omega : 192 ≤ x.toNat)
    -- the first byte of a full stop starts three bytes, and so it is neither of these
    have hx227 : x ≠ 227 := fun hx' => absurd (hx' ▸ hx) (by decide)
    have hy227 : y ≠ 227 := fun hy' => absurd (hy' ▸ hyless) (by decide)
    rw [heq]
    refine ⟨older ++ [c, b, a, x], y, z, w, by simp, ?_⟩
    show sentenceEnd c b a index (x :: y :: z :: w :: rest) = _
    rw [sentenceEnd_cons_of_large (by omega) (by simp [hx130]),
      sentenceEnd_cons_of_large hy (by simp [hx128]),
      sentenceEnd_cons_of_large hz (by simp [hx227]),
      sentenceEnd_cons_of_large hw (by simp [hy227])]
    rfl

/-- An end at a period is seen at the space after it. -/
theorem sentenceEnd_of_period {front : List Char} {older : List UInt8} {c b a : UInt8}
    (h : recalled front = older ++ [c, b, a]) (hdot : front.getLast? = some '.')
    (hlong : ¬ Abbreviates front.dropLast) (index : Nat) (rest : List Char) :
    sentenceEnd c b a index (utf8 (' ' :: rest)) = index := by
  have hperiod := (period_iff h).mpr ⟨hdot, hlong⟩
  have hspace : utf8 (' ' :: rest) = 32 :: utf8 rest := utf8_cons ..
  rw [hspace, sentenceEnd, Bool.and_assoc, hperiod]
  rfl

theorem sentenceEnd_of_full (c b a : UInt8) (index : Nat) (rest : List Char) :
    sentenceEnd c b a index (utf8 ('。' :: rest)) = index + '。'.utf8Size := by
  have hbytes : utf8 ('。' :: rest) = 227 :: 128 :: 130 :: utf8 rest := utf8_cons ..
  rw [hbytes, sentenceEnd_cons (fun h => absurd h (by decide)) fun h => absurd h.2.2 (by decide),
    sentenceEnd_cons (fun h => absurd h (by decide)) fun h => absurd h.2.1 (by decide), sentenceEnd]
  rfl

/-- A character that ends no sentence is read, and the bytes in mind are those after it. -/
theorem exists_sentenceEnd_eq {front : List Char} {older : List UInt8} {c b a : UInt8}
    (h : recalled front = older ++ [c, b, a]) {char : Char} {rest : List Char} (hfull : char ≠ '。')
    (hends : ¬ EndsSentence front (char :: rest)) (index : Nat) :
    ∃ older' c' b' a', recalled (front ++ [char]) = older' ++ [c', b', a'] ∧
      sentenceEnd c b a index (utf8 (char :: rest)) =
        sentenceEnd c' b' a' (index + char.utf8Size) (utf8 rest) := by
  rw [recalled_concat, h, utf8_cons]
  by_cases hchar : char.toNat < 128
  · have hsize : char.utf8Size = 1 := by
      rw [← String.length_utf8EncodeChar, utf8EncodeChar_of_lt hchar]
      rfl
    rw [utf8EncodeChar_of_lt hchar, hsize, List.singleton_append]
    refine ⟨older ++ [c], b, a, UInt8.ofNat char.toNat, by simp, ?_⟩
    refine sentenceEnd_cons (fun hspace htest => ?_) (fun hstop => ?_) _ _
    · have hchar : char = ' ' :=
        Char.ext (UInt32.toNat.inj ((ofNat_eq_iff hchar (by decide)).mp hspace))
      obtain ⟨hdot, hlong⟩ := (period_iff h).mp htest
      exact hends (.inr ⟨hdot, congrArg some hchar, hlong⟩)
    · have hbyte := congrArg UInt8.toNat hstop.2.2
      rw [UInt8.toNat_ofNat_of_lt' (Nat.lt_trans hchar (by decide))] at hbyte
      simp only [UInt8.reduceToNat] at hbyte
      omega
  · exact exists_sentenceEnd_of_large (Nat.le_of_not_lt hchar) hfull older c b a index _

/-! ### The whole search -/

/-- The search after a text in which no sentence has ended goes up to the first end. -/
theorem exists_sentenceEnd (front s : List Char) {older : List UInt8} {c b a : UInt8}
    (h : recalled front = older ++ [c, b, a]) (hfull : front.getLast? ≠ some '。')
    (hfirst : ∀ start rest, front ++ s = start ++ rest → start.length < front.length →
      ¬ EndsSentence start rest)
    (index : Nat) :
    ∃ more rest, s = more ++ rest ∧ sentenceEnd c b a index (utf8 s) = index + byteSize more ∧
      IsFirstSentence (front ++ more) (front ++ s) := by
  induction s generalizing front older c b a index with
  | nil => exact ⟨[], [], rfl, rfl, ⟨[], by simp, .inl rfl⟩, by simpa using hfirst⟩
  | cons char s ih =>
    by_cases hends : EndsSentence front (char :: s)
    · -- the end is at a period, and the space after it is next
      rcases hends with hstop | ⟨hdot, hspace, hlong⟩
      · exact absurd hstop hfull
      · have hchar : char = ' ' := Option.some.inj hspace
        refine ⟨[], char :: s, rfl, ?_, ?_⟩
        · rw [hchar]
          exact sentenceEnd_of_period h hdot hlong index s
        · rw [List.append_nil]
          exact ⟨⟨char :: s, rfl, .inr (.inr ⟨hdot, hspace, hlong⟩)⟩, hfirst⟩
    · -- the text up to this character ends no sentence either
      have hnext : ∀ start rest, front ++ char :: s = start ++ rest →
          start.length < (front ++ [char]).length →
          ¬ EndsSentence start rest := by
        intro start rest heq hlt
        rw [List.length_append, List.length_singleton] at hlt
        by_cases hlength : start.length = front.length
        · obtain ⟨hstart, hrest⟩ := List.append_inj heq hlength.symm
          rw [← hstart, ← hrest]
          exact hends
        · exact hfirst start rest heq (by omega)
      by_cases hchar : char = '。'
      · refine ⟨[char], s, rfl, ?_, ?_⟩
        · rw [hchar]
          exact sentenceEnd_of_full c b a index s
        · refine ⟨⟨s, by simp, .inr (.inl ?_)⟩, hnext⟩
          rw [List.getLast?_concat, hchar]
      · obtain ⟨older', c', b', a', hrecalled, hread⟩ := exists_sentenceEnd_eq h hchar hends index
        obtain ⟨more, rest, rfl, hend, hsentence⟩ := ih (front ++ [char]) hrecalled
          (by rw [List.getLast?_concat]; exact fun heq => hchar (Option.some.inj heq))
          (fun start rest heq => hnext start rest (by rw [← heq, List.append_assoc]; rfl))
          (index + char.utf8Size)
        refine ⟨char :: more, rest, rfl, ?_, ?_⟩
        · rw [hread, hend, byteSize, Nat.add_assoc]
        · simpa using hsentence

/-- **The cut can always be made**, and it is at the first end of a sentence. -/
theorem exists_cutSentence (s : List Char) :
    ∃ sentence, cutSentence s = .ok sentence ∧ IsFirstSentence sentence s := by
  have hstart : recalled [] = [] ++ [0, 0, 0] := rfl
  obtain ⟨sentence, rest, hs, hend, hsentence⟩ := exists_sentenceEnd [] s hstart (by simp)
    (fun _ _ _ hlt => absurd hlt (Nat.not_lt_zero _)) 0
  refine ⟨sentence, ?_, hsentence⟩
  rw [cutSentence, hend, Nat.zero_add, hs]
  exact slice_byteSize sentence rest

theorem cutSentence_ne_error (s : List Char) (broken : BrokenSlice) :
    cutSentence s ≠ .error broken := by
  obtain ⟨sentence, hcut, -⟩ := exists_cutSentence s
  rw [hcut]
  exact fun h => nomatch h

/-- The first sentence of a text. -/
def firstSentence (s : List Char) : List Char :=
  match h : cutSentence s with
  | .ok sentence => sentence
  | .error broken => absurd h (cutSentence_ne_error s broken)

theorem cutSentence_eq_ok (s : List Char) : cutSentence s = .ok (firstSentence s) := by
  unfold firstSentence
  split
  · assumption
  · rename_i broken h
    exact absurd h (cutSentence_ne_error s broken)

theorem isFirstSentence_firstSentence (s : List Char) : IsFirstSentence (firstSentence s) s := by
  obtain ⟨sentence, hcut, hsentence⟩ := exists_cutSentence s
  rw [cutSentence_eq_ok] at hcut
  rw [Except.ok.inj hcut]
  exact hsentence

end PackageReadme.Comment
