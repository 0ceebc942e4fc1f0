import Mathlib.Data.List.TakeWhile
import PackageReadme.Text.Blank
import PackageReadme.Text.Start

/-! What texts start with, what is left of them without a tail, and their parts between marks. -/
namespace PackageReadme.Text

theorem after?_eq_some_iff {start text rest : List Char} :
    after? start text = some rest ↔ text = start ++ rest := by
  induction start generalizing text with
  | nil => simp [after?]
  | cons a start ih =>
    cases text with
    | nil => simp [after?]
    | cons b text =>
      rw [after?, List.cons_append, List.cons.injEq]
      by_cases h : a = b
      · rw [if_pos h, ih]
        exact ⟨fun htext => ⟨h.symm, htext⟩, And.right⟩
      · rw [if_neg h]
        exact ⟨fun hnone => absurd hnone (by simp), fun htext => absurd htext.1.symm h⟩

theorem after?_append (start rest : List Char) : after? start (start ++ rest) = some rest :=
  after?_eq_some_iff.mpr rfl

/-! ### Runs -/

theorem ne_of_class {p : Char → Bool} {c d : Char} (hc : p c = true) (hd : p d = false) :
    c ≠ d := by
  rintro rfl
  rw [hc] at hd
  cases hd

/-- The text does not go on with a character that satisfies `p`. -/
def Stops (p : Char → Bool) (s : List Char) : Prop :=
  ∀ c rest, s = c :: rest → p c = false

theorem Stops.of_isPrefix {p : Char → Bool} {s start : List Char} (h : Stops p s)
    (hstart : start <+: s) :
    Stops p start := by
  rintro c rest rfl
  obtain ⟨after, rfl⟩ := hstart
  exact h c (rest ++ after) rfl

theorem Stops.mono {p q : Char → Bool} {s : List Char} (h : Stops p s)
    (hclass : ∀ c, q c = true → p c = true) :
    Stops q s := by
  intro c rest hcons
  have hstop := h c rest hcons
  cases hc : q c with
  | false => rfl
  | true =>
    rw [hclass c hc] at hstop
    cases hstop

theorem Stops.append {p : Char → Bool} {s : List Char} (h : Stops p s) (hne : s ≠ [])
    (rest : List Char) :
    Stops p (s ++ rest) := by
  obtain ⟨d, tail, rfl⟩ := List.exists_cons_of_ne_nil hne
  rintro c after hcons
  rw [← (List.cons.inj hcons).1]
  exact h d tail rfl

theorem stops_cons {p : Char → Bool} {c : Char} {rest : List Char} (h : p c = false) :
    Stops p (c :: rest) := by
  intro d after hcons
  rwa [← (List.cons.inj hcons).1]

theorem stops_of_forall {p : Char → Bool} {s : List Char} (h : ∀ c ∈ s, p c = false) :
    Stops p s := by
  rintro c rest rfl
  exact h c (List.mem_cons_self ..)

theorem Stops.append_stops {p : Char → Bool} {a b : List Char} (ha : Stops p a) (hb : Stops p b) :
    Stops p (a ++ b) := by
  cases a with
  | nil => exact hb
  | cons c a => exact ha.append (List.cons_ne_nil c a) b

/-- A start whose characters all satisfy `p` does not reach into a text that does not go on so. -/
theorem prefix_of_forall_of_stops {p : Char → Bool} {start a b : List Char}
    (hstart : ∀ c ∈ start, p c = true) (hb : Stops p b) (h : start <+: a ++ b) : start <+: a := by
  rcases List.prefix_or_prefix_of_prefix h (List.prefix_append a b) with hshort | ⟨more, rfl⟩
  · exact hshort
  · rw [List.prefix_append_right_inj] at h
    cases more with
    | nil => exact (List.append_nil a).symm ▸ List.prefix_refl a
    | cons c more =>
      obtain ⟨rest, rfl⟩ := h
      have hc : p c = true := hstart c (List.mem_append_right _ (List.mem_cons_self ..))
      rw [hb c _ rfl] at hc
      cases hc

/-- A run is all that satisfies `p` up to where the text stops to. -/
theorem takeWhile_eq_iff {p : Char → Bool} {s run : List Char} :
    s.takeWhile p = run ↔ ∃ rest, s = run ++ rest ∧ (∀ c ∈ run, p c = true) ∧ Stops p rest := by
  constructor
  · rintro rfl
    refine ⟨s.dropWhile p, List.takeWhile_append_dropWhile.symm, fun c => List.mem_takeWhile_imp,
      fun c rest h => ?_⟩
    have hhead := List.head?_dropWhile_not p s
    rw [h] at hhead
    exact hhead
  · rintro ⟨rest, rfl, hrun, hstops⟩
    have hnil : rest.takeWhile p = [] := by
      cases rest with
      | nil => rfl
      | cons c rest => simp [hstops c rest rfl]
    rw [List.takeWhile_append_of_pos hrun, hnil, List.append_nil]

theorem takeWhile_append_drop (p : Char → Bool) (s : List Char) :
    s.takeWhile p ++ s.drop (s.takeWhile p).length = s :=
  List.prefix_iff_eq_append.mp (List.takeWhile_prefix p)

/-! ### Tails -/

/-- The tail that is dropped satisfies `p`, and what is left does not end so. -/
theorem exists_dropTail_append (p : Char → Bool) (s : List Char) :
    ∃ tail, s = dropTail p s ++ tail ∧ (∀ c ∈ tail, p c = true) ∧
      ∀ front c, dropTail p s = front ++ [c] → p c = false := by
  induction s with
  | nil => exact ⟨[], rfl, List.forall_mem_nil _, fun front c h => by simp [dropTail] at h⟩
  | cons d s ih =>
    obtain ⟨tail, hs, htail, hlast⟩ := ih
    rw [dropTail]
    cases hkept : dropTail p s with
    | nil =>
      rw [hkept, List.nil_append] at hs
      by_cases hd : p d = true
      · refine ⟨d :: s, by simp [hd], ?_, fun front c h => by simp [hd] at h⟩
        rw [hs]
        exact List.forall_mem_cons.mpr ⟨hd, htail⟩
      · refine ⟨s, by simp [hd], hs ▸ htail, fun front c h => ?_⟩
        rw [if_neg hd] at h
        have happend : front ++ [c] = [] ++ [d] := h.symm
        have hc : c = d := List.singleton_inj.mp (List.append_inj_right' happend rfl)
        rw [hc]
        simpa using hd
    | cons e kept =>
      rw [hkept] at hs hlast
      refine ⟨tail, ?_, htail, fun front c h => ?_⟩
      · rw [List.cons_append, ← hs]
      · cases front with
        | nil => simp at h
        | cons f front => exact hlast front c (List.cons.inj h).2

theorem dropTail_isPrefix (p : Char → Bool) (s : List Char) : dropTail p s <+: s := by
  obtain ⟨tail, hs, -⟩ := exists_dropTail_append p s
  exact ⟨tail, hs.symm⟩

theorem dropTail_of_forall {p : Char → Bool} {s : List Char} (h : ∀ c ∈ s, p c = true) :
    dropTail p s = [] := by
  induction s with
  | nil => rfl
  | cons c s ih =>
    rw [List.forall_mem_cons] at h
    rw [dropTail, ih h.2]
    exact if_pos h.1

theorem dropTail_append {p : Char → Bool} {tail : List Char} (h : ∀ c ∈ tail, p c = true)
    (s : List Char) :
    dropTail p (s ++ tail) = dropTail p s := by
  induction s with
  | nil => exact dropTail_of_forall h
  | cons c s ih => simp only [List.cons_append, dropTail, ih]

theorem trim_append {tail : List Char} (h : ∀ c ∈ tail, isBlank c = true) (s : List Char) :
    trim (s ++ tail) = trim s := by
  rw [trim, trim, trimStart, trimStart, List.dropWhile_append]
  split
  · rename_i hempty
    rw [List.isEmpty_iff.mp hempty, List.dropWhile_eq_nil_iff.mpr h]
  · exact dropTail_append h _

/-- Neither starts nor ends with a blank. -/
structure IsTrimmed (s : List Char) : Prop where
  first : ∀ c, s.head? = some c → isBlank c = false
  last : ∀ c, s.getLast? = some c → isBlank c = false

theorem isTrimmed_trim (s : List Char) : IsTrimmed (trim s) := by
  obtain ⟨tail, hs, -, hlast⟩ := exists_dropTail_append isBlank (trimStart s)
  refine ⟨fun c hc => ?_, fun c hc => ?_⟩
  · have hhead : (s.dropWhile isBlank).head? = some c := by
      have hstart : s.dropWhile isBlank = trim s ++ tail := hs
      rw [hstart, List.head?_append, hc, Option.some_or]
    have hnot := List.head?_dropWhile_not isBlank s
    rw [hhead] at hnot
    simpa using hnot
  · obtain ⟨front, hfront⟩ := List.getLast?_eq_some_iff.mp hc
    exact hlast front c hfront

/-- Only blanks are trimmed off. -/
theorem exists_append_trim (s : List Char) :
    ∃ lead tail, s = lead ++ trim s ++ tail ∧ (∀ c ∈ lead, isBlank c = true) ∧
      ∀ c ∈ tail, isBlank c = true := by
  obtain ⟨tail, hs, htail, -⟩ := exists_dropTail_append isBlank (trimStart s)
  refine ⟨s.takeWhile isBlank, tail, ?_, fun c => List.mem_takeWhile_imp, htail⟩
  have hstart : s.dropWhile isBlank = trim s ++ tail := hs
  rw [List.append_assoc, ← hstart, List.takeWhile_append_dropWhile]

theorem IsTrimmed.trim_eq {s : List Char} (h : IsTrimmed s) : trim s = s := by
  obtain ⟨lead, tail, hs, hlead, htail⟩ := exists_append_trim s
  have hlead' : lead = [] := by
    cases lead with
    | nil => rfl
    | cons c lead =>
      have hc := h.first c (by rw [hs]; rfl)
      rw [hlead c (List.mem_cons_self ..)] at hc
      cases hc
  have htail' : tail = [] := by
    rcases List.eq_nil_or_concat tail with hnil | ⟨front, c, hconcat⟩
    · exact hnil
    · rw [List.concat_eq_append] at hconcat
      have hc := h.last c (by rw [hs, hconcat, ← List.append_assoc, List.getLast?_concat])
      have hmem : c ∈ tail := hconcat ▸ List.mem_append_right front (List.mem_singleton_self c)
      rw [htail c hmem] at hc
      cases hc
  rw [hlead', htail', List.nil_append, List.append_nil] at hs
  exact hs.symm

/-! ### Parts between marks -/

/-- Parts are what the library splits a list into. -/
theorem cutWhere_eq_splitOnP (isMark : Char → Bool) (s : List Char) :
    cutWhere isMark s = s.splitOnP isMark := by
  induction s with
  | nil => rfl
  | cons c s ih =>
    rw [cutWhere, List.splitOnP_cons_eq_if_modifyHead, ih]
    split
    · rfl
    · split
      · rename_i hnil
        exact absurd hnil (List.splitOnP_ne_nil isMark s)
      · rename_i part rest hcons
        rw [hcons]
        rfl

theorem cut_ne_nil (mark : Char) (s : List Char) : cut mark s ≠ [] := by
  cases s with
  | nil => exact List.cons_ne_nil _ _
  | cons c s =>
    simp only [cut, cutWhere]
    split
    · exact List.cons_ne_nil _ _
    · split <;> exact List.cons_ne_nil _ _

theorem cut_of_notMem {mark : Char} {s : List Char} (h : mark ∉ s) : cut mark s = [s] := by
  induction s with
  | nil => rfl
  | cons c s ih =>
    rw [List.mem_cons, not_or] at h
    have hrest : cutWhere (· == mark) s = [s] := ih h.2
    simp [cut, cutWhere, hrest, Ne.symm h.1]

theorem cut_append_cons {mark : Char} {part : List Char} (h : mark ∉ part) (rest : List Char) :
    cut mark (part ++ mark :: rest) = part :: cut mark rest := by
  induction part with
  | nil => simp [cut, cutWhere]
  | cons c part ih =>
    rw [List.mem_cons, not_or] at h
    have hrest : cutWhere (· == mark) (part ++ mark :: rest) =
        part :: cutWhere (· == mark) rest := ih h.2
    simp [cut, cutWhere, hrest, Ne.symm h.1]

end PackageReadme.Text
