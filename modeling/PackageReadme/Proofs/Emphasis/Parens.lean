import Mathlib.Data.List.Basic
import PackageReadme.Emphasis.Parens
import PackageReadme.Proofs.Text.Start

/-! Paired parentheses.

A text is `Paired` if no start of it closes more parentheses than it opens, and all of it closes as
many as it opens. Going along the text with the number of open parentheses says the same
(`paired_iff`), and there texts that are put together are easy to judge. `pairedStart` is the
longest start of a text that is paired. -/
namespace PackageReadme.Emphasis
open Text

/-- No start of the text closes a parenthesis that it does not open, and every parenthesis is
closed. -/
structure Paired (s : List Char) : Prop where
  opened : ∀ start, start <+: s → start.count ')' ≤ start.count '('
  closed : s.count '(' = s.count ')'

/-! ### Going along a text -/

/-- How many parentheses are open after a character if `depth` were before it, unless it closes one
that is not open. -/
def depthAfter? (depth : Nat) (c : Char) : Option Nat :=
  if c = '(' then some (depth + 1)
  else if c = ')' then if depth = 0 then none else some (depth - 1)
  else some depth

def depthOn? (depth : Nat) : List Char → Option Nat
  | [] => some depth
  | c :: cs => (depthAfter? depth c).bind (depthOn? · cs)

theorem depthOn?_append (depth : Nat) (a b : List Char) :
    depthOn? depth (a ++ b) = (depthOn? depth a).bind (depthOn? · b) := by
  induction a generalizing depth with
  | nil => rfl
  | cons c cs ih =>
    rw [List.cons_append, depthOn?, depthOn?, Option.bind_assoc]
    congr 1
    funext after
    exact ih after

theorem depthAfter?_add {depth after : Nat} {c : Char} (h : depthAfter? depth c = some after)
    (around : Nat) :
    depthAfter? (depth + around) c = some (after + around) := by
  unfold depthAfter? at h ⊢
  grind

/-- What stands open around a text does not matter for what the text leaves open. -/
theorem depthOn?_add {depth after : Nat} {s : List Char} (h : depthOn? depth s = some after)
    (around : Nat) :
    depthOn? (depth + around) s = some (after + around) := by
  induction s generalizing depth with
  | nil =>
    cases h
    rfl
  | cons c cs ih =>
    obtain ⟨next, hnext, hrest⟩ := Option.bind_eq_some_iff.mp h
    rw [depthOn?, depthAfter?_add hnext, Option.bind_some]
    exact ih hrest

/-- The open parentheses are those that the text opens beyond those that it closes. -/
theorem depthOn?_eq_some_iff {depth after : Nat} {s : List Char} :
    depthOn? depth s = some after ↔
      (∀ start, start <+: s → start.count ')' ≤ start.count '(' + depth) ∧
        s.count '(' + depth = s.count ')' + after := by
  induction s generalizing depth with
  | nil => simp [depthOn?]
  | cons c cs ih =>
    have hstarts (P : List Char → Prop) :
        (∀ start, start <+: c :: cs → P start) ↔ P [] ∧ ∀ start, start <+: cs → P (c :: start) := by
      simp only [List.prefix_cons_iff]
      constructor
      · exact fun h => ⟨h [] (.inl rfl), fun start hstart => h _ (.inr ⟨start, rfl, hstart⟩)⟩
      · rintro ⟨hnil, hcons⟩ start (rfl | ⟨rest, rfl, hrest⟩)
        · exact hnil
        · exact hcons rest hrest
    rw [hstarts, depthOn?, depthAfter?]
    by_cases hopen : c = '('
    · subst hopen
      rw [if_pos rfl, Option.bind_some, ih]
      simp only [List.count_nil, List.count_cons]
      grind
    · rw [if_neg hopen]
      by_cases hclose : c = ')'
      · subst hclose
        rw [if_pos rfl]
        by_cases hdepth : depth = 0
        · -- the start that is the character alone closes what is not open
          have halone := List.nil_prefix (l := cs)
          simp only [hdepth, if_true, Option.bind_none, List.count_nil, List.count_cons]
          grind
        · rw [if_neg hdepth, Option.bind_some, ih]
          simp only [List.count_nil, List.count_cons]
          grind
      · rw [if_neg hclose, Option.bind_some, ih]
        simp [hopen, hclose]

/-- A text is paired if nothing stands open after it where nothing did before it. -/
theorem paired_iff {s : List Char} : Paired s ↔ depthOn? 0 s = some 0 := by
  rw [depthOn?_eq_some_iff]
  exact ⟨fun h => ⟨h.opened, h.closed⟩, fun h => ⟨h.1, h.2⟩⟩

/-! ### Texts that are put together -/

theorem paired_append_iff {a : List Char} (h : Paired a) (b : List Char) :
    Paired (a ++ b) ↔ Paired b := by
  rw [paired_iff] at h
  rw [paired_iff, paired_iff, depthOn?_append, h, Option.bind_some]

theorem paired_append_iff_left {b : List Char} (h : Paired b) (a : List Char) :
    Paired (a ++ b) ↔ Paired a := by
  rw [paired_iff] at h
  rw [paired_iff, paired_iff, depthOn?_append]
  cases ha : depthOn? 0 a with
  | none => simp
  | some depth =>
    have hb := depthOn?_add h depth
    rw [Nat.zero_add] at hb
    simp [hb]

/-- Without parentheses all are paired. -/
theorem paired_of_forall_ne {s : List Char} (h : ∀ c ∈ s, c ≠ '(' ∧ c ≠ ')') : Paired s := by
  have hnone (t : List Char) (ht : t ⊆ s) : t.count '(' = 0 ∧ t.count ')' = 0 :=
    ⟨List.count_eq_zero.mpr fun hmem => (h _ (ht hmem)).1 rfl,
      List.count_eq_zero.mpr fun hmem => (h _ (ht hmem)).2 rfl⟩
  refine ⟨fun start hstart => ?_, ?_⟩
  · rw [(hnone start hstart.subset).2]
    exact Nat.zero_le _
  · rw [(hnone s (List.Subset.refl s)).1, (hnone s (List.Subset.refl s)).2]

theorem Paired.parenthesized {s : List Char} (h : Paired s) : Paired ('(' :: s ++ [')']) := by
  have hinside : depthOn? 1 s = some 1 := depthOn?_add (paired_iff.mp h) 1
  rw [paired_iff, depthOn?_append, depthOn?, depthAfter?, if_pos rfl, Option.bind_some, hinside]
  rfl

/-! ### The longest start -/

/-- A start of a text that closes `depth` parentheses, and of such starts the longest. -/
structure IsLongestClosing (depth : Nat) (s start : List Char) : Prop where
  isPrefix : start <+: s
  closes : depthOn? depth start = some 0
  longest : ∀ other, other <+: s → depthOn? depth other = some 0 → other.length ≤ start.length

theorem closing?_cons (depth : Nat) (c : Char) (cs : List Char) :
    closing? depth (c :: cs) =
      match (depthAfter? depth c).bind (closing? · cs) with
      | some start => some (c :: start)
      | none => if depth = 0 then some [] else none := by
  have hlonger : (if c = '(' then closing? (depth + 1) cs
      else if c = ')' then if depth = 0 then none else closing? (depth - 1) cs
      else closing? depth cs) = (depthAfter? depth c).bind (closing? · cs) := by
    rw [depthAfter?]
    split
    · rfl
    · split
      · split <;> rfl
      · rfl
  cases hbind : (depthAfter? depth c).bind (closing? · cs) with
  | none => simp only [closing?, hlonger, hbind]
  | some start => simp only [closing?, hlonger, hbind]

/-- The longest start is found if there is one. -/
theorem isLongestClosing_or_none (depth : Nat) (s : List Char) :
    (∃ start, closing? depth s = some start ∧ IsLongestClosing depth s start) ∨
      closing? depth s = none ∧ ∀ start, start <+: s → depthOn? depth start ≠ some 0 := by
  induction s generalizing depth with
  | nil =>
    by_cases hdepth : depth = 0
    · refine .inl ⟨[], by rw [closing?, if_pos hdepth], List.prefix_refl _, by rw [hdepth]; rfl,
        fun other hother _ => ?_⟩
      exact hother.length_le
    · refine .inr ⟨by rw [closing?, if_neg hdepth], fun start hstart => ?_⟩
      rw [List.prefix_nil.mp hstart, depthOn?]
      simpa using hdepth
  | cons c cs ih =>
    rw [closing?_cons]
    -- a start that is not empty closes what is open after the first character
    have hcons {start : List Char} (hfront : start <+: c :: cs)
        (hcloses : depthOn? depth start = some 0) :
        start = [] ∧ depth = 0 ∨ ∃ rest next, start = c :: rest ∧ rest <+: cs ∧
          depthAfter? depth c = some next ∧ depthOn? next rest = some 0 := by
      rcases List.prefix_cons_iff.mp hfront with rfl | ⟨rest, rfl, hrest⟩
      · exact .inl ⟨rfl, Option.some.inj hcloses⟩
      · obtain ⟨next, hnext, hcloses⟩ := Option.bind_eq_some_iff.mp hcloses
        exact .inr ⟨rest, next, rfl, hrest, hnext, hcloses⟩
    cases hlonger : (depthAfter? depth c).bind (closing? · cs) with
    | some start =>
      obtain ⟨next, hnext, hstart⟩ := Option.bind_eq_some_iff.mp hlonger
      rcases ih next with ⟨found, hfound, hlongest⟩ | ⟨hnone, -⟩
      · cases hfound.symm.trans hstart
        refine .inl ⟨c :: start, rfl, ?_, ?_, fun other hfront hcloses => ?_⟩
        · exact List.cons_prefix_cons.mpr ⟨rfl, hlongest.isPrefix⟩
        · rw [depthOn?, hnext, Option.bind_some, hlongest.closes]
        · rcases hcons hfront hcloses with ⟨rfl, -⟩ | ⟨rest, next', rfl, hrest, hnext', hcloses⟩
          · exact Nat.zero_le _
          · cases hnext.symm.trans hnext'
            exact Nat.succ_le_succ (hlongest.longest rest hrest hcloses)
      · cases hnone.symm.trans hstart
    | none =>
      have hnil {start : List Char} (hfront : start <+: c :: cs)
          (hcloses : depthOn? depth start = some 0) :
          start = [] ∧ depth = 0 := by
        rcases hcons hfront hcloses with hnil | ⟨rest, next, rfl, hrest, hnext, hcloses⟩
        · exact hnil
        · rw [hnext, Option.bind_some] at hlonger
          rcases ih next with ⟨found, hfound, -⟩ | ⟨-, hnever⟩
          · cases hlonger.symm.trans hfound
          · exact absurd hcloses (hnever rest hrest)
      by_cases hdepth : depth = 0
      · refine .inl ⟨[], by simp [hdepth], List.nil_prefix, by rw [hdepth]; rfl, ?_⟩
        intro other hfront hcloses
        exact Nat.le_of_eq (congrArg List.length (hnil hfront hcloses).1)
      · exact .inr ⟨by simp [hdepth], fun start hfront hcloses => hdepth (hnil hfront hcloses).2⟩

theorem isLongestClosing_pairedStart (s : List Char) : IsLongestClosing 0 s (pairedStart s) := by
  rcases isLongestClosing_or_none 0 s with ⟨start, hstart, hlongest⟩ | ⟨-, hnever⟩
  · rw [pairedStart, hstart]
    exact hlongest
  · exact absurd rfl (hnever [] List.nil_prefix)

theorem pairedStart_isPrefix (s : List Char) : pairedStart s <+: s :=
  (isLongestClosing_pairedStart s).isPrefix

theorem paired_pairedStart (s : List Char) : Paired (pairedStart s) :=
  paired_iff.mpr (isLongestClosing_pairedStart s).closes

theorem length_le_pairedStart {start s : List Char} (hfront : start <+: s) (h : Paired start) :
    start.length ≤ (pairedStart s).length :=
  (isLongestClosing_pairedStart s).longest start hfront (paired_iff.mp h)

theorem prefix_pairedStart {start s : List Char} (hfront : start <+: s) (h : Paired start) :
    start <+: pairedStart s :=
  List.prefix_of_prefix_length_le hfront (pairedStart_isPrefix s) (length_le_pairedStart hfront h)

/-- A text that is not longer than its longest paired start is that start. -/
theorem paired_of_length_le {s : List Char} (h : s.length ≤ (pairedStart s).length) : Paired s := by
  have hsame : pairedStart s = s :=
    (pairedStart_isPrefix s).eq_of_length (Nat.le_antisymm (pairedStart_isPrefix s).length_le h)
  rw [← hsame]
  exact paired_pairedStart s

/-! ### Up to a parenthesis -/

/-- The text is over or goes on with a parenthesis. -/
def BeforeParen (s : List Char) : Prop :=
  ∀ c rest, s = c :: rest → c = '(' ∨ c = ')'

/-- What has no parentheses does not reach beyond one. -/
theorem BeforeParen.prefix_left {start a b : List Char} (hb : BeforeParen b)
    (hstart : ∀ c ∈ start, c ≠ '(' ∧ c ≠ ')') (h : start <+: a ++ b) : start <+: a := by
  have hstops : Stops (fun c => c != '(' && c != ')') b := by
    intro c rest hcons
    rcases hb c rest hcons with rfl | rfl <;> rfl
  refine prefix_of_forall_of_stops (fun c hc => ?_) hstops h
  simpa using hstart c hc

theorem BeforeParen.append {a : List Char} (h : BeforeParen a) (hne : a ≠ []) (b : List Char) :
    BeforeParen (a ++ b) := by
  obtain ⟨d, tail, rfl⟩ := List.exists_cons_of_ne_nil hne
  rintro c rest hcons
  rw [← (List.cons.inj hcons).1]
  exact h d tail rfl

/-- The longest paired start ends where the text does or before a parenthesis. -/
theorem beforeParen_of_pairedStart_append {s after : List Char} (h : pairedStart s ++ after = s) :
    BeforeParen after := by
  rintro c rest rfl
  by_contra hc
  rw [not_or] at hc
  have hpaired : Paired (pairedStart s ++ [c]) :=
    (paired_append_iff (paired_pairedStart s) _).mpr
      (paired_of_forall_ne (List.forall_mem_singleton.mpr hc))
  have hfront : pairedStart s ++ [c] <+: s := ⟨rest, by rw [List.append_assoc]; exact h⟩
  have hlength := length_le_pairedStart hfront hpaired
  rw [List.length_append, List.length_singleton] at hlength
  omega

end PackageReadme.Emphasis
