import Mathlib.Data.List.Perm.Subperm
import PackageReadme.Proofs.Fetch.Levels

/-! A later deadline loses no package.

Take two runs that differ in their deadline. As long as no fetch of the first one is late, the two
are the same. When one is late, the second run may go on with it, so that later turns and later
levels start at other times; but then the first deadline has come, and all that the first run still
gets are answers that take no time, which the second run gets too.

Within a level this is said of the times at which turns are free: cut off at the deadline, they are
the same in both runs (`got_turns_sublist`). From level to level it is `Standing`: the runs have not
parted, or the deadline is past and the second run has at least the directories of the first. -/
namespace PackageReadme.Fetch

/-- A deadline is no later than another. To have none is later than any. -/
def NoLater : (deadline later : Option Nat) → Prop
  | _, none => True
  | none, some _ => False
  | some deadline, some later => deadline ≤ later

theorem NoLater.refl (deadline : Option Nat) : NoLater deadline deadline := by
  cases deadline with
  | none => exact trivial
  | some deadline => exact Nat.le_refl deadline

theorem noLater_none (deadline : Option Nat) : NoLater deadline none := by
  cases deadline <;> exact trivial

variable {answer : Answers} {root : String} {deadline : Nat} {later : Option Nat}

/-! ### One fetch -/

/-- The package that a fetch got, with its directory, whether or not it can be documented. -/
def Fetched.got? (fetched : Fetched) : Option SubPackage :=
  match fetched.result with
  | .ok package => some ⟨fetched.directory, package⟩
  | .error _ => none

theorem inTime_some_iff {start delay : Nat} :
    inTime (some deadline) start delay = true ↔ delay = 0 ∨ start + delay ≤ deadline := by
  simp [inTime]

theorem inTime_zero (deadline : Option Nat) (start : Nat) : inTime deadline start 0 = true := by
  cases deadline <;> rfl

/-- Cut off at a deadline, a fetch finishes when it would without any. -/
theorem min_finish (h : NoLater (some deadline) later) (start delay : Nat) :
    min deadline (finish later start delay) = min deadline (start + delay) := by
  cases later with
  | none => rfl
  | some later =>
    have hle : deadline ≤ later := h
    simp only [finish]
    split <;> omega

/-- An answer in time is in time for a later deadline, if the fetch starts at the same time as far
as the first deadline can tell. -/
theorem inTime_of_noLater (h : NoLater (some deadline) later) {start start' delay : Nat}
    (hstart : min deadline start = min deadline start')
    (hin : inTime (some deadline) start delay = true) :
    inTime later start' delay = true := by
  cases later with
  | none => rfl
  | some later =>
    have hle : deadline ≤ later := h
    rw [inTime_some_iff] at hin ⊢
    omega

theorem fetchFrom_of_inTime {deadline : Option Nat} {start : Nat} {directory : String}
    (h : inTime deadline start (answer (importPath root directory)).delay = true) :
    fetchFrom answer root deadline start directory = fetchOne answer root directory := by
  simp only [fetchFrom, h, if_true]

theorem fetchFrom_of_late {deadline : Option Nat} {start : Nat} {directory : String}
    (h : ¬ inTime deadline start (answer (importPath root directory)).delay = true) :
    (fetchFrom answer root deadline start directory).result =
      .error (.timeout (importPath root directory)) := by
  simp only [fetchFrom, h]
  rfl

theorem got?_of_late {deadline : Option Nat} {start : Nat} {directory : String}
    (h : ¬ inTime deadline start (answer (importPath root directory)).delay = true) :
    (fetchFrom answer root deadline start directory).got? = none := by
  simp only [Fetched.got?, fetchFrom_of_late h]

/-! ### Turns -/

theorem mem_insertTime {time t : Nat} {slots : List Nat} :
    t ∈ insertTime time slots ↔ t = time ∨ t ∈ slots := by
  induction slots with
  | nil => simp [insertTime]
  | cons next rest ih =>
    rw [insertTime]
    split
    · simp
    · simp only [List.mem_cons, ih]
      tauto

theorem pairwise_insertTime (time : Nat) {slots : List Nat} (h : slots.Pairwise (· ≤ ·)) :
    (insertTime time slots).Pairwise (· ≤ ·) := by
  induction slots with
  | nil => exact List.pairwise_singleton _ _
  | cons next rest ih =>
    obtain ⟨hnext, hrest⟩ := List.pairwise_cons.mp h
    rw [insertTime]
    split
    · rename_i hle
      refine List.pairwise_cons.mpr ⟨fun t ht => ?_, h⟩
      rcases List.mem_cons.mp ht with rfl | ht
      · exact hle
      · exact Nat.le_trans hle (hnext t ht)
    · rename_i hlt
      refine List.pairwise_cons.mpr ⟨fun t ht => ?_, ih hrest⟩
      rcases mem_insertTime.mp ht with rfl | ht
      · omega
      · exact hnext t ht

/-- Cutting off ascending times at a deadline goes together with putting one in. -/
theorem map_min_insertTime (deadline time : Nat) {slots : List Nat} (h : slots.Pairwise (· ≤ ·)) :
    (insertTime time slots).map (min deadline) =
      insertTime (min deadline time) (slots.map (min deadline)) := by
  induction slots with
  | nil => rfl
  | cons next rest ih =>
    obtain ⟨hnext, hrest⟩ := List.pairwise_cons.mp h
    simp only [insertTime, List.map_cons]
    by_cases hle : time ≤ next
    · rw [if_pos hle, if_pos (by omega)]
      rfl
    · rw [if_neg hle, List.map_cons, ih hrest]
      by_cases hcut : min deadline time ≤ min deadline next
      · -- Both are past the deadline, and so is all that follows.
        rw [if_pos hcut]
        have hnow : min deadline time = min deadline next := by omega
        rw [hnow]
        congr 1
        cases rest with
        | nil => rfl
        | cons t rest =>
          have ht := hnext t (List.mem_cons_self ..)
          rw [List.map_cons, insertTime, if_pos (by omega)]
      · rw [if_neg hcut]

/-- After a turn that was free at the same time as far as a deadline can tell, so are the next
ones. -/
theorem map_min_insertTime_finish (h : NoLater (some deadline) later) {start start' : Nat}
    (delay : Nat) {slots slots' : List Nat} (hs : slots.Pairwise (· ≤ ·))
    (hs' : slots'.Pairwise (· ≤ ·)) (hstart : min deadline start = min deadline start')
    (hslots : slots.map (min deadline) = slots'.map (min deadline)) :
    (insertTime (finish (some deadline) start delay) slots).map (min deadline) =
      (insertTime (finish later start' delay) slots').map (min deadline) := by
  have hfinish : min deadline (start + delay) = min deadline (start' + delay) := by omega
  rw [map_min_insertTime _ _ hs, map_min_insertTime _ _ hs', hslots, min_finish (.refl _),
    min_finish h, hfinish]

/-- **One level**: what is got by a deadline is got by a later one, if the turns are free at the
same times as far as the deadline can tell. -/
theorem got_turns_sublist (h : NoLater (some deadline) later) (directories : List String)
    {slots slots' : List Nat} (hs : slots.Pairwise (· ≤ ·)) (hs' : slots'.Pairwise (· ≤ ·))
    (hslots : slots.map (min deadline) = slots'.map (min deadline)) :
    ((turns answer root (some deadline) slots directories).filterMap (·.2.got?)).Sublist
      ((turns answer root later slots' directories).filterMap (·.2.got?)) := by
  induction directories generalizing slots slots' with
  | nil => cases slots <;> exact List.nil_sublist _
  | cons directory rest ih =>
    match slots, slots', hslots with
    | [], _, _ => exact List.nil_sublist _
    | start :: slots, start' :: slots', hslots =>
      obtain ⟨hstart, htail⟩ := List.cons.inj hslots
      have hnext := ih (pairwise_insertTime _ hs.of_cons) (pairwise_insertTime _ hs'.of_cons)
        (map_min_insertTime_finish h (answer (importPath root directory)).delay hs.of_cons
          hs'.of_cons hstart htail)
      rw [turns, turns]
      by_cases hin : inTime (some deadline) start (answer (importPath root directory)).delay = true
      · rw [fetchFrom_of_inTime hin, fetchFrom_of_inTime (inTime_of_noLater h hstart hin)]
        simp only [List.filterMap_cons]
        split
        · exact hnext
        · exact hnext.cons_cons _
      · simp only [List.filterMap_cons, got?_of_late hin]
        split
        · exact hnext
        · exact hnext.cons _

/-- Either no turn is late and the later deadline makes no difference, or one is late and finishes
when the deadline has come. -/
theorem turns_eq_or_late (answer : Answers) (root : String) (h : NoLater (some deadline) later)
    (directories : List String) (slots : List Nat) :
    turns answer root (some deadline) slots directories =
      turns answer root later slots directories ∨
      ∃ turn ∈ turns answer root (some deadline) slots directories,
        deadline ≤ turn.1 ∧ ∃ path, turn.2.result = .error (.timeout path) := by
  induction directories generalizing slots with
  | nil => exact .inl (by cases slots <;> rfl)
  | cons directory rest ih =>
    match slots with
    | [] => exact .inl rfl
    | start :: slots =>
      rw [turns, turns]
      generalize hdelay : (answer (importPath root directory)).delay = delay
      by_cases hin : inTime (some deadline) start delay = true
      · have hlater := inTime_of_noLater h rfl hin
        have hfinish : finish (some deadline) start delay = finish later start delay := by
          rw [inTime_some_iff] at hin
          cases later with
          | none =>
            simp only [finish]
            split <;> omega
          | some later =>
            have hle : deadline ≤ later := h
            simp only [finish]
            split <;> omega
        rw [← hdelay] at hin hlater
        rw [fetchFrom_of_inTime hin, fetchFrom_of_inTime hlater, hfinish]
        rcases ih (insertTime (finish later start delay) slots) with heq | ⟨turn, hturn, hlate⟩
        · exact .inl (by rw [heq])
        · exact .inr ⟨turn, List.mem_cons_of_mem _ hturn, hlate⟩
      · refine .inr ⟨_, List.mem_cons_self .., ?_, importPath root directory, ?_⟩
        · rw [inTime_some_iff] at hin
          simp only [finish]
          split <;> omega
        · rw [← hdelay] at hin
          exact fetchFrom_of_late hin

/-! ### Past the deadline -/

/-- The package that is got at once, without a delay. -/
def atOnce? (answer : Answers) (root directory : String) : Option SubPackage :=
  if (answer (importPath root directory)).delay = 0
    then (fetchOne answer root directory).got? else none

/-- Turns that are free when a deadline is past only get what is got at once. -/
theorem got_turns_past (directories : List String) {slots : List Nat} (hne : slots ≠ [])
    (hpast : ∀ start ∈ slots, deadline ≤ start) :
    (turns answer root (some deadline) slots directories).filterMap (·.2.got?) =
      directories.filterMap (atOnce? answer root) := by
  induction directories generalizing slots with
  | nil => cases slots <;> rfl
  | cons directory rest ih =>
    match slots, hne with
    | start :: slots, _ =>
      have hstart : deadline ≤ start := hpast start (List.mem_cons_self ..)
      generalize hdelay : (answer (importPath root directory)).delay = delay
      have hnext := ih (insertTime_ne_nil (finish (some deadline) start delay) slots) (by
        intro time htime
        rcases mem_insertTime.mp htime with rfl | htime
        · simp only [finish]
          split <;> omega
        · exact hpast time (List.mem_cons_of_mem _ htime))
      have hhead : (fetchFrom answer root (some deadline) start directory).got? =
          atOnce? answer root directory := by
        rw [atOnce?, hdelay]
        by_cases hzero : delay = 0
        · rw [if_pos hzero, fetchFrom_of_inTime (by rw [hdelay, hzero, inTime_zero])]
        · rw [if_neg hzero]
          refine got?_of_late ?_
          rw [hdelay, inTime_some_iff]
          omega
      rw [turns, hdelay, List.filterMap_cons, List.filterMap_cons, hnext, hhead]

/-- What is got at once is got by any deadline. -/
theorem atOnce_sublist_turns (later : Option Nat) (directories : List String) {slots : List Nat}
    (hne : slots ≠ []) :
    (directories.filterMap (atOnce? answer root)).Sublist
      ((turns answer root later slots directories).filterMap (·.2.got?)) := by
  induction directories generalizing slots with
  | nil => exact List.nil_sublist _
  | cons directory rest ih =>
    match slots, hne with
    | start :: slots, _ =>
      have hnext := ih (insertTime_ne_nil
        (finish later start (answer (importPath root directory)).delay) slots)
      rw [turns, List.filterMap_cons, List.filterMap_cons, atOnce?]
      split
      · split
        · exact hnext
        · exact hnext.cons _
      · rename_i hgot
        by_cases hzero : (answer (importPath root directory)).delay = 0
        · rw [if_pos hzero] at hgot
          rw [fetchFrom_of_inTime (by rw [hzero, inTime_zero]), hgot]
          exact hnext.cons_cons _
        · rw [if_neg hzero] at hgot
          cases hgot

/-! ### Levels -/

theorem le_foldl_max (finished : List (Nat × Fetched)) (time : Nat) :
    time ≤ finished.foldl (fun last turn => max last turn.1) time ∧
      ∀ turn ∈ finished, turn.1 ≤ finished.foldl (fun last turn => max last turn.1) time := by
  induction finished generalizing time with
  | nil => exact ⟨Nat.le_refl time, fun _ h => absurd h List.not_mem_nil⟩
  | cons first rest ih =>
    obtain ⟨htime, hrest⟩ := ih (max time first.1)
    simp only [List.foldl_cons]
    refine ⟨by omega, fun turn hturn => ?_⟩
    rcases List.mem_cons.mp hturn with rfl | hturn
    · omega
    · exact hrest turn hturn

theorem le_settle (time : Nat) (finished : List (Nat × Fetched)) :
    time ≤ (settle time finished).2 :=
  (le_foldl_max _ time).1

/-- The fetches of a level are those of its turns. -/
theorem got_settle (time : Nat) (finished : List (Nat × Fetched)) :
    ((settle time finished).1.filterMap Fetched.got?).Perm (finished.filterMap (·.2.got?)) := by
  simp only [settle, List.filterMap_map]
  exact (List.mergeSort_perm ..).filterMap _

theorem slots_eq_replicate (permits : Option Nat) (time : Nat) (directories : List String) :
    ∃ count, slots permits time directories = List.replicate count time := by
  cases permits with
  | none => exact ⟨_, rfl⟩
  | some permits => exact ⟨_, rfl⟩

theorem pairwise_slots (permits : Option Nat) (time : Nat) (directories : List String) :
    (slots permits time directories).Pairwise (· ≤ ·) := by
  obtain ⟨count, hslots⟩ := slots_eq_replicate permits time directories
  rw [hslots]
  exact List.pairwise_replicate.mpr (.inr (Nat.le_refl time))

/-- A level that starts when the deadline is past only gets what is got at once. -/
theorem got_runLevel_past {permits : Option Nat} (hpermits : permits ≠ some 0) {time : Nat}
    {directories : List String} (hpast : deadline ≤ time) (hne : directories ≠ [])
    {done : List Fetched × Nat}
    (hdone : runLevel answer root (some deadline) permits time directories = some done) :
    (done.1.filterMap Fetched.got?).Perm (directories.filterMap (atOnce? answer root)) := by
  obtain ⟨-, rfl⟩ := runLevel_eq_some_iff.mp hdone
  refine (got_settle ..).trans (.of_eq (got_turns_past _ (slots_ne_nil hpermits time hne) ?_))
  intro start hstart
  obtain ⟨count, hslots⟩ := slots_eq_replicate permits time directories
  rw [hslots] at hstart
  rw [List.eq_of_mem_replicate hstart]
  exact hpast

theorem atOnce_subperm_runLevel {permits : Option Nat} (hpermits : permits ≠ some 0) {time : Nat}
    {directories : List String} (hne : directories ≠ []) {done : List Fetched × Nat}
    (hdone : runLevel answer root later permits time directories = some done) :
    (directories.filterMap (atOnce? answer root)).Subperm (done.1.filterMap Fetched.got?) := by
  obtain ⟨-, rfl⟩ := runLevel_eq_some_iff.mp hdone
  exact (atOnce_sublist_turns later directories (slots_ne_nil hpermits time hne)).subperm.trans
    (got_settle ..).symm.subperm

/-! ### What is got and what follows from it -/

/-- The directories below a package. -/
def SubPackage.below (sub : SubPackage) : List String :=
  sub.package.subdirectories.map fun child => sub.path ++ "/" ++ child

theorem flatMap_children (fetched : List Fetched) :
    fetched.flatMap Fetched.children = (fetched.filterMap Fetched.got?).flatMap
      SubPackage.below := by
  induction fetched with
  | nil => rfl
  | cons first rest ih =>
    rw [List.flatMap_cons, List.filterMap_cons, ih]
    simp only [Fetched.children, Fetched.got?]
    cases first.result <;> rfl

theorem filterMap_subPackage? (fetched : List Fetched) :
    fetched.filterMap Fetched.subPackage? =
      (fetched.filterMap Fetched.got?).filter (·.package.isDocumentable) := by
  induction fetched with
  | nil => rfl
  | cons first rest ih =>
    rw [List.filterMap_cons, List.filterMap_cons, ih]
    simp only [Fetched.subPackage?, Fetched.got?]
    cases first.result with
    | error failure => rfl
    | ok package => cases h : package.isDocumentable <;> simp [h]

theorem flatMap_sublist {α β : Type} (f : α → List β) {a b : List α} (h : a.Sublist b) :
    (a.flatMap f).Sublist (b.flatMap f) := by
  induction h with
  | slnil => exact .slnil
  | cons x _ ih => exact ih.trans (List.sublist_append_right _ _)
  | cons_cons x _ ih => exact (List.append_sublist_append_left _).mpr ih

theorem nextLevel_subperm (descends : Nat → Bool) (depth : Nat) {done done' : List Fetched}
    (h : (done.filterMap Fetched.got?).Subperm (done'.filterMap Fetched.got?)) :
    (nextLevel descends depth done).Subperm (nextLevel descends depth done') := by
  simp only [nextLevel, flatMap_children]
  split
  · obtain ⟨part, hperm, hpart⟩ := h
    exact ⟨_, hperm.flatMap_right _, flatMap_sublist _ hpart⟩
  · exact .refl _

/-! ### Two runs -/

/-- How a run with a deadline and one with a later deadline stand when they come to a level: they
have not parted, or the deadline is past and the second run has at least the directories of the
first. -/
inductive Standing (deadline : Nat) :
    (time : Nat) → List String → (time' : Nat) → List String → Prop
  | together (time : Nat) (directories : List String) :
      Standing deadline time directories time directories
  | parted {time time' : Nat} {directories directories' : List String} (hpast : deadline ≤ time)
      (h : directories.Subperm directories') : Standing deadline time directories time' directories'

theorem Standing.subperm {time time' : Nat} {directories directories' : List String}
    (h : Standing deadline time directories time' directories') :
    directories.Subperm directories' := by
  cases h with
  | together => exact .refl _
  | parted _ h => exact h

/-- What a level does to two runs: the second one gets all that the first one gets, and they come to
the next level in the same standing. -/
theorem Standing.step (hlater : NoLater (some deadline) later) {permits : Option Nat}
    (descends : Nat → Bool) (depth : Nat) {time time' : Nat}
    {directories directories' : List String}
    (h : Standing deadline time directories time' directories') (hne : directories ≠ [])
    {done done' : List Fetched × Nat}
    (hdone : runLevel answer root (some deadline) permits time directories = some done)
    (hdone' : runLevel answer root later permits time' directories' = some done') :
    (done.1.filterMap Fetched.got?).Subperm (done'.1.filterMap Fetched.got?) ∧
      Standing deadline done.2 (nextLevel descends depth done.1) done'.2
        (nextLevel descends depth done'.1) := by
  cases h with
  | together =>
    obtain ⟨-, hsettle⟩ := runLevel_eq_some_iff.mp hdone
    obtain ⟨-, hsettle'⟩ := runLevel_eq_some_iff.mp hdone'
    have hsorted := pairwise_slots permits time directories
    have hgot : (done.1.filterMap Fetched.got?).Subperm (done'.1.filterMap Fetched.got?) := by
      rw [← hsettle, ← hsettle']
      exact (got_settle ..).subperm.trans
        ((got_turns_sublist hlater directories hsorted hsorted rfl).subperm.trans
          (got_settle ..).symm.subperm)
    refine ⟨hgot, ?_⟩
    rcases turns_eq_or_late answer root hlater directories (slots permits time directories)
      with heq | ⟨turn, hturn, hpast, -⟩
    · rw [← hsettle, ← hsettle', heq]
      exact .together _ _
    · refine .parted ?_ (nextLevel_subperm descends depth hgot)
      rw [← hsettle]
      exact Nat.le_trans hpast ((le_foldl_max _ time).2 turn hturn)
  | parted hpast hsub =>
    have hpermits : permits ≠ some 0 := fun hzero => hne ((runLevel_eq_some_iff.mp hdone).1 hzero)
    have hne' : directories' ≠ [] := by
      rintro rfl
      exact hne (List.subperm_nil.mp hsub)
    have hend : deadline ≤ done.2 := by
      obtain ⟨-, rfl⟩ := runLevel_eq_some_iff.mp hdone
      exact Nat.le_trans hpast (le_settle ..)
    obtain ⟨part, hperm, hpart⟩ := hsub
    have hatOnce : (directories.filterMap (atOnce? answer root)).Subperm
        (directories'.filterMap (atOnce? answer root)) :=
      ⟨_, hperm.filterMap _, hpart.filterMap _⟩
    have hgot := (got_runLevel_past hpermits hpast hne hdone).subperm.trans
      (hatOnce.trans (atOnce_subperm_runLevel hpermits hne' hdone'))
    exact ⟨hgot, .parted hend (nextLevel_subperm descends depth hgot)⟩

/-- What a whole run gets with a deadline, it gets with a later one. -/
theorem Standing.run (hlater : NoLater (some deadline) later) {permits : Option Nat}
    (descends : Nat → Bool) {rounds rounds' depth time time' : Nat}
    {directories directories' : List String}
    (h : Standing deadline time directories time' directories') {fetched fetched' : List Fetched}
    (hfetched : fetchLevels (runLevel answer root (some deadline) permits) descends rounds depth
      time directories = some fetched)
    (hfetched' : fetchLevels (runLevel answer root later permits) descends rounds' depth time'
      directories' = some fetched') :
    (fetched.filterMap Fetched.got?).Subperm (fetched'.filterMap Fetched.got?) := by
  induction rounds generalizing rounds' depth time time' directories directories' fetched
    fetched' with
  | zero =>
    obtain ⟨-, rfl⟩ | ⟨-, _, _, _, hrounds, -⟩ := fetchLevels_cases hfetched
    · exact List.nil_subperm
    · cases hrounds
  | succ rounds ih =>
    obtain ⟨-, rfl⟩ | ⟨hne, _, done, rest, hrounds, hdone, hrest, rfl⟩ := fetchLevels_cases hfetched
    · exact List.nil_subperm
    · cases hrounds
      obtain ⟨rfl, -⟩ | ⟨-, _, done', rest', -, hdone', hrest', rfl⟩ := fetchLevels_cases hfetched'
      · exact absurd (List.subperm_nil.mp h.subperm) hne
      · obtain ⟨hgot, hnext⟩ := h.step hlater descends depth hne hdone hdone'
        rw [List.filterMap_append, List.filterMap_append]
        exact ((List.subperm_append_right _).mpr hgot).trans
          ((List.subperm_append_left _).mpr (ih hnext hrest hrest'))

/-- If no fetch of a level is late, a later deadline makes no difference to it. -/
theorem runLevel_eq_of_no_timeout (hlater : NoLater (some deadline) later) {permits : Option Nat}
    {time : Nat} {directories : List String} {done : List Fetched × Nat}
    (hdone : runLevel answer root (some deadline) permits time directories = some done)
    (hno : ∀ fetch ∈ done.1, ∀ path, fetch.result ≠ .error (.timeout path)) :
    runLevel answer root later permits time directories = some done := by
  obtain ⟨hpermits, rfl⟩ := runLevel_eq_some_iff.mp hdone
  refine runLevel_eq_some_iff.mpr ⟨hpermits, ?_⟩
  rcases turns_eq_or_late answer root hlater directories (slots permits time directories) with
    heq | ⟨turn, hturn, -, path, hlate⟩
  · rw [heq]
  · exact absurd hlate (hno turn.2 (List.mem_map_of_mem (List.mem_mergeSort.mpr hturn)) path)

/-- If no fetch is late, a later deadline makes no difference. -/
theorem fetchLevels_eq_of_no_timeout (hlater : NoLater (some deadline) later) (permits : Option Nat)
    (descends : Nat → Bool) {rounds depth time : Nat} {directories : List String}
    {fetched : List Fetched} (hfetched : fetchLevels (runLevel answer root (some deadline) permits)
      descends rounds depth time directories = some fetched)
    (hno : ∀ fetch ∈ fetched, ∀ path, fetch.result ≠ .error (.timeout path)) :
    fetchLevels (runLevel answer root later permits) descends rounds depth time directories =
      some fetched := by
  induction rounds generalizing depth time directories fetched with
  | zero =>
    obtain ⟨rfl, rfl⟩ | ⟨-, _, _, _, hrounds, -⟩ := fetchLevels_cases hfetched
    · exact fetchLevels_nil ..
    · cases hrounds
  | succ rounds ih =>
    obtain ⟨rfl, rfl⟩ | ⟨hne, _, done, rest, hrounds, hdone, hrest, rfl⟩ :=
      fetchLevels_cases hfetched
    · exact fetchLevels_nil ..
    · cases hrounds
      have hlevel := runLevel_eq_of_no_timeout hlater hdone fun fetch hfetch =>
        hno fetch (List.mem_append_left _ hfetch)
      rw [fetchLevels_succ hne hlevel,
        ih hrest fun fetch hfetch => hno fetch (List.mem_append_right _ hfetch)]
      rfl

/-! ### Outcomes -/

theorem ne_timeout_of_mem {fetched : List Fetched}
    (h : ∀ failure ∈ (Outcome.ofFetched fetched).failures, ∀ path, failure.2 ≠ .timeout path) :
    ∀ fetch ∈ fetched, ∀ path, fetch.result ≠ .error (.timeout path) := by
  intro fetch hfetch path hlate
  have hmem : (fetch.importPath, Failure.timeout path) ∈ (Outcome.ofFetched fetched).failures := by
    refine List.mem_mergeSort.mpr (List.mem_filterMap.mpr ⟨fetch, hfetch, ?_⟩)
    simp only [Fetched.failure?, hlate]
  exact h _ hmem path rfl

/-- What is got more often is in the outcome more often. -/
theorem packages_subperm {fetched fetched' : List Fetched}
    (h : (fetched.filterMap Fetched.got?).Subperm (fetched'.filterMap Fetched.got?)) :
    (Outcome.ofFetched fetched).packages.Subperm (Outcome.ofFetched fetched').packages := by
  refine (List.mergeSort_perm ..).subperm.trans (.trans ?_ (List.mergeSort_perm ..).symm.subperm)
  rw [filterMap_subPackage?, filterMap_subPackage?]
  exact h.filter _

/-- **A later deadline loses no package**: every package in the outcome with a deadline is in the
outcome with a later one, as often. If no fetch is late, the outcome is the one without a deadline.
With every deadline there is an outcome exactly if the limit admits the directories. -/
theorem packages_subperm_of_noLater (source : Source) (root : String) (options : Options)
    (time : Nat) (directories : List String) {deadline later : Option Nat}
    (h : NoLater deadline later) :
    (∀ outcome, outcome? source root { options with deadline } time directories = some outcome →
      (∃ outcome',
        outcome? source root { options with deadline := later } time directories = some outcome' ∧
        outcome.packages.Subperm outcome'.packages) ∧
      ((∀ failure ∈ outcome.failures, ∀ path, failure.2 ≠ .timeout path) →
        outcome? source root { options with deadline := none } time directories = some outcome)) ∧
    ((outcome? source root { options with deadline } time directories).isSome ↔
      Admits options.maxParallel directories) := by
  refine ⟨fun outcome houtcome => ?_, isSome_outcome?_iff⟩
  cases deadline with
  | none =>
    cases later with
    | none => exact ⟨⟨outcome, houtcome, .refl _⟩, fun _ => houtcome⟩
    | some later => exact absurd h id
  | some deadline =>
    obtain ⟨hadmits, fetched, hfetched, rfl⟩ := outcome?_eq_some_iff.mp houtcome
    constructor
    · obtain ⟨fetched', hfetched'⟩ := Option.isSome_iff_exists.mp
        (isSome_fetchLevels source root later options.descends time hadmits)
      have hgot := (Standing.together time directories).run h options.descends hfetched hfetched'
      exact ⟨.ofFetched fetched', outcome?_eq_some_iff.mpr ⟨hadmits, fetched', hfetched', rfl⟩,
        packages_subperm hgot⟩
    · intro hno
      have hsame := fetchLevels_eq_of_no_timeout (noLater_none (some deadline)) options.maxParallel
        options.descends hfetched (ne_timeout_of_mem hno)
      exact outcome?_eq_some_iff.mpr ⟨hadmits, fetched, hsame, rfl⟩

/-- One fetch at a time, the slow one first: it is late for the first deadline, and nothing is late
for the second. -/
theorem packages_subperm_of_noLater_slow :
    let source : Source := .ofManifest ⟨[("r/fast", { name := "fast" }),
      ("r/slow", { name := "slow", subdirectories := ["deep"] }),
      ("r/slow/deep", { name := "deep" })]⟩
      { delays := [("r/fast", 1), ("r/slow", 5)] }
    let options : Options := { recursive := true, maxParallel := some 1 }
    let outcome? (deadline : Option Nat) :=
      outcome? source "r" { options with deadline } 0 ["slow", "fast"]
    NoLater (some 3) (some 9) ∧ ∃ early late, outcome? (some 3) = some early ∧
      outcome? (some 9) = some late ∧
      early.packages.Subperm late.packages ∧ late.failures = [] ∧ outcome? none = some late := by
  intro source options outcome?
  have hlater : NoLater (some 3) (some 9) := by
    show 3 ≤ 9
    decide
  have hfailures (late : Outcome) (hlate : outcome? (some 9) = some late) : late.failures = [] := by
    obtain ⟨-, fetched, hfetched, rfl⟩ := outcome?_eq_some_iff.mp hlate
    rw [show source.longest = 11 from rfl] at hfetched
    simp [source, options, fetchLevels, runLevel, settle, turns, slots, insertTime, finish,
      fetchFrom, fetchOne, importPath, inTime, Source.ofManifest, Keyed.get?, List.lookup_cons,
      List.lookup_nil, List.mergeSort, Trouble.reply, Manifest.reply, Manifest.get, Manifest.get?,
      resultOf, nextLevel, Options.descends, Fetched.children] at hfetched
    simp [← hfetched, Outcome.ofFetched, List.filterMap_cons, Fetched.failure?, FetchFailure.sort]
  obtain ⟨early, hearly⟩ : ∃ early, outcome? (some 3) = some early :=
    exists_outcome?_eq source "r" 0 (admits_some (by decide) (by decide) _)
  obtain ⟨late, hlate, hsub⟩ :=
    ((packages_subperm_of_noLater source "r" options 0 _ hlater).1 early hearly).1
  refine ⟨hlater, early, late, hearly, hlate, hsub, hfailures late hlate, ?_⟩
  refine ((packages_subperm_of_noLater source "r" options 0 _ (NoLater.refl _)).1 late hlate).2
    fun failure hfailure => ?_
  rw [hfailures late hlate] at hfailure
  cases hfailure

end PackageReadme.Fetch
