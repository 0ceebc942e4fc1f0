import Mathlib.Data.List.Perm.Basic
import Mathlib.Data.List.Range
import PackageReadme.Fetch.Outcome

/-! What is fetched, whatever the schedule.

`level` says which directories are reached at a depth, from the answers alone.
`fetch_collects_levels`: once a level is empty, there is one outcome that holds what the answers
give for the directories of all levels, every occurrence once and in order, and fetching comes to
that outcome in whatever order the fetches of each level complete. If no level is empty, no number
of rounds is enough. The clock completes every level under a limit that admits the directories;
under any other there is no outcome (`isSome_outcome?_iff`). -/
namespace PackageReadme.Fetch

/-! ### Reachable directories -/

section
variable (answer : Answers) (root : String)

/-- The directories below one, if it can be fetched. -/
def below (directory : String) : List String :=
  match (answer (importPath root directory)).reply with
  | .found package => package.subdirectories.map fun child => directory ++ "/" ++ child
  | .refused _ => []
  | .crashed _ => []

/-- The directories that are reached at a depth. -/
def level (options : Options) (directories : List String) : (depth : Nat) → List String
  | 0 => directories
  | depth + 1 =>
    if options.recursive && options.maxDepth.all (depth + 1 < ·) then
      (level options directories depth).flatMap (below answer root)
    else []

/-- The directories that are reached above a depth, level by level. -/
def reached (options : Options) (directories : List String) (depth : Nat) : List String :=
  (List.range depth).flatMap (level answer root options directories)

/-- What stands in the outcome for a directory that holds a package. -/
def found? (directory : String) : Option SubPackage :=
  match (answer (importPath root directory)).reply with
  | .found package => if package.isDocumentable then some ⟨directory, package⟩ else none
  | .refused _ => none
  | .crashed _ => none

/-- What stands in the outcome for a directory that cannot be fetched, under its import path. -/
def failed? (directory : String) : Option FetchFailure :=
  match (answer (importPath root directory)).reply with
  | .found _ => none
  | .refused failure => some (importPath root directory, failure)
  | .crashed message => some (importPath root directory, .crashed message)

/-- The outcome holds what the answers give for some directories, every occurrence once, by path. -/
structure Collects (directories : List String) (outcome : Outcome) : Prop where
  packages : outcome.packages.Perm (directories.filterMap (found? answer root))
  packages_sorted : outcome.packages.Pairwise fun a b => a.path ≤ b.path
  failures : outcome.failures.Perm (directories.filterMap (failed? answer root))
  failures_sorted : outcome.failures.Pairwise fun a b => a.1 ≤ b.1

/-- A way to run levels in which every directory is fetched once, in whatever order. -/
def Completes (run : Nat → List String → Option (List Fetched × Nat)) : Prop :=
  ∀ time directories, ∃ done, run time directories = some done ∧
    done.1.Perm (directories.map (fetchOne answer root))

end

variable {answer : Answers} {root : String} {options : Options} {directories : List String}

/-! ### One fetch -/

theorem children_fetchOne (answer : Answers) (root directory : String) :
    (fetchOne answer root directory).children = below answer root directory := by
  cases h : (answer (importPath root directory)).reply <;>
    simp [fetchOne, Fetched.children, below, h, resultOf]

theorem subPackage?_fetchOne (answer : Answers) (root directory : String) :
    (fetchOne answer root directory).subPackage? = found? answer root directory := by
  cases h : (answer (importPath root directory)).reply <;>
    simp [fetchOne, Fetched.subPackage?, found?, h, resultOf]

theorem failure?_fetchOne (answer : Answers) (root directory : String) :
    (fetchOne answer root directory).failure? = failed? answer root directory := by
  cases h : (answer (importPath root directory)).reply <;>
    simp [fetchOne, Fetched.failure?, failed?, h, resultOf]

theorem path_of_found? {directory : String} {sub : SubPackage}
    (h : found? answer root directory = some sub) : sub.path = directory := by
  simp only [found?] at h
  split at h
  · split at h
    · rw [← Option.some.inj h]
    · cases h
  · cases h
  · cases h

theorem path_of_failed? {directory : String} {failure : FetchFailure}
    (h : failed? answer root directory = some failure) : failure.1 = importPath root directory := by
  simp only [failed?] at h
  split at h
  · cases h
  · rw [← Option.some.inj h]
  · rw [← Option.some.inj h]

/-- Packages of one path are equal, for the answers are a function of it. -/
theorem eq_of_mem_found {sub other : SubPackage}
    (h : sub ∈ directories.filterMap (found? answer root))
    (h' : other ∈ directories.filterMap (found? answer root)) (hpath : sub.path = other.path) :
    sub = other := by
  obtain ⟨directory, -, hsub⟩ := List.mem_filterMap.mp h
  obtain ⟨directory', -, hother⟩ := List.mem_filterMap.mp h'
  rw [path_of_found? hsub, path_of_found? hother] at hpath
  rw [hpath, hother] at hsub
  exact (Option.some.inj hsub).symm

/-- Failures of one import path are equal. -/
theorem eq_of_mem_failed {failure other : FetchFailure}
    (h : failure ∈ directories.filterMap (failed? answer root))
    (h' : other ∈ directories.filterMap (failed? answer root)) (hpath : failure.1 = other.1) :
    failure = other := by
  obtain ⟨directory, -, hfailure⟩ := List.mem_filterMap.mp h
  obtain ⟨directory', -, hother⟩ := List.mem_filterMap.mp h'
  rw [path_of_failed? hfailure, path_of_failed? hother] at hpath
  simp only [failed?, hpath] at hfailure hother
  rw [hfailure] at hother
  exact Option.some.inj hother

/-! ### Sorting -/

/-- A list in ascending order of its keys is determined by its elements, if equal keys belong to
equal elements. -/
theorem eq_of_perm_of_sorted {α : Type} (key : α → String) {a b : List α}
    (hkey : ∀ x ∈ a, ∀ y ∈ a, key x = key y → x = y) (ha : a.Pairwise fun x y => key x ≤ key y)
    (hb : b.Pairwise fun x y => key x ≤ key y) (h : a.Perm b) : a = b := by
  refine h.eq_of_pairwise (fun x y hx hy hxy hyx => ?_) ha hb
  exact hkey x hx y (h.mem_iff.mpr hy) (String.le_antisymm hxy hyx)

theorem pairwise_mergeSort_key {α : Type} (key : α → String) (a : List α) :
    (a.mergeSort fun x y => key x ≤ key y).Pairwise fun x y => key x ≤ key y := by
  have htrans : ∀ x y z : α, decide (key x ≤ key y) = true → decide (key y ≤ key z) = true →
      decide (key x ≤ key z) = true := by
    intro x y z hxy hyz
    simp only [decide_eq_true_eq] at hxy hyz ⊢
    exact String.le_trans hxy hyz
  have htotal : ∀ x y : α, (decide (key x ≤ key y) || decide (key y ≤ key x)) = true := by
    intro x y
    simp only [Bool.or_eq_true, decide_eq_true_eq]
    exact String.le_total (key x) (key y)
  exact (List.pairwise_mergeSort htrans htotal a).imp fun h => of_decide_eq_true h

/-! ### Outcomes -/

/-- What fetches in any order give is what the answers give. -/
theorem filterMap_perm {β : Type} {f : Fetched → Option β} {g : String → Option β}
    {fetched : List Fetched} (hfg : ∀ directory, f (fetchOne answer root directory) = g directory)
    (h : fetched.Perm (directories.map (fetchOne answer root))) :
    (fetched.filterMap f).Perm (directories.filterMap g) := by
  refine (h.filterMap f).trans ?_
  rw [List.filterMap_map]
  exact .of_eq (List.filterMap_congr fun directory _ => hfg directory)

/-- Fetches of some directories in any order make an outcome that collects them. -/
theorem collects_ofFetched {fetched : List Fetched}
    (h : fetched.Perm (directories.map (fetchOne answer root))) :
    Collects answer root directories (.ofFetched fetched) where
  packages := (List.mergeSort_perm ..).trans (filterMap_perm (subPackage?_fetchOne answer root) h)
  packages_sorted := pairwise_mergeSort_key SubPackage.path _
  failures := (List.mergeSort_perm ..).trans (filterMap_perm (failure?_fetchOne answer root) h)
  failures_sorted := pairwise_mergeSort_key Prod.fst _

/-- There is only one outcome that collects some directories. -/
theorem Collects.unique {a b : Outcome} (ha : Collects answer root directories a)
    (hb : Collects answer root directories b) : a = b := by
  have hpackages : a.packages = b.packages := by
    refine eq_of_perm_of_sorted SubPackage.path (fun x hx y hy => ?_) ha.packages_sorted
      hb.packages_sorted (ha.packages.trans hb.packages.symm)
    exact eq_of_mem_found (ha.packages.mem_iff.mp hx) (ha.packages.mem_iff.mp hy)
  have hfailures : a.failures = b.failures := by
    refine eq_of_perm_of_sorted Prod.fst (fun x hx y hy => ?_) ha.failures_sorted
      hb.failures_sorted (ha.failures.trans hb.failures.symm)
    exact eq_of_mem_failed (ha.failures.mem_iff.mp hx) (ha.failures.mem_iff.mp hy)
  cases a
  cases b
  simp only [Outcome.mk.injEq]
  exact ⟨hpackages, hfailures⟩

/-! ### One level -/

/-- However the fetches of a level complete, the next level has the same directories. -/
theorem nextLevel_perm {depth : Nat} {ls : List String} {done : List Fetched}
    (hls : ls.Perm (level answer root options directories depth))
    (hdone : done.Perm (ls.map (fetchOne answer root))) :
    (nextLevel options.descends depth done).Perm
      (level answer root options directories (depth + 1)) := by
  have hbelow : (done.flatMap Fetched.children).Perm (ls.flatMap (below answer root)) := by
    refine (hdone.flatMap_right _).trans ?_
    rw [List.flatMap_map]
    exact .of_eq (List.flatMap_congr fun directory _ => children_fetchOne answer root directory)
  rw [nextLevel, level, Options.descends]
  split
  · exact hbelow.trans (hls.flatMap_right _)
  · exact .nil

theorem level_eq_nil_of_le {n : Nat} (h : level answer root options directories n = []) {m : Nat}
    (hm : n ≤ m) : level answer root options directories m = [] := by
  induction m, hm using Nat.le_induction with
  | base => exact h
  | succ m _ ih =>
    rw [level, ih]
    split <;> rfl

/-- Beyond an empty level nothing is reached. -/
theorem reached_eq_of_le {n m : Nat} (h : level answer root options directories n = [])
    (hm : n ≤ m) :
    reached answer root options directories m = reached answer root options directories n := by
  induction m, hm using Nat.le_induction with
  | base => rfl
  | succ m hm ih =>
    rw [reached, List.range_succ, List.flatMap_append, ← reached, ih, List.flatMap_singleton,
      level_eq_nil_of_le h hm, List.append_nil]

theorem reached_eq {n m : Nat} (hn : level answer root options directories n = [])
    (hm : level answer root options directories m = []) :
    reached answer root options directories m = reached answer root options directories n := by
  rcases Nat.le_total n m with h | h
  · exact reached_eq_of_le hn h
  · exact (reached_eq_of_le hm h).symm

/-! ### All levels -/

/-- The directories that are reached from a depth on, over some levels. -/
def reachedFrom (answer : Answers) (root : String) (options : Options) (directories : List String)
    (depth count : Nat) : List String :=
  (List.range count).flatMap fun k => level answer root options directories (depth + k)

theorem reachedFrom_succ (depth count : Nat) :
    reachedFrom answer root options directories depth (count + 1) =
      level answer root options directories depth ++
        reachedFrom answer root options directories (depth + 1) count := by
  rw [reachedFrom, List.range_succ_eq_map, List.flatMap_cons, List.flatMap_map, reachedFrom]
  congr 1
  apply List.flatMap_congr
  intro k _
  congr 1
  omega

theorem reachedFrom_zero (count : Nat) :
    reachedFrom answer root options directories 0 count =
      reached answer root options directories count := by
  simp only [reachedFrom, reached, Nat.zero_add]

theorem reachedFrom_eq_nil {depth : Nat} (h : level answer root options directories depth = [])
    (count : Nat) :
    reachedFrom answer root options directories depth count = [] := by
  apply List.flatMap_eq_nil_iff.mpr
  intro k _
  exact level_eq_nil_of_le h (Nat.le_add_right depth k)

section
variable {run : Nat → List String → Option (List Fetched × Nat)} {descends : Nat → Bool}
  {rounds depth time : Nat}

/-- A run that ends has no level left, or it ends after the next level. -/
theorem fetchLevels_cases {directories : List String} {fetched : List Fetched}
    (h : fetchLevels run descends rounds depth time directories = some fetched) :
    (directories = [] ∧ fetched = []) ∨
      (directories ≠ [] ∧ ∃ left done rest, rounds = left + 1 ∧ run time directories = some done ∧
        fetchLevels run descends left (depth + 1) done.2
          (nextLevel descends depth done.1) = some rest ∧
        fetched = done.1 ++ rest) := by
  by_cases hne : directories = []
  · rw [hne, fetchLevels_nil] at h
    exact .inl ⟨hne, (Option.some.inj h).symm⟩
  · cases rounds with
    | zero =>
      rw [fetchLevels_zero hne] at h
      cases h
    | succ left =>
      cases hrun : run time directories with
      | none =>
        rw [fetchLevels_eq_none_of_stuck hne hrun] at h
        cases h
      | some done =>
        rw [fetchLevels_succ hne hrun] at h
        obtain ⟨rest, hrest, hfetched⟩ := Option.map_eq_some_iff.mp h
        exact .inr ⟨hne, left, done, rest, rfl, rfl, hrest, hfetched.symm⟩

/-- More rounds than are needed change nothing. -/
theorem fetchLevels_succ_of_eq_some {directories : List String} {fetched : List Fetched}
    (h : fetchLevels run descends rounds depth time directories = some fetched) :
    fetchLevels run descends (rounds + 1) depth time directories = some fetched := by
  induction rounds generalizing depth time directories fetched with
  | zero =>
    obtain ⟨rfl, rfl⟩ | ⟨-, _, _, _, hrounds, -⟩ := fetchLevels_cases h
    · exact fetchLevels_nil ..
    · cases hrounds
  | succ rounds ih =>
    obtain ⟨rfl, rfl⟩ | ⟨hne, _, done, rest, hrounds, hrun, hrest, rfl⟩ := fetchLevels_cases h
    · exact fetchLevels_nil ..
    · cases hrounds
      rw [fetchLevels_succ hne hrun, ih hrest]
      rfl

/-- From a depth with its directories in any order, all levels up to an empty one are fetched. -/
theorem fetchLevels_eq_some (hrun : Completes answer root run) (rounds depth time : Nat)
    (ls : List String) (hls : ls.Perm (level answer root options directories depth))
    (hend : level answer root options directories (depth + rounds) = []) :
    ∃ fetched, fetchLevels run options.descends rounds depth time ls = some fetched ∧
      fetched.Perm ((reachedFrom answer root options directories depth rounds).map
        (fetchOne answer root)) := by
  induction rounds generalizing depth time ls with
  | zero =>
    have hnil : ls = [] := List.perm_nil.mp (hend ▸ hls)
    rw [hnil, fetchLevels_nil]
    exact ⟨[], rfl, .nil⟩
  | succ rounds ih =>
    by_cases hnil : ls = []
    · have hlevel : level answer root options directories depth = [] :=
        List.nil_perm.mp (hnil ▸ hls)
      rw [hnil, fetchLevels_nil, reachedFrom_eq_nil hlevel]
      exact ⟨[], rfl, .nil⟩
    · obtain ⟨done, hdone, hcomplete⟩ := hrun time ls
      obtain ⟨fetched, hfetched, hperm⟩ := ih (depth + 1) done.2 _ (nextLevel_perm hls hcomplete)
        (by rwa [Nat.add_right_comm])
      refine ⟨done.1 ++ fetched, ?_, ?_⟩
      · rw [fetchLevels_succ hnil hdone, hfetched]
        rfl
      · rw [reachedFrom_succ, List.map_append]
        exact (hcomplete.trans (hls.map _)).append hperm

/-- Before a level that is not empty, there is something to fetch. -/
theorem ne_nil_of_perm_level {depth m : Nat} {ls : List String}
    (hls : ls.Perm (level answer root options directories depth)) (hm : depth ≤ m)
    (hend : level answer root options directories m ≠ []) : ls ≠ [] := by
  rintro rfl
  exact hend (level_eq_nil_of_le (List.nil_perm.mp hls) hm)

/-- If there is a level after the last round, the rounds are not enough. -/
theorem fetchLevels_eq_none (hrun : Completes answer root run) (rounds depth time : Nat)
    (ls : List String) (hls : ls.Perm (level answer root options directories depth))
    (hend : level answer root options directories (depth + rounds) ≠ []) :
    fetchLevels run options.descends rounds depth time ls = none := by
  induction rounds generalizing depth time ls with
  | zero => exact fetchLevels_zero (ne_nil_of_perm_level hls (Nat.le_refl depth) hend)
  | succ rounds ih =>
    obtain ⟨done, hdone, hcomplete⟩ := hrun time ls
    rw [fetchLevels_succ (ne_nil_of_perm_level hls (Nat.le_add_right depth _) hend) hdone,
      ih (depth + 1) _ _ (nextLevel_perm hls hcomplete) (by rwa [Nat.add_right_comm])]
    rfl

/-- Fetching ends with a number of rounds exactly if the level at that depth is empty. -/
theorem isSome_fetchLevels_iff (hrun : Completes answer root run) (rounds time : Nat) :
    (fetchLevels run options.descends rounds 0 time directories).isSome ↔
      level answer root options directories rounds = [] := by
  constructor
  · intro hsome
    by_contra hne
    rw [fetchLevels_eq_none hrun rounds 0 time directories (.refl _)
      (by rwa [Nat.zero_add])] at hsome
    cases hsome
  · intro hnil
    obtain ⟨fetched, hfetched, -⟩ := fetchLevels_eq_some hrun rounds 0 time directories (.refl _)
      (by rwa [Nat.zero_add])
    rw [hfetched]
    rfl

/-- Whatever fetching comes to collects the directories of all levels. -/
theorem collects_of_fetchLevels (hrun : Completes answer root run) {fetched : List Fetched}
    (h : fetchLevels run options.descends rounds 0 time directories = some fetched) :
    level answer root options directories rounds = [] ∧
      Collects answer root (reached answer root options directories rounds)
        (.ofFetched fetched) := by
  have hend := (isSome_fetchLevels_iff hrun rounds time).mp (Option.isSome_of_eq_some h)
  obtain ⟨other, hother, hperm⟩ := fetchLevels_eq_some hrun rounds 0 time directories (.refl _)
    (by rwa [Nat.zero_add])
  rw [h] at hother
  cases hother
  rw [reachedFrom_zero] at hperm
  exact ⟨hend, collects_ofFetched hperm⟩

/-- If there is no level after the last round, the fetches make the outcome of all levels. -/
theorem ofFetched_fetchLevels (hrun : Completes answer root run) {n rounds : Nat} (time : Nat)
    (hn : level answer root options directories n = [])
    (hrounds : level answer root options directories rounds = []) :
    (fetchLevels run options.descends rounds 0 time directories).map Outcome.ofFetched =
      some (.ofFetched ((reached answer root options directories n).map
        (fetchOne answer root))) := by
  obtain ⟨fetched, hfetched, hperm⟩ := fetchLevels_eq_some hrun rounds 0 time directories (.refl _)
    (by rwa [Nat.zero_add])
  rw [reachedFrom_zero, reached_eq hn hrounds] at hperm
  rw [hfetched, Option.map_some, (collects_ofFetched hperm).unique (collects_ofFetched (.refl _))]

end

/-! ### The schedule of the clock -/

theorem insertTime_ne_nil (time : Nat) (slots : List Nat) : insertTime time slots ≠ [] := by
  cases slots with
  | nil => exact List.cons_ne_nil _ _
  | cons next rest =>
    rw [insertTime]
    split <;> exact List.cons_ne_nil _ _

theorem fetchFrom_none (answer : Answers) (root : String) (start : Nat) (directory : String) :
    fetchFrom answer root none start directory = fetchOne answer root directory := by
  simp only [fetchFrom, inTime, if_true]

/-- Without a deadline, every directory gets its turn and all the time that it needs. -/
theorem map_turns (ls : List String) {slots : List Nat} (h : slots ≠ []) :
    (turns answer root none slots ls).map (·.2) = ls.map (fetchOne answer root) := by
  induction ls generalizing slots with
  | nil => cases slots <;> rfl
  | cons directory rest ih =>
    match slots, h with
    | start :: slots, _ =>
      rw [turns, List.map_cons, List.map_cons, ih (insertTime_ne_nil _ _), fetchFrom_none]

theorem slots_ne_nil {permits : Option Nat} (hpermits : permits ≠ some 0) (time : Nat)
    {ls : List String} (h : ls ≠ []) : slots permits time ls ≠ [] := by
  rw [Ne, slots_eq_nil_iff, not_or]
  exact ⟨hpermits, h⟩

/-- However many fetches run at once, the clock completes every level, if there is a permit. -/
theorem completes_runLevel (answer : Answers) (root : String) {permits : Option Nat}
    (h : permits ≠ some 0) :
    Completes answer root (runLevel answer root none permits) := by
  intro time ls
  obtain ⟨done, hdone⟩ := exists_runLevel_eq answer root none h time ls
  refine ⟨done, hdone, ?_⟩
  obtain ⟨-, rfl⟩ := runLevel_eq_some_iff.mp hdone
  have hperm : (settle time (turns answer root none (slots permits time ls) ls)).1.Perm
      ((turns answer root none (slots permits time ls) ls).map (·.2)) :=
    (List.mergeSort_perm ..).map _
  by_cases hls : ls = []
  · subst hls
    refine hperm.trans ?_
    cases slots permits time [] <;> exact .nil
  · rw [map_turns ls (slots_ne_nil h time hls)] at hperm
    exact hperm

theorem completes_unlimited (answer : Answers) (root : String) :
    Completes answer root (runLevel answer root none none) :=
  completes_runLevel answer root fun h => nomatch h

/-- A source has no level after its longest path. -/
theorem level_longest (source : Source) (root : String) (options : Options)
    (directories : List String) :
    level source.answer root options directories (source.longest + 1) = [] := by
  exact (isSome_fetchLevels_iff (completes_unlimited source.answer root) (source.longest + 1) 0).mp
    (isSome_fetchLevels source root none options.descends 0 (admits_none directories))

/-! ### Limits -/

/-- A limit that is made one at least admits all directories, unless it is more than can be given
out. -/
theorem admits_withMaxParallel_iff {limit : Nat} :
    Admits (options.withMaxParallel limit).maxParallel directories ↔ limit ≤ maxPermits := by
  constructor
  · intro h
    exact Nat.le_trans (Nat.le_max_left limit 1) (h _ rfl).1
  · intro h
    have hone : 1 ≤ max limit 1 := Nat.le_max_right limit 1
    exact admits_some (Nat.ne_of_gt hone) (Nat.max_le.mpr ⟨h, by decide⟩) directories

/-- Under a limit that admits the directories, the clock comes to the outcome of all levels. -/
theorem ofFetched_runLevel {limit : Option Nat} (h : Admits limit directories) {n rounds : Nat}
    (time : Nat) (hn : level answer root options directories n = [])
    (hrounds : level answer root options directories rounds = []) :
    (fetchLevels (runLevel answer root none limit) options.descends rounds 0 time directories).map
        Outcome.ofFetched =
      some (.ofFetched ((reached answer root options directories n).map
        (fetchOne answer root))) := by
  by_cases hzero : limit = some 0
  · -- there is no permit, but nothing to fetch either
    obtain rfl := (h 0 hzero).2 rfl
    have hnil : level answer root options [] 0 = [] := rfl
    rw [fetchLevels_nil, ← reachedFrom_zero, reachedFrom_eq_nil hnil]
    rfl
  · exact ofFetched_fetchLevels (completes_runLevel answer root hzero) time hn hrounds

/-- Without a permit, no number of rounds is enough to fetch anything. -/
theorem fetchLevels_no_permit (answer : Answers) (root : String) (deadline : Option Nat)
    (descends : Nat → Bool) (rounds depth time : Nat) (h : directories ≠ []) :
    fetchLevels (runLevel answer root deadline (some 0)) descends rounds depth time
      directories = none := by
  refine fetchLevels_eq_none_of_stuck h ?_
  rw [runLevel, if_pos ⟨slots_eq_nil_iff.mpr (.inl rfl), h⟩]

/-- Fetching comes to something only under a limit that admits the directories. -/
theorem admits_of_fetchAll? {rounds time : Nat} {fetched : List Fetched}
    (h : fetchAll? answer root options rounds time directories = .ok (some fetched)) :
    Admits options.maxParallel directories := by
  intro n hn
  rw [fetchAll?, hn, permits] at h
  split at h
  · rename_i hle
    refine ⟨hle, ?_⟩
    rintro rfl
    by_contra hne
    have hstuck := fetchLevels_no_permit answer root options.deadline options.descends
      rounds 0 time hne
    cases hstuck.symm.trans (Except.ok.inj h)
  · cases h

/-- Fetching comes to what the levels come to, under a limit that admits the directories. -/
theorem fetchAll?_eq_ok_some_iff {rounds time : Nat} {fetched : List Fetched} :
    fetchAll? answer root options rounds time directories = .ok (some fetched) ↔
      Admits options.maxParallel directories ∧
        fetchLevels (runLevel answer root options.deadline options.maxParallel) options.descends
          rounds 0 time directories = some fetched := by
  constructor
  · intro h
    have hadmits := admits_of_fetchAll? h
    rw [fetchAll?_of_admits hadmits] at h
    exact ⟨hadmits, Except.ok.inj h⟩
  · rintro ⟨hadmits, hfetched⟩
    rw [fetchAll?_of_admits hadmits, hfetched]

theorem outcome?_eq_some_iff {source : Source} {time : Nat} {outcome : Outcome} :
    outcome? source root options time directories = some outcome ↔
      Admits options.maxParallel directories ∧ ∃ fetched,
        fetchLevels (runLevel source.answer root options.deadline options.maxParallel)
          options.descends (source.longest + 1) 0 time directories = some fetched ∧
          .ofFetched fetched = outcome := by
  constructor
  · intro h
    rw [outcome?] at h
    split at h
    · rename_i fetched hfetch
      obtain ⟨hadmits, hfetched⟩ := fetchAll?_eq_ok_some_iff.mp hfetch
      exact ⟨hadmits, fetched, hfetched, Option.some.inj h⟩
    · cases h
  · rintro ⟨hadmits, fetched, hfetched, rfl⟩
    rw [outcome?, fetch, fetchAll?_eq_ok_some_iff.mpr ⟨hadmits, hfetched⟩]

/-- **There is an outcome of fetching from a source exactly if the limit admits the
directories.** -/
theorem isSome_outcome?_iff {source : Source} {time : Nat} :
    (outcome? source root options time directories).isSome ↔
      Admits options.maxParallel directories := by
  constructor
  · intro h
    obtain ⟨outcome, houtcome⟩ := Option.isSome_iff_exists.mp h
    exact (outcome?_eq_some_iff.mp houtcome).1
  · intro h
    obtain ⟨fetched, hfetched⟩ := Option.isSome_iff_exists.mp
      (isSome_fetchLevels source root options.deadline options.descends time h)
    exact Option.isSome_of_eq_some (outcome?_eq_some_iff.mpr ⟨h, fetched, hfetched, rfl⟩)

theorem exists_outcome?_eq (source : Source) (root : String) (time : Nat)
    (h : Admits options.maxParallel directories) :
    ∃ outcome, outcome? source root options time directories = some outcome :=
  Option.isSome_iff_exists.mp (isSome_outcome?_iff.mpr h)

theorem outcome?_eq_none (source : Source) (root : String) (time : Nat)
    (h : ¬ Admits options.maxParallel directories) :
    outcome? source root options time directories = none :=
  Option.not_isSome_iff_eq_none.mp (mt isSome_outcome?_iff.mp h)

/-- Without a deadline, the outcome of fetching from a source collects all its levels. -/
theorem collects_outcome? {source : Source} {time : Nat} {outcome : Outcome}
    (hdeadline : options.deadline = none)
    (h : outcome? source root options time directories = some outcome) :
    Collects source.answer root (reached source.answer root options directories
      (source.longest + 1)) outcome := by
  obtain ⟨hadmits, fetched, hfetched, rfl⟩ := outcome?_eq_some_iff.mp h
  have hend := level_longest source root options directories
  have houtcome := ofFetched_runLevel hadmits time hend hend
  rw [← hdeadline, hfetched] at houtcome
  rw [Option.some.inj houtcome]
  exact collects_ofFetched (.refl _)

/-! ### The outcome -/

/-- **Fetching reaches what there is to reach, whatever the schedule**: if a level is empty, one
outcome collects the directories of all levels before it. Fetching comes to it in every order of
completion, in particular by the clock under any limit that admits the directories, and from a
source without any bound on the rounds. If no level is empty, no number of rounds is enough. -/
theorem fetch_collects_levels (answer : Answers) (root : String) (options : Options)
    (directories : List String) :
    (∀ n, level answer root options directories n = [] →
      ∃ outcome, Collects answer root (reached answer root options directories n) outcome ∧
        (∀ run, Completes answer root run → ∀ rounds time, n ≤ rounds →
          (fetchLevels run options.descends rounds 0 time directories).map Outcome.ofFetched =
            some outcome) ∧
        ∀ limit, Admits limit directories → ∀ time,
          let limited : Options := { options with maxParallel := limit, deadline := none }
          (∀ rounds, n ≤ rounds →
            (fetchAll? answer root limited rounds time directories).map
              (·.map Outcome.ofFetched) = .ok (some outcome)) ∧
          ∀ source : Source, source.answer = answer →
            outcome? source root limited time directories = some outcome) ∧
      ((∀ n, level answer root options directories n ≠ []) → ∀ run, Completes answer root run →
        ∀ rounds time, fetchLevels run options.descends rounds 0 time directories = none) := by
  refine ⟨fun n hn => ⟨_, collects_ofFetched (.refl _), fun run hrun rounds time hrounds => ?_,
    fun limit hlimit time => ⟨fun rounds hrounds => ?_, fun source hsource => ?_⟩⟩,
    fun hne run hrun rounds time => ?_⟩
  · exact ofFetched_fetchLevels hrun time hn (level_eq_nil_of_le hn hrounds)
  · rw [fetchAll?_of_admits hlimit]
    exact congrArg Except.ok (ofFetched_runLevel hlimit time hn (level_eq_nil_of_le hn hrounds))
  · subst hsource
    have houtcome := ofFetched_runLevel hlimit time hn
      (level_longest source root options directories)
    exact outcome?_eq_some_iff.mpr ⟨hlimit, Option.map_eq_some_iff.mp houtcome⟩
  · exact fetchLevels_eq_none hrun rounds 0 time directories (.refl _) (hne _)

/-- One fetch at a time, through a directory that holds no package and past one that is not
there. -/
theorem fetch_collects_levels_limited :
    let source := Source.ofManifest
      ⟨[("r/b", { name := "b" }), ("r/a", { subdirectories := ["x"] }), ("r/a/x", { name := "x" })]⟩
    let directories := ["b", "a", "gone"]
    level source.answer "r" { recursive := true } directories 2 = [] ∧ Admits (some 1) directories ∧
      ∃ outcome, Collects source.answer "r" ["b", "a", "gone", "a/x"] outcome ∧
        outcome? source "r" { recursive := true, maxParallel := some 1 } 0 directories =
          some outcome := by
  intro source directories
  have hend : level source.answer "r" { recursive := true } directories 2 = [] := by decide +kernel
  have hlimit : Admits (some 1) directories := admits_some (by decide) (by decide) directories
  have hreached : reached source.answer "r" { recursive := true } directories 2 =
    ["b", "a", "gone", "a/x"] := by
    decide +kernel
  obtain ⟨outcome, hcollects, -, hlimits⟩ :=
    (fetch_collects_levels source.answer "r" { recursive := true } directories).1 2 hend
  rw [hreached] at hcollects
  exact ⟨hend, hlimit, outcome, hcollects, (hlimits (some 1) hlimit 0).2 source rfl⟩

/-- **Limits without an outcome.** Nothing lies below this directory, but without a permit it is
never fetched, and with more permits than can be given out fetching breaks down. -/
theorem limits_without_outcome :
    let source := Source.ofManifest ⟨[("r/a", { name := "a" })]⟩
    level source.answer "r" {} ["a"] 1 = [] ∧
      (∀ rounds, fetchAll? source.answer "r" { maxParallel := some 0 } rounds 0 ["a"] = .ok none) ∧
      outcome? source "r" { maxParallel := some 0 } 0 ["a"] = none ∧
      fetch source "r" { maxParallel := some 2305843009213693952 } 0 ["a"] =
        .error "a semaphore may not have more than MAX_PERMITS permits (2305843009213693951)" ∧
      outcome? source "r" { maxParallel := some 2305843009213693952 } 0 ["a"] = none := by
  intro source
  have hzero (rounds : Nat) : fetchAll? source.answer "r" { maxParallel := some 0 } rounds 0
    ["a"] = .ok none :=
    congrArg Except.ok (fetchLevels_no_permit source.answer "r" none _ rounds 0 0
      (List.cons_ne_nil _ _))
  have hmany : fetch source "r" { maxParallel := some 2305843009213693952 } 0 ["a"] =
      .error "a semaphore may not have more than MAX_PERMITS permits (2305843009213693951)" := by
    rfl
  refine ⟨by decide +kernel, hzero, ?_, hmany, ?_⟩
  · rw [outcome?, fetch, hzero]
  · rw [outcome?, hmany]

end PackageReadme.Fetch
