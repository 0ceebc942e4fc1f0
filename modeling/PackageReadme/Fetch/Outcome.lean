import PackageReadme.Fetch.Schedule
import PackageReadme.Log.Record

/-! Fetching the packages below a root, level by level.

The first level are the given directories, and the next level are the directories below those that
were fetched. A failure stops nothing but what lies below it. A directory that holds no package is
left out of the outcome, but the directories below it are not. -/
namespace PackageReadme.Fetch

structure Options where
  recursive : Bool := false
  /-- How many levels are fetched at most, if recursive; the first one always is. -/
  maxDepth : Option Nat := none
  /-- How many fetches may run at once, as it is given. -/
  maxParallel : Option Nat := none
  deadline : Option Nat := none
  deriving DecidableEq, Repr

/-- Options with a limit on the fetches at once, which is one at least. -/
def Options.withMaxParallel (options : Options) (limit : Nat) : Options :=
  { options with maxParallel := some (max limit 1) }

/-- Whether there is a level after the one at a depth. -/
def Options.descends (options : Options) (depth : Nat) : Bool :=
  options.recursive && options.maxDepth.all (depth + 1 < ·)

/-! ### Levels -/

/-- The directories below one that was fetched. -/
def Fetched.children (fetched : Fetched) : List String :=
  match fetched.result with
  | .ok package => package.subdirectories.map fun child => fetched.directory ++ "/" ++ child
  | .error _ => []

/-- The directories of the level after some fetches at a depth. -/
def nextLevel (descends : Nat → Bool) (depth : Nat) (done : List Fetched) : List String :=
  if descends depth then done.flatMap Fetched.children else []

/-- All fetches from the level at a depth on, with a way to run a level that starts at a time,
unless it never comes to an end; none if there is still a level left after a number of rounds. -/
def fetchLevels (run : Nat → List String → Option (List Fetched × Nat)) (descends : Nat → Bool) :
    (rounds depth time : Nat) → List String → Option (List Fetched)
  | _, _, _, [] => some []
  | 0, _, _, _ :: _ => none
  | rounds + 1, depth, time, directory :: rest =>
    match run time (directory :: rest) with
    | none => none
    | some (done, time) =>
      (fetchLevels run descends rounds (depth + 1) time
        (nextLevel descends depth done)).map (done ++ ·)

section
variable {run : Nat → List String → Option (List Fetched × Nat)} {descends : Nat → Bool}
  {rounds depth time : Nat} {directories : List String}

theorem fetchLevels_nil (run : Nat → List String → Option (List Fetched × Nat))
    (descends : Nat → Bool) (rounds depth time : Nat) :
    fetchLevels run descends rounds depth time [] = some [] := by
  cases rounds <;> rfl

theorem fetchLevels_zero (h : directories ≠ []) :
    fetchLevels run descends 0 depth time directories = none := by
  match directories, h with
  | _ :: _, _ => rfl

theorem fetchLevels_succ (h : directories ≠ []) {done : List Fetched × Nat}
    (hrun : run time directories = some done) :
    fetchLevels run descends (rounds + 1) depth time directories =
      (fetchLevels run descends rounds (depth + 1) done.2 (nextLevel descends depth done.1)).map
        (done.1 ++ ·) := by
  match directories, h with
  | _ :: _, _ => rw [fetchLevels, hrun]

theorem fetchLevels_eq_none_of_stuck (h : directories ≠ []) (hrun : run time directories = none) :
    fetchLevels run descends rounds depth time directories = none := by
  match rounds, directories, h with
  | 0, _ :: _, _ => rfl
  | _ + 1, _ :: _, _ => rw [fetchLevels, hrun]

end

/-! ### Outcomes -/

/-- The packages that were found, by path, and the failures, by import path. -/
structure Outcome where
  packages : List SubPackage := []
  failures : List FetchFailure := []
  deriving Repr

namespace Outcome

def isComplete (outcome : Outcome) : Bool :=
  outcome.failures.isEmpty

/-- The packages, unless there was a failure. -/
def result (outcome : Outcome) : Except Failure (List SubPackage) :=
  if outcome.isComplete then .ok outcome.packages else .error (.subPackages outcome.failures)

end Outcome

def Fetched.subPackage? (fetched : Fetched) : Option SubPackage :=
  match fetched.result with
  | .ok package => if package.isDocumentable then some ⟨fetched.directory, package⟩ else none
  | .error _ => none

def Fetched.failure? (fetched : Fetched) : Option FetchFailure :=
  match fetched.result with
  | .ok _ => none
  | .error failure => some (fetched.importPath, failure)

def Outcome.ofFetched (fetched : List Fetched) : Outcome where
  packages := (fetched.filterMap Fetched.subPackage?).mergeSort fun a b => a.path ≤ b.path
  failures := FetchFailure.sort (fetched.filterMap Fetched.failure?)

/-- The fetches of directories and of what lies below them, from a time on, unless the limit breaks
down; none if they take more than a number of rounds, or wait for ever. -/
def fetchAll? (answer : Answers) (root : String) (options : Options) (rounds time : Nat)
    (directories : List String) : Except String (Option (List Fetched)) :=
  (permits options.maxParallel).map fun permits =>
    fetchLevels (runLevel answer root options.deadline permits) options.descends rounds 0
      time directories

theorem fetchAll?_of_admits {answer : Answers} {root : String} {options : Options}
    {rounds time : Nat} {directories : List String} (h : Admits options.maxParallel directories) :
    fetchAll? answer root options rounds time directories =
      .ok (fetchLevels (runLevel answer root options.deadline options.maxParallel) options.descends
        rounds 0 time directories) := by
  have hpermits : permits options.maxParallel = .ok options.maxParallel := by
    cases hlimit : options.maxParallel with
    | none => rfl
    | some limit => rw [permits, if_pos (h limit hlimit).1]
  rw [fetchAll?, hpermits]
  rfl

/-! ### Sources

Every level makes the import paths longer, so that a source has no packages beyond its longest
one. -/

theorem length_lt_of_mem_children {fetched : Fetched} {child : String}
    (h : child ∈ fetched.children) :
    fetched.directory.length < child.length := by
  simp only [Fetched.children] at h
  split at h
  · obtain ⟨name, -, rfl⟩ := List.mem_map.mp h
    simp only [String.length_append]
    have hslash : "/".length = 1 := rfl
    omega
  · cases h

theorem children_eq_nil_of_longest_le {source : Source} {root : String} {deadline : Option Nat}
    {start : Nat} {directory : String} (h : source.longest ≤ directory.length) :
    (fetchFrom source.answer root deadline start directory).children = [] := by
  simp only [Fetched.children]
  split
  · rename_i package hresult
    have hreply := reply_eq_found_of_fetchFrom hresult
    have hlong : source.longest < (importPath root directory).length := by
      have hslash : "/".length = 1 := rfl
      simp only [importPath, String.length_append]
      omega
    have hnone := source.bounded _ hlong
    rw [hreply] at hnone
    cases hnone
  · rfl

section
variable {root : String} {deadline permits : Option Nat} {depth time : Nat}
  {directories : List String} {done : List Fetched × Nat} {descends : Nat → Bool}

/-- From the depth of the longest path on, no directory has any below it. -/
theorem nextLevel_eq_nil {source : Source}
    (hrun : runLevel source.answer root deadline permits time directories = some done)
    (hdepth : source.longest ≤ depth)
    (hlong : ∀ directory ∈ directories, depth ≤ directory.length) :
    nextLevel descends depth done.1 = [] := by
  rw [nextLevel]
  split
  · apply List.flatMap_eq_nil_iff.mpr
    intro fetched hfetched
    obtain ⟨directory, hmem, start, rfl⟩ := mem_runLevel hrun hfetched
    exact children_eq_nil_of_longest_le (Nat.le_trans hdepth (hlong directory hmem))
  · rfl

/-- The directories of the next level are longer than its depth. -/
theorem succ_le_length_of_mem_nextLevel {answer : Answers}
    (hrun : runLevel answer root deadline permits time directories = some done)
    (hlong : ∀ directory ∈ directories, depth ≤ directory.length) {child : String}
    (h : child ∈ nextLevel descends depth done.1) : depth + 1 ≤ child.length := by
  rw [nextLevel] at h
  split at h
  · obtain ⟨fetched, hfetched, hchild⟩ := List.mem_flatMap.mp h
    obtain ⟨directory, hmem, start, rfl⟩ := mem_runLevel hrun hfetched
    have hlonger := length_lt_of_mem_children hchild
    rw [fetchFrom_directory] at hlonger
    exact Nat.lt_of_le_of_lt (hlong directory hmem) hlonger
  · cases h

end

/-- From a depth on, a source has at most one level more than its longest path has beyond that
depth. -/
theorem isSome_fetchLevels_from (source : Source) (root : String) (deadline : Option Nat)
    {permits : Option Nat} (hpermits : permits ≠ some 0) (descends : Nat → Bool)
    (rounds depth time : Nat) (directories : List String)
    (hrounds : source.longest ≤ depth + rounds)
    (hlong : ∀ directory ∈ directories, depth ≤ directory.length) :
    (fetchLevels (runLevel source.answer root deadline permits) descends (rounds + 1) depth time
      directories).isSome := by
  induction rounds generalizing depth time directories with
  | zero =>
    by_cases hnil : directories = []
    · rw [hnil, fetchLevels_nil]
      rfl
    · obtain ⟨done, hrun⟩ :=
        exists_runLevel_eq source.answer root deadline hpermits time directories
      have hdepth : source.longest ≤ depth := hrounds
      rw [fetchLevels_succ hnil hrun, nextLevel_eq_nil hrun hdepth hlong, fetchLevels_nil]
      rfl
  | succ rounds ih =>
    by_cases hnil : directories = []
    · rw [hnil, fetchLevels_nil]
      rfl
    · obtain ⟨done, hrun⟩ :=
        exists_runLevel_eq source.answer root deadline hpermits time directories
      rw [fetchLevels_succ hnil hrun, Option.isSome_map]
      exact ih (depth + 1) _ _ (by omega) fun child hchild =>
        succ_le_length_of_mem_nextLevel hrun hlong hchild

/-- Fetching from a source ends, under a limit that admits its directories. -/
theorem isSome_fetchLevels (source : Source) (root : String) (deadline : Option Nat)
    {limit : Option Nat} (descends : Nat → Bool) (time : Nat) {directories : List String}
    (h : Admits limit directories) :
    (fetchLevels (runLevel source.answer root deadline limit) descends (source.longest + 1) 0 time
      directories).isSome := by
  by_cases hzero : limit = some 0
  · rw [(h 0 hzero).2 rfl, fetchLevels_nil]
    rfl
  · exact isSome_fetchLevels_from source root deadline hzero descends source.longest 0 time
      directories (by omega) fun _ _ => Nat.zero_le _

/-- The fetches from a source, which come to an end under a limit that admits the directories. -/
def fetchAll (source : Source) (root : String) (options : Options) (time : Nat)
    (directories : List String) (h : Admits options.maxParallel directories) : List Fetched :=
  (fetchLevels (runLevel source.answer root options.deadline options.maxParallel) options.descends
    (source.longest + 1) 0 time directories).get (isSome_fetchLevels source root _ _ time h)

/-- What fetching from a source comes to, with any limit: the fetches, or a breakdown, or none if it
waits for ever. -/
def fetch (source : Source) (root : String) (options : Options) (time : Nat)
    (directories : List String) : Except String (Option (List Fetched)) :=
  fetchAll? source.answer root options (source.longest + 1) time directories

/-- The outcome of fetching from a source, if there is one. -/
def outcome? (source : Source) (root : String) (options : Options) (time : Nat)
    (directories : List String) : Option Outcome :=
  match fetch source root options time directories with
  | .ok (some fetched) => some (.ofFetched fetched)
  | _ => none

/-! ### Records -/

/-- What is told of a fetch. A breakdown is not told of. -/
def Fetched.records (fetched : Fetched) : List Record :=
  .info .fetching s!"Getting {fetched.importPath}" ::
    match fetched.result with
    | .ok package =>
      if package.isDocumentable then []
        else [.debug .fetching s!"Skipping {fetched.importPath}: not a package"]
    | .error (.crashed _) => []
    | .error failure => [.warn .fetching s!"Failed getting {fetched.importPath}: {failure.text}"]

end PackageReadme.Fetch
