import PackageReadme.Source

/-! When the fetches of a level start and finish, in milliseconds.

The fetches of a level get their turns in order, each as soon as there is a free slot. Slots are as
many as there are permits; without any, a level waits for ever. A fetch finishes when its source
answers. If there is a deadline, the answer has to come by then, or else the fetch fails at the
deadline, or at its start if that is later. An answer that takes no time always counts. -/
namespace PackageReadme.Fetch

/-- What became of one fetch: the directory by its path from the root, its import path, and the
package or the failure. -/
structure Fetched where
  directory : String
  importPath : String
  result : Except Failure Package

def resultOf : Reply → Except Failure Package
  | .found package => .ok package
  | .refused failure => .error failure
  | .crashed message => .error (.crashed message)

def importPath (root directory : String) : String :=
  root ++ "/" ++ directory

/-- What becomes of a fetch that has all the time it needs. -/
def fetchOne (answer : Answers) (root directory : String) : Fetched :=
  let path := importPath root directory
  ⟨directory, path, resultOf (answer path).reply⟩

/-! ### Time -/

/-- Whether an answer comes by the deadline. -/
def inTime (deadline : Option Nat) (start delay : Nat) : Bool :=
  match deadline with
  | none => true
  | some deadline => delay == 0 || start + delay ≤ deadline

/-- When a fetch finishes. -/
def finish (deadline : Option Nat) (start delay : Nat) : Nat :=
  match deadline with
  | none => start + delay
  | some deadline => if delay = 0 then start else min (start + delay) (max start deadline)

/-- What becomes of a fetch that starts at a time. -/
def fetchFrom (answer : Answers) (root : String) (deadline : Option Nat) (start : Nat)
    (directory : String) : Fetched :=
  let path := importPath root directory
  if inTime deadline start (answer path).delay then fetchOne answer root directory
  else ⟨directory, path, .error (.timeout path)⟩

/-! ### Levels -/

/-- Puts a time into a list of ascending times. -/
def insertTime (time : Nat) : List Nat → List Nat
  | [] => [time]
  | next :: rest => if time ≤ next then time :: next :: rest else next :: insertTime time rest

/-- The fetches of directories in their order, each with the time at which it finishes. The slots
are the times at which the next turns are free, in ascending order. -/
def turns (answer : Answers) (root : String) (deadline : Option Nat) :
    (slots : List Nat) → List String → List (Nat × Fetched)
  | _, [] => []
  | [], _ :: _ => []
  | start :: slots, directory :: rest =>
    let delay := (answer (importPath root directory)).delay
    let finish := finish deadline start delay
    (finish, fetchFrom answer root deadline start directory) ::
      turns answer root deadline (insertTime finish slots) rest

/-- As many slots as there are permits, if these are limited, and no more than there are
directories. -/
def slots (permits : Option Nat) (time : Nat) (directories : List String) : List Nat :=
  match permits with
  | none => List.replicate directories.length time
  | some permits => List.replicate (min permits directories.length) time

/-- Turns in the order in which they finish, and the time at which the last of them does. -/
def settle (time : Nat) (finished : List (Nat × Fetched)) : List Fetched × Nat :=
  ((finished.mergeSort fun a b => a.1 ≤ b.1).map (·.2),
    finished.foldl (fun last turn => max last turn.1) time)

/-- The fetches of a level that starts at a time, in the order in which they finish, and the time at
which the last of them does; none if there is something to fetch and never a slot for it. -/
def runLevel (answer : Answers) (root : String) (deadline permits : Option Nat) (time : Nat)
    (directories : List String) : Option (List Fetched × Nat) :=
  let slots := slots permits time directories
  if slots = [] ∧ directories ≠ [] then none
  else some (settle time (turns answer root deadline slots directories))

/-! ### Permits -/

/-- The most permits that can be given out. -/
def maxPermits : Nat := Nat.pow 2 61 - 1

/-- The permits for a limit on the fetches at once. More than can be given out break down. -/
def permits : (limit : Option Nat) → Except String (Option Nat)
  | none => .ok none
  | some limit =>
    if limit ≤ maxPermits then .ok (some limit)
    else .error s!"a semaphore may not have more than MAX_PERMITS permits ({maxPermits})"

/-- A limit under which some directories can be fetched: there are no more permits than can be given
out, and there is one unless there is nothing to fetch. -/
def Admits (limit : Option Nat) (directories : List String) : Prop :=
  ∀ n, limit = some n → n ≤ maxPermits ∧ (n = 0 → directories = [])

theorem admits_none (directories : List String) : Admits none directories := by
  intro n h
  cases h

theorem admits_some {limit : Nat} (hne : limit ≠ 0) (hle : limit ≤ maxPermits)
    (directories : List String) : Admits (some limit) directories := by
  intro n h
  cases h
  exact ⟨hle, fun hzero => absurd hzero hne⟩

/-! ### What a level gives -/

/-- A package is only had where there is one. -/
theorem reply_eq_found {answer : Answers} {root directory : String} {package : Package}
    (h : (fetchOne answer root directory).result = .ok package) :
    (answer (importPath root directory)).reply = .found package := by
  simp only [fetchOne] at h
  cases hreply : (answer (importPath root directory)).reply with
  | found other =>
    rw [hreply, resultOf] at h
    rw [Except.ok.inj h]
  | refused failure => rw [hreply] at h; cases h
  | crashed message => rw [hreply] at h; cases h

theorem fetchFrom_directory (answer : Answers) (root : String) (deadline : Option Nat) (start : Nat)
    (directory : String) :
    (fetchFrom answer root deadline start directory).directory = directory := by
  simp only [fetchFrom]
  split <;> rfl

theorem reply_eq_found_of_fetchFrom {answer : Answers} {root : String} {deadline : Option Nat}
    {start : Nat} {directory : String} {package : Package}
    (h : (fetchFrom answer root deadline start directory).result = .ok package) :
    (answer (importPath root directory)).reply = .found package := by
  simp only [fetchFrom] at h
  split at h
  · exact reply_eq_found h
  · cases h

theorem mem_turns {answer : Answers} {root : String} {deadline : Option Nat} {slots : List Nat}
    {directories : List String} {turn : Nat × Fetched}
    (h : turn ∈ turns answer root deadline slots directories) :
    ∃ directory ∈ directories, ∃ start, turn.2 =
      fetchFrom answer root deadline start directory := by
  induction directories generalizing slots with
  | nil => cases slots <;> cases h
  | cons directory rest ih =>
    cases slots with
    | nil => cases h
    | cons start slots =>
      rw [turns] at h
      rcases List.mem_cons.mp h with rfl | h
      · exact ⟨directory, List.mem_cons_self .., start, rfl⟩
      · obtain ⟨other, hother, hturn⟩ := ih h
        exact ⟨other, List.mem_cons_of_mem directory hother, hturn⟩

/-- There is no slot only if there is no permit, or nothing to fetch. -/
theorem slots_eq_nil_iff {permits : Option Nat} {time : Nat} {directories : List String} :
    slots permits time directories = [] ↔ permits = some 0 ∨ directories = [] := by
  cases permits with
  | none => simp [slots, List.replicate_eq_nil_iff, List.length_eq_zero_iff]
  | some count =>
    rw [slots, List.replicate_eq_nil_iff, Nat.min_eq_zero_iff, List.length_eq_zero_iff,
      Option.some.injEq]

/-- A level comes to an end unless it has something to fetch and no permit. -/
theorem runLevel_eq_some_iff {answer : Answers} {root : String} {deadline permits : Option Nat}
    {time : Nat} {directories : List String} {done : List Fetched × Nat} :
    runLevel answer root deadline permits time directories = some done ↔
      (permits = some 0 → directories = []) ∧
        settle time (turns answer root deadline (slots permits time directories)
          directories) = done := by
  simp only [runLevel, slots_eq_nil_iff]
  split
  · rename_i hstuck
    refine iff_of_false (fun h => nomatch h) fun h => hstuck.2 ?_
    exact hstuck.1.elim h.1 id
  · rename_i hgoes
    rw [Option.some.injEq, and_iff_right]
    intro hzero
    exact Decidable.byContradiction fun hne => hgoes ⟨.inl hzero, hne⟩

theorem exists_runLevel_eq (answer : Answers) (root : String) (deadline : Option Nat)
    {permits : Option Nat} (h : permits ≠ some 0) (time : Nat) (directories : List String) :
    ∃ done, runLevel answer root deadline permits time directories = some done :=
  ⟨_, runLevel_eq_some_iff.mpr ⟨fun hzero => absurd hzero h, rfl⟩⟩

/-- Every fetch of a level is one of its directories, started at some time. -/
theorem mem_runLevel {answer : Answers} {root : String} {deadline permits : Option Nat} {time : Nat}
    {directories : List String} {done : List Fetched × Nat} {fetched : Fetched}
    (hrun : runLevel answer root deadline permits time directories = some done)
    (h : fetched ∈ done.1) :
    ∃ directory ∈ directories, ∃ start, fetched =
      fetchFrom answer root deadline start directory := by
  obtain ⟨-, rfl⟩ := runLevel_eq_some_iff.mp hrun
  obtain ⟨turn, hturn, rfl⟩ := List.mem_map.mp h
  exact mem_turns (List.mem_mergeSort.mp hturn)

end PackageReadme.Fetch
