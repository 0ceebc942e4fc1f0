import PackageReadme.Proofs.Fetch.Deadline

/-! A directory that fails touches nothing but what lies below it.

Take two sources that differ at one directory and below it only. The directories below a directory
start with its path, so none of them is outside once it is not: level by level the two sources lead
to the same directories outside, in the same order (`outside_level`). What the outcome holds for
these is the same for both (`outside_confined`). -/
namespace PackageReadme.Fetch

/-! ### Paths -/

/-- A path is another path or lies below it. -/
def Within (p path : String) : Prop :=
  path = p ∨ ∃ rest, path = p ++ "/" ++ rest

theorem exists_eq_append_iff {start path : String} :
    (∃ rest, path = start ++ rest) ↔ start.toList <+: path.toList := by
  constructor
  · rintro ⟨rest, rfl⟩
    rw [String.toList_append]
    exact List.prefix_append ..
  · rintro ⟨rest, hrest⟩
    refine ⟨String.ofList rest, ?_⟩
    rw [← String.toList_inj, String.toList_append, String.toList_ofList, hrest]

instance (p path : String) : Decidable (Within p path) :=
  decidable_of_iff (path = p ∨ (p ++ "/").toList <+: path.toList)
    (or_congr_right exists_eq_append_iff.symm)

theorem Within.child {p directory : String} (h : Within p directory) (name : String) :
    Within p (directory ++ "/" ++ name) := by
  rcases h with rfl | ⟨rest, rfl⟩
  · exact .inr ⟨name, rfl⟩
  · exact .inr ⟨rest ++ "/" ++ name, by simp only [String.append_assoc]⟩

/-- A directory lies below another exactly if its import path does. -/
theorem within_importPath_iff {root p directory : String} :
    Within (importPath root p) (importPath root directory) ↔ Within p directory := by
  simp only [Within, importPath, String.append_assoc, String.append_right_inj]

/-- The part of some directories that neither is a directory nor lies below it. -/
def outside (p : String) (directories : List String) : List String :=
  directories.filter fun directory => !decide (Within p directory)

theorem mem_outside {p directory : String} {directories : List String} :
    directory ∈ outside p directories ↔ directory ∈ directories ∧ ¬ Within p directory := by
  simp [outside]

/-! ### Two sources -/

/-- Two sources give the same replies except at a path and below it. Their delays are free. -/
def AgreeOutside (path : String) (answer answer' : Answers) : Prop :=
  ∀ other, ¬ Within path other → (answer other).reply = (answer' other).reply

variable {answer answer' : Answers} {root p : String} {options : Options}
  {directories : List String}

theorem AgreeOutside.reply_eq (h : AgreeOutside (importPath root p) answer answer')
    {directory : String} (hout : ¬ Within p directory) :
    (answer (importPath root directory)).reply = (answer' (importPath root directory)).reply :=
  h _ (mt within_importPath_iff.mp hout)

theorem within_of_mem_below {directory child : String} (h : Within p directory)
    (hchild : child ∈ below answer root directory) : Within p child := by
  simp only [below] at hchild
  split at hchild
  · obtain ⟨name, -, rfl⟩ := List.mem_map.mp hchild
    exact h.child name
  · cases hchild
  · cases hchild

/-- One level: what lies outside is below what lies outside. -/
theorem outside_flatMap_below (answer : Answers) (root p : String) (directories : List String) :
    outside p (directories.flatMap (below answer root)) =
      (outside p directories).flatMap fun directory => outside p (below answer root directory) := by
  induction directories with
  | nil => rfl
  | cons directory rest ih =>
    simp only [outside, List.flatMap_cons, List.filter_append, List.filter_cons] at ih ⊢
    rw [ih]
    by_cases h : Within p directory
    · -- nothing below it is outside either
      have hnil : (below answer root directory).filter
          (fun child => !decide (Within p child)) = [] := by
        refine List.filter_eq_nil_iff.mpr fun child hchild => ?_
        simpa using within_of_mem_below h hchild
      simp [h, hnil]
    · simp [h]

/-- **Two sources lead to the same directories outside**, in the same order, at every depth. -/
theorem outside_level (h : AgreeOutside (importPath root p) answer answer') (options : Options)
    (directories : List String) (depth : Nat) :
    outside p (level answer root options directories depth) =
      outside p (level answer' root options directories depth) := by
  induction depth with
  | zero => rfl
  | succ depth ih =>
    rw [level, level]
    split
    · rw [outside_flatMap_below, outside_flatMap_below, ih]
      refine List.flatMap_congr fun directory hmem => ?_
      simp only [below, h.reply_eq (mem_outside.mp hmem).2]
    · rfl

theorem outside_reached (h : AgreeOutside (importPath root p) answer answer') (options : Options)
    (directories : List String) (depth : Nat) :
    outside p (reached answer root options directories depth) =
      outside p (reached answer' root options directories depth) := by
  simp only [reached, outside, List.filter_flatMap]
  exact List.flatMap_congr fun k _ => outside_level h options directories k

/-! ### Outcomes -/

/-- An outcome without what stands in it for a directory and for those below it. -/
def Outcome.outside (root p : String) (outcome : Outcome) : Outcome where
  packages := outcome.packages.filter fun sub => !decide (Within p sub.path)
  failures := outcome.failures.filter fun failure => !decide (Within (importPath root p) failure.1)

theorem filter_filterMap_of_forall {α β : Type} {f : α → Option β} {p : α → Bool} {q : β → Bool}
    (h : ∀ x y, f x = some y → q y = p x) (l : List α) :
    (l.filterMap f).filter q = (l.filter p).filterMap f := by
  rw [List.filter_filterMap, List.filterMap_filter]
  refine List.filterMap_congr fun x _ => ?_
  cases hx : f x with
  | none => simp
  | some y => simp [Option.filter, h x y hx]

/-- What an outcome holds outside is what the answers give for the directories outside. -/
theorem Collects.outside {outcome : Outcome} (h : Collects answer root directories outcome)
    (p : String) :
    Collects answer root (outside p directories) (outcome.outside root p) where
  packages := by
    refine (h.packages.filter _).trans (.of_eq
      (filter_filterMap_of_forall (fun directory sub hsub => ?_) _))
    rw [path_of_found? hsub]
  packages_sorted := h.packages_sorted.filter _
  failures := by
    refine (h.failures.filter _).trans (.of_eq
      (filter_filterMap_of_forall (fun directory failure hfailure => ?_) _))
    simp only [path_of_failed? hfailure, within_importPath_iff]
  failures_sorted := h.failures_sorted.filter _

/-- Sources with the same replies give the same outcome. -/
theorem Collects.congr {outcome : Outcome} (h : Collects answer root directories outcome)
    (heq : ∀ directory ∈ directories,
      (answer (importPath root directory)).reply = (answer' (importPath root directory)).reply) :
    Collects answer' root directories outcome where
  packages := by
    refine h.packages.trans (.of_eq (List.filterMap_congr fun directory hmem => ?_))
    simp only [found?, heq directory hmem]
  packages_sorted := h.packages_sorted
  failures := by
    refine h.failures.trans (.of_eq (List.filterMap_congr fun directory hmem => ?_))
    simp only [failed?, heq directory hmem]
  failures_sorted := h.failures_sorted

/-- Outcomes of all levels of two sources are the same outside. -/
theorem outside_eq_of_collects (h : AgreeOutside (importPath root p) answer answer') {n n' : Nat}
    (hn : level answer root options directories n = [])
    (hn' : level answer' root options directories n' = []) {outcome outcome' : Outcome}
    (hcollects : Collects answer root (reached answer root options directories n) outcome)
    (hcollects' : Collects answer' root (reached answer' root options directories n') outcome') :
    outcome.outside root p = outcome'.outside root p := by
  have hsame : outside p (reached answer root options directories n) =
      outside p (reached answer' root options directories n') := by
    rw [← reached_eq_of_le hn (Nat.le_max_left n n'),
      ← reached_eq_of_le hn' (Nat.le_max_right n n')]
    exact outside_reached h options directories _
  have hout := hcollects.outside p
  rw [hsame] at hout
  exact (hout.congr fun directory hmem => h.reply_eq (mem_outside.mp hmem).2).unique
    (hcollects'.outside p)

/-- Any two runs that end come to the same outcome outside. -/
theorem outside_eq_of_fetchLevels (h : AgreeOutside (importPath root p) answer answer')
    {run run' : Nat → List String → Option (List Fetched × Nat)} (hrun : Completes answer root run)
    (hrun' : Completes answer' root run') {rounds rounds' time time' : Nat}
    {fetched fetched' : List Fetched}
    (hfetched : fetchLevels run options.descends rounds 0 time directories = some fetched)
    (hfetched' : fetchLevels run' options.descends rounds' 0 time' directories = some fetched') :
    (Outcome.ofFetched fetched).outside root p = (Outcome.ofFetched fetched').outside root p := by
  obtain ⟨hend, hcollects⟩ := collects_of_fetchLevels hrun hfetched
  obtain ⟨hend', hcollects'⟩ := collects_of_fetchLevels hrun' hfetched'
  exact outside_eq_of_collects h hend hend' hcollects hcollects'

/-- By the clock and without a deadline, two sources come to the same outcome outside, or neither to
one. -/
theorem outside_outcome? {source source' : Source}
    (h : AgreeOutside (importPath root p) source.answer source'.answer)
    (hdeadline : options.deadline = none) (time time' : Nat) :
    (outcome? source root options time directories).map (·.outside root p) =
      (outcome? source' root options time' directories).map (·.outside root p) := by
  by_cases hadmits : Admits options.maxParallel directories
  · obtain ⟨outcome, houtcome⟩ := exists_outcome?_eq source root time hadmits
    obtain ⟨outcome', houtcome'⟩ := exists_outcome?_eq source' root time' hadmits
    rw [houtcome, houtcome']
    exact congrArg some (outside_eq_of_collects h (level_longest source root options directories)
      (level_longest source' root options directories) (collects_outcome? hdeadline houtcome)
      (collects_outcome? hdeadline houtcome'))
  · rw [outcome?_eq_none source root time hadmits, outcome?_eq_none source' root time' hadmits]

/-- **A directory touches nothing but itself and what lies below it**: if two sources agree
everywhere else, then without a deadline everything else in their outcomes is the same, in the same
order, namely what the answers give for the directories outside. This holds of any two runs that
end, in whatever order their fetches complete, and so of the clock with any limit on the fetches at
once: under one that admits the directories both sources have an outcome, and under any other
neither has. -/
theorem outside_confined {answer answer' : Answers} {root p : String}
    (h : AgreeOutside (importPath root p) answer answer') (options : Options)
    (directories : List String) :
    (∀ run run', Completes answer root run → Completes answer' root run' →
      ∀ rounds rounds' time time' fetched fetched',
        fetchLevels run options.descends rounds 0 time directories = some fetched →
        fetchLevels run' options.descends rounds' 0 time' directories = some fetched' →
        (Outcome.ofFetched fetched).outside root p = (Outcome.ofFetched fetched').outside root p ∧
          Collects answer root (outside p (reached answer root options directories rounds))
            ((Outcome.ofFetched fetched).outside root p)) ∧
    ∀ source source' : Source, source.answer = answer → source'.answer = answer' → ∀ time time',
      let untimed : Options := { options with deadline := none }
      (outcome? source root untimed time directories).map (·.outside root p) =
          (outcome? source' root untimed time' directories).map (·.outside root p) ∧
        ((outcome? source root untimed time directories).isSome ↔
          Admits options.maxParallel directories) := by
  constructor
  · intro run run' hrun hrun' rounds rounds' time time' fetched fetched' hfetched hfetched'
    exact ⟨outside_eq_of_fetchLevels h hrun hrun' hfetched hfetched',
      (collects_of_fetchLevels hrun hfetched).2.outside p⟩
  · rintro source source' rfl rfl time time'
    exact ⟨outside_outcome? h rfl time time', isSome_outcome?_iff⟩

/-- A source breaks down at a directory that has another one below it; a directory whose name starts
alike is outside. -/
theorem outside_confined_crash :
    let manifest : Manifest :=
      ⟨[("r/a", { name := "a", subdirectories := ["x"] }), ("r/a/x", { name := "x" }),
      ("r/ab", { name := "ab", subdirectories := ["gone"] })]⟩
    let source := Source.ofManifest manifest
    let broken := Source.ofManifest manifest { crashes := [("r/a", "out of memory")] }
    let outcome? (source : Source) := outcome? source "r" { recursive := true } 0 ["ab", "a"]
    AgreeOutside (importPath "r" "a") source.answer broken.answer ∧
      reached source.answer "r" { recursive := true } ["ab", "a"] 3 =
      ["ab", "a", "ab/gone", "a/x"] ∧
      reached broken.answer "r" { recursive := true } ["ab", "a"] 3 = ["ab", "a", "ab/gone"] ∧
      ∃ outcome outcome', outcome? source = some outcome ∧ outcome? broken = some outcome' ∧
        outcome.outside "r" "a" = outcome'.outside "r" "a" := by
  intro manifest source broken outcome?
  have hagree : AgreeOutside (importPath "r" "a") source.answer broken.answer := by
    intro path hpath
    have hne : (path == "r/a") = false := beq_false_of_ne fun heq => hpath (.inl heq)
    simp [source, broken, Source.ofManifest, Trouble.reply, Keyed.get?, List.lookup_cons, hne]
  refine ⟨hagree, by decide +kernel, by decide +kernel, ?_⟩
  have hsame : (outcome? source).map (·.outside "r" "a") =
      (outcome? broken).map (·.outside "r" "a") :=
    ((outside_confined hagree { recursive := true } ["ab", "a"]).2 source broken rfl rfl 0 0).1
  obtain ⟨outcome, houtcome⟩ : ∃ outcome, outcome? source = some outcome :=
    exists_outcome?_eq source "r" 0 (admits_none _)
  obtain ⟨outcome', houtcome'⟩ : ∃ outcome', outcome? broken = some outcome' :=
    exists_outcome?_eq broken "r" 0 (admits_none _)
  rw [houtcome, houtcome'] at hsame
  exact ⟨outcome, outcome', houtcome, houtcome', Option.some.inj hsame⟩

end PackageReadme.Fetch
