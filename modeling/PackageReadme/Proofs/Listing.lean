import PackageReadme.Proofs.Fetch.Levels
import PackageReadme.Readme

/-! A README does not depend on the order in which directories are listed.

Two manifests are *relisted* if they have the same packages, but for the order in which each package
lists the directories below it. From relisted manifests the same directories are reached at every
depth, up to their order (`level_perm`); sorting by path makes the order the same, and what a README
shows of the packages below does not tell their own lists of directories (`entries_eq`).

`relisted_gives_same`: relisted manifests give one README, its text and its failures, in whatever
order the fetches of each level complete, for the one as for the other. -/
namespace PackageReadme
open Fetch

/-! ### Relisted packages -/

/-- The same package, with the directories below it listed in another order. -/
def Package.Relisted (package other : Package) : Prop :=
  ∃ subdirectories, package.subdirectories.Perm subdirectories ∧
    other = { package with subdirectories }

/-- The same reply, but for the order of directories. -/
def Reply.Relisted (reply other : Reply) : Prop :=
  reply = other ∨
    ∃ package package', reply = .found package ∧ other = .found package' ∧ package.Relisted package'

/-- The same reply at every import path, but for the order of directories, after whatever delay. -/
def Answers.Relisted (answer other : Answers) : Prop :=
  ∀ path, (answer path).reply.Relisted (other path).reply

/-- The same packages under the same import paths, but for the order of directories. -/
def Manifest.Relisted (manifest other : Manifest) : Prop :=
  List.Forall₂ (fun a b => a.1 = b.1 ∧ a.2.Relisted b.2) manifest.packages other.packages

theorem Manifest.Relisted.refl (manifest : Manifest) : manifest.Relisted manifest :=
  List.forall₂_same.mpr fun _ _ => ⟨rfl, _, .refl _, rfl⟩

theorem Manifest.Relisted.reply {manifest other : Manifest} (h : manifest.Relisted other)
    (path : String) :
    (manifest.reply path).Relisted (other.reply path) := by
  obtain ⟨packages⟩ := manifest
  obtain ⟨packages'⟩ := other
  simp only [Manifest.reply, Manifest.get, Manifest.get?, Keyed.get?]
  simp only [Manifest.Relisted] at h
  induction h with
  | nil => exact .inl rfl
  | @cons a b rest rest' hab _ ih =>
    obtain ⟨key, package⟩ := a
    obtain ⟨key', package'⟩ := b
    obtain ⟨rfl, hpackage⟩ := hab
    rw [List.lookup_cons, List.lookup_cons]
    cases path == key with
    | false => exact ih
    | true => exact .inr ⟨package, package', rfl, rfl, hpackage⟩

/-- Trouble answers the same with relisted manifests, whatever the delays. -/
theorem Manifest.Relisted.answers {manifest other : Manifest} (h : manifest.Relisted other)
    {trouble trouble' : Trouble} (hfailures : trouble.failures = trouble'.failures)
    (hcrashes : trouble.crashes = trouble'.crashes) :
    Answers.Relisted (Source.ofManifest manifest trouble).answer
      (Source.ofManifest other trouble').answer := by
  intro path
  simp only [Source.ofManifest, Trouble.reply, hfailures, hcrashes]
  split
  · exact .inl rfl
  · split
    · exact .inl rfl
    · exact h.reply path

/-! ### Reached directories -/

section
variable {answer other : Answers} {root : String}

theorem below_perm (h : answer.Relisted other) (directory : String) :
    (below answer root directory).Perm (below other root directory) := by
  rcases h (importPath root directory) with heq | ⟨package, _, ha, hb, subdirectories, hperm, rfl⟩
  · simp only [below, heq]
    exact .refl _
  · simp only [below, ha, hb]
    exact hperm.map _

/-- At every depth the same directories are reached, in some order. -/
theorem level_perm (root : String) (h : answer.Relisted other) (options : Options)
    (directories : List String) (depth : Nat) :
    (level answer root options directories depth).Perm
      (level other root options directories depth) := by
  induction depth with
  | zero => exact .refl _
  | succ depth ih =>
    rw [level, level]
    split
    · exact ih.flatMap fun directory _ => below_perm h directory
    · exact .nil

theorem reached_perm (root : String) (h : answer.Relisted other) (options : Options)
    (directories : List String) (depth : Nat) :
    (reached answer root options directories depth).Perm
      (reached other root options directories depth) :=
  .flatMap_left _ fun k _ => level_perm root h options directories k

/-! ### Outcomes -/

theorem failed?_eq (h : answer.Relisted other) (directory : String) :
    failed? answer root directory = failed? other root directory := by
  rcases h (importPath root directory) with heq | ⟨package, _, ha, hb, -⟩
  · simp only [failed?, heq]
  · simp only [failed?, ha, hb]

/-- What a README shows of a package does not tell which directories lie below it. -/
theorem map_entry_found? (h : answer.Relisted other) (directory : String) :
    (found? answer root directory).map SubPackage.entry =
      (found? other root directory).map SubPackage.entry := by
  rcases h (importPath root directory) with heq | ⟨package, _, ha, hb, subdirectories, -, rfl⟩
  · simp only [found?, heq]
  · have hsame : ({ package with subdirectories } : Package).isDocumentable =
        package.isDocumentable := rfl
    simp only [found?, ha, hb, hsame]
    split <;> rfl

theorem path_of_mem_entries {directories : List String} {entry : SubPackageEntry}
    (h : entry ∈ directories.filterMap fun directory =>
      (found? answer root directory).map SubPackage.entry) :
    (found? answer root entry.path).map SubPackage.entry = some entry := by
  obtain ⟨directory, -, hentry⟩ := List.mem_filterMap.mp h
  obtain ⟨sub, hsub, rfl⟩ := Option.map_eq_some_iff.mp hentry
  have hpath : sub.entry.path = directory := path_of_found? hsub
  rw [hpath, hentry]

/-- The failures of relisted sources are the same. -/
theorem failures_eq (h : answer.Relisted other) {directories directories' : List String}
    (hperm : directories.Perm directories') {outcome outcome' : Outcome}
    (ha : Collects answer root directories outcome)
    (hb : Collects other root directories' outcome') :
    outcome.failures = outcome'.failures := by
  have hfailed : failed? other root = failed? answer root := funext fun d => (failed?_eq h d).symm
  refine eq_of_perm_of_sorted Prod.fst (fun x hx y hy => ?_) ha.failures_sorted
    hb.failures_sorted ?_
  · exact eq_of_mem_failed (ha.failures.mem_iff.mp hx) (ha.failures.mem_iff.mp hy)
  · refine ha.failures.trans ((hperm.filterMap _).trans ?_)
    rw [← hfailed]
    exact hb.failures.symm

/-- The entries of the packages that relisted sources have are the same. -/
theorem entries_eq (h : answer.Relisted other) {directories directories' : List String}
    (hperm : directories.Perm directories') {outcome outcome' : Outcome}
    (ha : Collects answer root directories outcome)
    (hb : Collects other root directories' outcome') :
    outcome.packages.map SubPackage.entry = outcome'.packages.map SubPackage.entry := by
  have hfound : (fun d => (found? other root d).map SubPackage.entry) =
      fun d => (found? answer root d).map SubPackage.entry :=
      funext fun d => (map_entry_found? h d).symm
  have hentries : (outcome.packages.map SubPackage.entry).Perm
      (directories.filterMap fun d => (found? answer root d).map SubPackage.entry) := by
    rw [← List.map_filterMap]
    exact ha.packages.map _
  have hentries' : (outcome'.packages.map SubPackage.entry).Perm
      (directories'.filterMap fun d => (found? answer root d).map SubPackage.entry) := by
    rw [← hfound, ← List.map_filterMap]
    exact hb.packages.map _
  refine eq_of_perm_of_sorted SubPackageEntry.path (fun x hx y hy hxy => ?_)
    (List.pairwise_map.mpr ha.packages_sorted) (List.pairwise_map.mpr hb.packages_sorted)
    (hentries.trans ((hperm.filterMap _).trans hentries'.symm))
  have hx' := path_of_mem_entries (hentries.mem_iff.mp hx)
  have hy' := path_of_mem_entries (hentries.mem_iff.mp hy)
  rw [hxy, hy'] at hx'
  exact (Option.some.inj hx').symm

end

/-! ### Contents -/

/-- Sorting undoes the order in which a package lists its directories. -/
theorem Package.Relisted.prepare {package other : Package} (h : package.Relisted other)
    (importPath : String) (settings : Settings) :
    package.prepare importPath settings = other.prepare importPath settings := by
  obtain ⟨subdirectories, hperm, rfl⟩ := h
  have hsort : package.subdirectories.mergeSort (· ≤ ·) = subdirectories.mergeSort (· ≤ ·) := by
    refine eq_of_perm_of_sorted id (fun _ _ _ _ h => h) (pairwise_mergeSort_key id _)
      (pairwise_mergeSort_key id _) ?_
    exact (List.mergeSort_perm ..).trans (hperm.trans (List.mergeSort_perm ..).symm)
  simp only [Package.prepare, hsort]
  rfl

/-- The sections show no more of the packages below than their entries. -/
theorem sections_eq {a b : Contents} (hpackage : a.package = b.package)
    (hsettings : a.settings = b.settings)
    (hentries : a.subPackages.map SubPackage.entry = b.subPackages.map SubPackage.entry) :
    a.sections = b.sections := by
  simp only [Contents.sections, Contents.title, hpackage, hsettings, hentries]

/-- The text of the README of some contents, and what is left out of it. -/
def Contents.readme (contents : Contents) : Except Stop (String × List FetchFailure) :=
  match contents.render with
  | .ok text => .ok (text, contents.failures)
  | .error failure => .error (.failed failure)

theorem readme_eq {a b : Contents} (hpackage : a.package = b.package)
    (hsettings : a.settings = b.settings)
    (hentries : a.subPackages.map SubPackage.entry = b.subPackages.map SubPackage.entry)
    (hfailures : a.failures = b.failures) : a.readme = b.readme := by
  have hsections := sections_eq hpackage hsettings hentries
  simp only [Contents.readme, Contents.render, Contents.rawText, Contents.markdownOptions,
    hsections, hsettings, hfailures]

/-! ### Loading with any schedule -/

/-- The contents that a package makes with what was fetched below it. -/
def contentsWith (settings : Settings) (package : Package) (fetched : List Fetched) : Contents :=
  let outcome := Outcome.ofFetched fetched
  ⟨package, outcome.packages, settings, outcome.failures⟩

/-- The options of fetching what lies below a package, without a deadline. -/
def untimed (settings : Settings) (maxDepth : Option Nat) : Options :=
  { recursive := settings.recursive, maxDepth }

/-- The contents of the README of an import path, if the levels below its package are run in some
way; none if they take more than a number of rounds. -/
def loadBy? (run : Nat → List String → Option (List Fetched × Nat)) (answer : Answers)
    (settings : Settings) (maxDepth : Option Nat) (rounds time : Nat) (importPath : String) :
    Option (Except Stop Contents) :=
  match root answer importPath with
  | .error stop => some (.error stop)
  | .ok package =>
    let package := package.prepare importPath settings
    if settings.skipSubPackages then some (.ok (contentsWith settings package []))
    else
      (fetchLevels run (untimed settings maxDepth).descends rounds 0 time
        package.subdirectories).map
        fun fetched => .ok (contentsWith settings package fetched)

/-- Loading without a timeout is to run the levels by the clock. -/
theorem loadBy?_runLevel (source : Source) (settings : Settings) (maxDepth : Option Nat)
    (time : Nat) (importPath : String) :
    loadBy? (runLevel source.answer importPath none none) source.answer settings maxDepth
        (source.longest + 1) (time + (source.answer importPath).delay) importPath =
      some (load source { settings, maxDepth } time importPath).1 := by
  simp only [loadBy?, load]
  cases root source.answer importPath with
  | error stop => rfl
  | ok package =>
    simp only [fetchBelow, deadline]
    cases settings.skipSubPackages with
    | true => rfl
    | false =>
      have hfetch := Option.some_get (isSome_fetchLevels source importPath none
        (untimed settings maxDepth).descends (time + (source.answer importPath).delay)
        (admits_none (package.prepare importPath settings).subdirectories))
      simp only [Bool.false_eq_true, if_false]
      rw [← hfetch]
      rfl

/-- The README of an import path, if the levels below its package are run in some way. -/
def readmeBy? (run : Nat → List String → Option (List Fetched × Nat)) (answer : Answers)
    (settings : Settings) (maxDepth : Option Nat) (rounds time : Nat) (importPath : String) :
    Option (Except Stop (String × List FetchFailure)) :=
  (loadBy? run answer settings maxDepth rounds time importPath).map (·.bind Contents.readme)

/-- The fetches of all directories that are reached below a package. -/
def reachedFetches (source : Source) (settings : Settings) (maxDepth : Option Nat)
    (importPath : String) (package : Package) : List Fetched :=
  (reached source.answer importPath (untimed settings maxDepth) package.subdirectories
    (source.longest + 1)).map (fetchOne source.answer importPath)

/-- The README that shows all directories that are reached. -/
def reachedReadme (source : Source) (settings : Settings) (maxDepth : Option Nat)
    (importPath : String) :
    Except Stop (String × List FetchFailure) :=
  (root source.answer importPath).bind fun package =>
    let package := package.prepare importPath settings
    let fetched := reachedFetches source settings maxDepth importPath package
    (contentsWith settings package (if settings.skipSubPackages then [] else fetched)).readme

/-- However the fetches of each level complete, the README shows all directories that are
reached. -/
theorem readmeBy?_eq {source : Source} {importPath : String}
    {run : Nat → List String → Option (List Fetched × Nat)}
    (hrun : Completes source.answer importPath run) (settings : Settings) (maxDepth : Option Nat)
    {rounds : Nat} (hrounds : source.longest < rounds) (time : Nat) :
    readmeBy? run source.answer settings maxDepth rounds time importPath =
      some (reachedReadme source settings maxDepth importPath) := by
  simp only [readmeBy?, loadBy?, reachedReadme]
  cases root source.answer importPath with
  | error stop => rfl
  | ok package =>
    simp only [Except.bind]
    split
    · rfl
    · generalize package.prepare importPath settings = package
      have hend := level_longest source importPath (untimed settings maxDepth)
        package.subdirectories
      have houtcome := ofFetched_fetchLevels hrun time hend (level_eq_nil_of_le hend hrounds)
      obtain ⟨fetched, hfetched, heq⟩ := Option.map_eq_some_iff.mp houtcome
      rw [hfetched, Option.map_some, Option.map_some]
      simp only [contentsWith, heq, reachedFetches]

/-! ### Relisted sources -/

theorem root_relisted {answer other : Answers} (h : answer.Relisted other) (importPath : String) :
    root answer importPath = root other importPath ∨
      ∃ package package', root answer importPath = .ok package ∧
        root other importPath = .ok package' ∧
        package.Relisted package' := by
  rcases h importPath with heq | ⟨package, _, ha, hb, subdirectories, hperm, rfl⟩
  · exact .inl (by simp only [root, heq])
  · have hsame : ({ package with subdirectories } : Package).isDocumentable =
        package.isDocumentable := rfl
    simp only [root, ha, hb, hsame]
    split
    · exact .inr ⟨package, _, rfl, rfl, subdirectories, hperm, rfl⟩
    · exact .inl rfl

/-- What relisted sources reach below a package makes the same README of it. -/
theorem readme_reachedFetches_eq {source other : Source} (h : source.answer.Relisted other.answer)
    (settings : Settings) (maxDepth : Option Nat) (importPath : String) (package : Package) :
    (contentsWith settings package
        (reachedFetches source settings maxDepth importPath package)).readme =
      (contentsWith settings package
        (reachedFetches other settings maxDepth importPath package)).readme := by
  have hlevel := level_perm importPath h (untimed settings maxDepth) package.subdirectories
    (source.longest + 1)
  rw [level_longest source importPath] at hlevel
  -- The two sources may be bounded differently, but beyond an empty level nothing is reached.
  have hbound : reached other.answer importPath (untimed settings maxDepth) package.subdirectories
        (other.longest + 1) =
      reached other.answer importPath (untimed settings maxDepth) package.subdirectories
        (source.longest + 1) :=
    reached_eq (List.nil_perm.mp hlevel) (level_longest other importPath _ _)
  have hperm := reached_perm importPath h (untimed settings maxDepth) package.subdirectories
    (source.longest + 1)
  rw [← hbound] at hperm
  have ha : Collects source.answer importPath _
      (.ofFetched (reachedFetches source settings maxDepth importPath package)) :=
    collects_ofFetched (.refl _)
  have hb : Collects other.answer importPath _
      (.ofFetched (reachedFetches other settings maxDepth importPath package)) :=
    collects_ofFetched (.refl _)
  exact readme_eq rfl rfl (entries_eq h hperm ha hb) (failures_eq h hperm ha hb)

theorem reachedReadme_eq {source other : Source} (h : source.answer.Relisted other.answer)
    (settings : Settings) (maxDepth : Option Nat) (importPath : String) :
    reachedReadme source settings maxDepth importPath =
      reachedReadme other settings maxDepth importPath := by
  have hsame : ∀ package, (contentsWith settings package <| if settings.skipSubPackages then [] else
      reachedFetches source settings maxDepth importPath package).readme =
        (contentsWith settings package <| if settings.skipSubPackages then [] else
          reachedFetches other settings maxDepth importPath package).readme := by
    intro package
    split
    · rfl
    · exact readme_reachedFetches_eq h settings maxDepth importPath package
  simp only [reachedReadme, hsame]
  rcases root_relisted h importPath with heq | ⟨package, package', ha, hb, hpackage⟩
  · rw [heq]
  · rw [ha, hb]
    simp only [Except.bind, hpackage.prepare importPath settings]

/-- **A README does not depend on the order in which directories are listed**: manifests that differ
in nothing but that order give the same text and the same failures, however the fetches of each
level complete, and in particular by the clock with any delays. -/
theorem relisted_gives_same {manifest other : Manifest} (h : manifest.Relisted other)
    (failures crashes : Keyed String) (settings : Settings) (maxDepth : Option Nat)
    (importPath : String) :
    ∃ readme, ∀ listed, listed = manifest ∨ listed = other → ∀ delays : Keyed Nat,
      let source := Source.ofManifest listed { delays, failures, crashes }
      (∀ run, Completes source.answer importPath run → ∀ rounds time, source.longest < rounds →
        readmeBy? run source.answer settings maxDepth rounds time importPath = some readme) ∧
      ∀ time, (load source { settings, maxDepth } time importPath).1.bind
        Contents.readme = readme := by
  refine ⟨reachedReadme (.ofManifest manifest { failures, crashes }) settings maxDepth
    importPath, ?_⟩
  intro listed hlisted delays source
  have hrelisted : manifest.Relisted listed := by
    rcases hlisted with rfl | rfl
    · exact .refl listed
    · exact h
  have hanswers : Answers.Relisted (Source.ofManifest manifest { failures, crashes }).answer
      source.answer :=
    hrelisted.answers rfl rfl
  have hreadme := reachedReadme_eq hanswers settings maxDepth importPath
  refine ⟨fun run hrun rounds time hrounds => ?_, fun time => ?_⟩
  · rw [readmeBy?_eq hrun settings maxDepth hrounds, hreadme]
  · have hclock := readmeBy?_eq (completes_unlimited source.answer importPath) settings maxDepth
      (Nat.lt_succ_self source.longest) (time + (source.answer importPath).delay)
    rw [readmeBy?, loadBy?_runLevel, ← hreadme] at hclock
    exact Option.some.inj hclock

/-- The root and a package below it list their directories the other way round. -/
theorem relisted_gives_same_nested :
    let down : Manifest := ⟨[("r", { name := "r", subdirectories := ["b", "a"] }),
      ("r/a", { name := "a", subdirectories := ["y", "x"] })]⟩
    let up : Manifest := ⟨[("r", { name := "r", subdirectories := ["a", "b"] }),
      ("r/a", { name := "a", subdirectories := ["x", "y"] })]⟩
    down.Relisted up ∧
      (load (.ofManifest down) { settings := { recursive := true } } 0 "r").1.bind Contents.readme =
        (load (.ofManifest up) { settings := { recursive := true } } 0 "r").1.bind
          Contents.readme := by
  intro down up
  have hrelisted : down.Relisted up :=
    .cons ⟨rfl, _, .swap _ _ _, rfl⟩ (.cons ⟨rfl, _, .swap _ _ _, rfl⟩ .nil)
  obtain ⟨readme, hreadme⟩ := relisted_gives_same hrelisted [] [] { recursive := true } none "r"
  exact ⟨hrelisted, ((hreadme down (.inl rfl) []).2 0).trans ((hreadme up (.inr rfl) []).2 0).symm⟩

end PackageReadme
