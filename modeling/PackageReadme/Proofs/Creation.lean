import PackageReadme.Proofs.Listing
import PackageReadme.Proofs.Rendering

/-! Creating a README reports what was done.

Two things make a creation fail: there is no package with a name to start from, or the output does
not take the text. What happens to the packages below never does; those that cannot be fetched are
left out of the README and are told in the report. `Faithful` says this of a report and of what
reached the output. `createBy?` creates a README from answers that need not be those of a bounded
source, with the fetches of each level completing in any order.

`creates_faithfully`: such a creation ends once there is no level left to fetch, and it is faithful;
so is one from a source by the clock. -/
namespace PackageReadme
open Fetch

/-! ### Faithful reports -/

section
variable (answer : Answers) (settings : Settings) (maxDepth : Option Nat) (output : Output)
  (importPath : String)

/-- There is a package to start from, and it has a name. -/
def Starts (package : Package) : Prop :=
  (answer importPath).reply = .found package ∧ package.name ≠ ""

/-- What the directories below a package give: nothing if they are skipped, or else what is
collected from all levels before an empty one. -/
inductive Below (package : Package) : Outcome → Prop where
  | skipped : settings.skipSubPackages = true → Below package {}
  | fetched {depth : Nat} {outcome : Outcome} : settings.skipSubPackages = false →
      level answer importPath (untimed settings maxDepth) package.subdirectories depth = [] →
      Collects answer importPath (reached answer importPath (untimed settings maxDepth)
        package.subdirectories depth)
        outcome → Below package outcome

/-- A report, and what reached the output, agree with what the answers give and the output takes. -/
structure Faithful (report : Except Stop Report) (written : String) : Prop where
  ok_iff : (∃ told, report = .ok told) ↔
    (∃ package, Starts answer importPath package) ∧ output.writeFault = none ∧
    output.flushFault = none
  told : ∀ told, report = .ok told → ∃ package outcome, Starts answer importPath package ∧
    Below answer settings maxDepth importPath (package.prepare importPath settings) outcome ∧
    Contents.render ⟨package.prepare importPath settings, outcome.packages, settings,
      outcome.failures⟩ = .ok written ∧
    told.bytesWritten = written.toUTF8.size ∧
    told.failures = if outcome.failures = [] then none else some outcome.failures
  silent : (¬ ∃ package, Starts answer importPath package) → written = ""

end

variable {answer : Answers} {settings : Settings} {maxDepth : Option Nat} {output : Output}
  {importPath : String}

/-! ### Publishing -/

/-- Contents are published exactly if the output takes the text and lets go of it. -/
theorem exists_publish_eq_ok_iff (contents : Contents) (output : Output) :
    (∃ told, (contents.publish output).1 = .ok told) ↔
      output.writeFault = none ∧ output.flushFault = none := by
  obtain ⟨writeFault, flushFault⟩ := output
  cases writeFault <;> cases flushFault <;> simp [Contents.publish, contents.render_eq, Output.put]

theorem of_publish_eq_ok {contents : Contents} {output : Output} {told : Report}
    (h : (contents.publish output).1 = .ok told) :
    contents.render = .ok (contents.publish output).2 ∧
      told = contents.report (contents.publish output).2 := by
  obtain ⟨hwrite, hflush⟩ := (exists_publish_eq_ok_iff contents output).mp ⟨told, h⟩
  have hpublish : contents.publish output =
      (.ok (contents.report (Newlines.normalize contents.rawText)),
        Newlines.normalize contents.rawText) := by
    simp only [Contents.publish, contents.render_eq, Output.put, hwrite, hflush]
  rw [hpublish] at h ⊢
  exact ⟨contents.render_eq, (Except.ok.inj h).symm⟩

theorem ofFetched_nil : Outcome.ofFetched [] = {} := by
  simp [Outcome.ofFetched, FetchFailure.sort]

/-- A package with what was fetched below it is published faithfully. -/
theorem faithful_publish {package : Package} {fetched : List Fetched}
    (hstart : Starts answer importPath package)
    (hbelow : Below answer settings maxDepth importPath (package.prepare importPath settings)
      (.ofFetched fetched)) :
    let creation := (contentsWith settings (package.prepare importPath settings)
      fetched).publish output
    Faithful answer settings maxDepth output importPath creation.1 creation.2 where
  ok_iff := by
    rw [exists_publish_eq_ok_iff]
    exact ⟨fun h => ⟨⟨package, hstart⟩, h⟩, And.right⟩
  told told htold := by
    obtain ⟨hrender, hreport⟩ := of_publish_eq_ok htold
    refine ⟨package, .ofFetched fetched, hstart, hbelow, hrender, ?_, ?_⟩
    · rw [hreport]
      rfl
    · rw [hreport]
      simp only [Contents.report, List.isEmpty_iff]
      rfl
  silent hnone := absurd ⟨package, hstart⟩ hnone

/-- Without a package to start from, a failure and an empty output are faithful. -/
theorem faithful_error (hnone : ¬ ∃ package, Starts answer importPath package) (stop : Stop) :
    Faithful answer settings maxDepth output importPath (.error stop) "" where
  ok_iff := ⟨fun ⟨_, h⟩ => (nomatch h), fun h => absurd h.1 hnone⟩
  told _ h := nomatch h
  silent _ := rfl

/-! ### Creating with any schedule -/

/-- The report of loaded contents and what reached the output. -/
def publishLoaded (output : Output) : Except Stop Contents → Except Stop Report × String
  | .error stop => (.error stop, "")
  | .ok contents => contents.publish output

/-- The report of creating a README and what reached the output, if the levels below its package are
run in some way; none if they take more than a number of rounds. -/
def createBy? (run : Nat → List String → Option (List Fetched × Nat)) (answer : Answers)
    (settings : Settings) (maxDepth : Option Nat) (output : Output) (rounds time : Nat)
    (importPath : String) :
    Option (Except Stop Report × String) :=
  (loadBy? run answer settings maxDepth rounds time importPath).map (publishLoaded output)

/-- To create a README is to load its contents and to publish them. -/
theorem publishLoaded_load (source : Source) (options : LoadOptions) (output : Output) (time : Nat)
    (importPath : String) :
    publishLoaded output (load source options time importPath).1 =
      ((create source options output time importPath).report,
        (create source options output time importPath).written) := by
  unfold create
  rcases load source options time importPath with ⟨stop | contents, records⟩
  · rfl
  · rfl

section
variable {run : Nat → List String → Option (List Fetched × Nat)} {rounds time : Nat}

theorem root_eq_ok_iff {package : Package} :
    root answer importPath = .ok package ↔ Starts answer importPath package := by
  unfold root Starts
  cases (answer importPath).reply with
  | crashed message => simp
  | refused failure => simp
  | found found =>
    by_cases hnamed : found.isDocumentable = true
    · simp only [if_pos hnamed, Except.ok.injEq, Reply.found.injEq]
      exact ⟨fun heq => ⟨heq, heq ▸ bne_iff_ne.mp hnamed⟩, And.left⟩
    · simp only [if_neg hnamed, reduceCtorEq, Reply.found.injEq, false_iff]
      rintro ⟨rfl, hname⟩
      exact hnamed (bne_iff_ne.mpr hname)

theorem createBy?_of_starts {package : Package} (h : Starts answer importPath package) :
    createBy? run answer settings maxDepth output rounds time importPath =
      if settings.skipSubPackages then
        some ((contentsWith settings (package.prepare importPath settings) []).publish output)
      else
        (fetchLevels run (untimed settings maxDepth).descends rounds 0 time
          (package.prepare importPath settings).subdirectories).map
            fun fetched => (contentsWith settings (package.prepare importPath settings)
              fetched).publish output := by
  simp only [createBy?, loadBy?, root_eq_ok_iff.mpr h]
  split
  · rfl
  · rw [Option.map_map]
    rfl

/-- Without a package to start from, a creation stops at once, whatever the output and the
levels. -/
theorem exists_createBy?_eq_error (h : ¬ ∃ package, Starts answer importPath package) :
    ∃ stop, ∀ run settings maxDepth output rounds time,
      createBy? run answer settings maxDepth output rounds time importPath =
        some (.error stop, "") := by
  cases hroot : root answer importPath with
  | error stop =>
    refine ⟨stop, fun run settings maxDepth output rounds time => ?_⟩
    simp only [createBy?, loadBy?, hroot]
    rfl
  | ok package => exact absurd ⟨package, root_eq_ok_iff.mp hroot⟩ h

/-- There is nothing to fetch, or no level is left after some rounds. -/
def Ends (answer : Answers) (settings : Settings) (maxDepth : Option Nat) (importPath : String)
    (rounds : Nat) : Prop :=
  ∀ package, Starts answer importPath package → settings.skipSubPackages = false →
    level answer importPath (untimed settings maxDepth)
    (package.prepare importPath settings).subdirectories rounds = []

theorem Starts.unique {a b : Package} (ha : Starts answer importPath a)
    (hb : Starts answer importPath b) : a = b :=
  Reply.found.inj (ha.1.symm.trans hb.1)

theorem isSome_createBy?_iff (hrun : Completes answer importPath run) :
    (createBy? run answer settings maxDepth output rounds time importPath).isSome ↔
      Ends answer settings maxDepth importPath rounds := by
  by_cases hstarts : ∃ package, Starts answer importPath package
  · obtain ⟨package, hstart⟩ := hstarts
    rw [createBy?_of_starts hstart]
    cases hskip : settings.skipSubPackages with
    | true => simp [Ends, hskip]
    | false =>
      simp only [Bool.false_eq_true, if_false, Option.isSome_map, isSome_fetchLevels_iff hrun]
      constructor
      · intro hend other hother _
        rw [hother.unique hstart]
        exact hend
      · intro hend
        exact hend package hstart hskip
  · obtain ⟨stop, hstop⟩ := exists_createBy?_eq_error hstarts
    rw [hstop]
    exact ⟨fun _ package hstart => absurd ⟨package, hstart⟩ hstarts, fun _ => rfl⟩

/-- However the fetches of each level complete, a creation that ends is faithful. -/
theorem faithful_of_createBy? (hrun : Completes answer importPath run)
    {creation : Except Stop Report × String}
    (h : createBy? run answer settings maxDepth output rounds time importPath = some creation) :
    Faithful answer settings maxDepth output importPath creation.1 creation.2 := by
  by_cases hstarts : ∃ package, Starts answer importPath package
  · obtain ⟨package, hstart⟩ := hstarts
    rw [createBy?_of_starts hstart] at h
    cases hskip : settings.skipSubPackages with
    | true =>
      rw [hskip, if_pos rfl] at h
      obtain rfl := Option.some.inj h
      exact faithful_publish hstart (ofFetched_nil ▸ .skipped hskip)
    | false =>
      simp only [hskip, Bool.false_eq_true, if_false] at h
      obtain ⟨fetched, hfetched, rfl⟩ := Option.map_eq_some_iff.mp h
      obtain ⟨hend, hcollects⟩ := collects_of_fetchLevels hrun hfetched
      exact faithful_publish hstart (.fetched hskip hend hcollects)
  · obtain ⟨stop, hstop⟩ := exists_createBy?_eq_error hstarts
    rw [hstop] at h
    obtain rfl := Option.some.inj h
    exact faithful_error hstarts stop

end

/-- **Creating a README reports faithfully**: in whatever order the fetches of each level complete,
a creation ends with a number of rounds exactly if no level is left after them, and then it is
faithful. So it is from a source, by the clock. -/
theorem creates_faithfully (answer : Answers) (settings : Settings) (maxDepth : Option Nat)
    (output : Output) (importPath : String) :
    (∀ run, Completes answer importPath run → ∀ rounds time,
      ((createBy? run answer settings maxDepth output rounds time importPath).isSome ↔
        Ends answer settings maxDepth importPath rounds) ∧
      ∀ creation, createBy? run answer settings maxDepth output rounds time importPath =
        some creation →
        Faithful answer settings maxDepth output importPath creation.1 creation.2) ∧
    ∀ source : Source, source.answer = answer → ∀ time,
      let creation := create source { settings, maxDepth } output time importPath
      Faithful answer settings maxDepth output importPath creation.report creation.written := by
  refine ⟨fun run hrun rounds time =>
    ⟨isSome_createBy?_iff hrun, fun creation => faithful_of_createBy? hrun⟩, ?_⟩
  intro source hsource time
  subst hsource
  have hcreated : createBy? (runLevel source.answer importPath none none) source.answer settings
      maxDepth output (source.longest + 1) (time + (source.answer importPath).delay) importPath =
        some ((create source { settings, maxDepth } output time importPath).report,
          (create source { settings, maxDepth } output time importPath).written) := by
    rw [createBy?, loadBy?_runLevel, Option.map_some, publishLoaded_load]
  exact faithful_of_createBy? (completes_unlimited source.answer importPath) hcreated

end PackageReadme
