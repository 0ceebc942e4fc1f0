import PackageReadme.Command.Program

/-! When a run breaks down.

A failure is told in words; a breakdown ends the run with a message that nothing has put into words.
There are two of them. One comes from the settings, when an escape in the environment is cut inside
a character. The other comes from the clock: the time by which the packages below have to be there
is the time of the clock and the timeout, and the clock counts seconds in 63 bits, while a timeout
may have 64. `run_crashed_iff` says exactly when it is that. -/
namespace PackageReadme

/-! ### The deadline -/

/-- What is said when the clock cannot show a deadline. -/
def overrunText : String := "overflow when adding duration to instant"

/-- There is no deadline only if the clock cannot show it. -/
theorem deadline_eq_error_iff {time : Nat} {timeout : Option Nat} {stop : Stop} :
    deadline time timeout = .error stop ↔
      ∃ span, timeout = some span ∧ clockEnd ≤ time + span ∧ stop = .crashed overrunText := by
  cases timeout with
  | none => simp [deadline]
  | some span =>
    by_cases h : time + span < clockEnd
    · simp only [deadline, if_pos h, reduceCtorEq, Option.some.injEq, exists_eq_left',
        false_iff, not_and]
      exact fun hlate => absurd hlate (Nat.not_le_of_lt h)
    · simp only [deadline, if_neg h, Except.error.injEq, Option.some.injEq, exists_eq_left']
      exact ⟨fun hstop => ⟨Nat.le_of_not_lt h, hstop.symm⟩, fun hstop => hstop.2.symm⟩

/-- The packages below are wanted, and the clock cannot show the time by which they have to be
there. -/
structure Overruns (options : LoadOptions) (time : Nat) : Prop where
  wanted : options.settings.skipSubPackages = false
  late : ∃ span, options.timeout = some span ∧ clockEnd ≤ time + span

theorem fetchBelow_eq_error_iff {source : Source} {options : LoadOptions} {time : Nat}
    {importPath : String} {package : Package} {stop : Stop} :
    fetchBelow source options time importPath package = .error stop ↔
      Overruns options time ∧ stop = .crashed overrunText := by
  unfold fetchBelow
  split
  · rename_i hskip
    refine ⟨fun h => (nomatch h), fun h => ?_⟩
    rw [h.1.wanted] at hskip
    cases hskip
  · rename_i hwanted
    split
    · rename_i other hother
      obtain ⟨span, hspan, hlate, rfl⟩ := deadline_eq_error_iff.mp hother
      constructor
      · intro h
        cases h
        exact ⟨⟨by simpa using hwanted, span, hspan, hlate⟩, rfl⟩
      · rintro ⟨-, rfl⟩
        rfl
    · rename_i shown hshown
      refine ⟨fun h => (nomatch h), fun h => ?_⟩
      obtain ⟨span, hspan, hlate⟩ := h.1.late
      rw [deadline_eq_error_iff.mpr ⟨span, hspan, hlate, rfl⟩] at hshown
      cases hshown

/-- Loading stops early if there is no package to start from, or if it overruns the clock. -/
theorem load_eq_error_iff {source : Source} {options : LoadOptions} {time : Nat}
    {importPath : String} {stop : Stop} :
    (load source options time importPath).1 = .error stop ↔
      root source.answer importPath = .error stop ∨
        (∃ package, root source.answer importPath = .ok package) ∧
          Overruns options (time + (source.answer importPath).delay) ∧
          stop = .crashed overrunText := by
  unfold load
  cases hroot : root source.answer importPath with
  | error other => simp
  | ok package =>
    simp only
    cases hbelow : fetchBelow source options (time + (source.answer importPath).delay) importPath
        (package.prepare importPath options.settings) with
    | error other =>
      have hother := fetchBelow_eq_error_iff.mp hbelow
      simp only [reduceCtorEq, Except.error.injEq, Except.ok.injEq, exists_eq', true_and, false_or]
      constructor
      · rintro rfl
        exact hother
      · rintro ⟨-, rfl⟩
        exact hother.2
    | ok fetched =>
      simp only [reduceCtorEq, Except.ok.injEq, exists_eq', true_and, false_or, false_iff]
      intro h
      rw [fetchBelow_eq_error_iff.mpr h] at hbelow
      cases hbelow

/-! ### Manifests -/

/-- A manifest that has no package to start from is a failure and not a breakdown. -/
theorem root_ofManifest (manifest : Manifest) (importPath : String) :
    root (Source.ofManifest manifest).answer importPath =
      match manifest.get? importPath with
      | some package =>
        if package.isDocumentable then .ok package
          else .error (.failed (.packageNotFound importPath))
      | none => .error (.failed (.packageNotFound importPath)) := by
  cases hget : manifest.get? importPath <;>
    simp [root, Source.ofManifest, Trouble.reply, Keyed.get?, Manifest.reply, Manifest.get, hget]

theorem root_ofManifest_eq_ok_iff {manifest : Manifest} {importPath : String} {package : Package} :
    root (Source.ofManifest manifest).answer importPath = .ok package ↔
      manifest.get? importPath = some package ∧ package.isDocumentable = true := by
  rw [root_ofManifest]
  cases manifest.get? importPath with
  | none => simp
  | some found =>
    by_cases h : found.isDocumentable = true
    · simp only [if_pos h, Except.ok.injEq, Option.some.injEq]
      exact ⟨fun heq => ⟨heq, heq ▸ h⟩, And.left⟩
    · simp only [if_neg h, reduceCtorEq, Option.some.injEq, false_iff, not_and]
      rintro rfl
      exact h

theorem root_ofManifest_ne_crashed (manifest : Manifest) (importPath message : String) :
    root (Source.ofManifest manifest).answer importPath ≠ .error (.crashed message) := by
  rw [root_ofManifest]
  split
  · split <;> simp
  · simp

/-! ### Runs -/

/-- A timeout is let through unless it is zero. -/
theorem fetchTimeout_eq_ok_some_iff {invocation : Invocation} {span : Nat} :
    fetchTimeout invocation = .ok (some span) ↔
      ∃ seconds, invocation.timeout = some seconds ∧ seconds ≠ 0 ∧ span = seconds.toNat * 1000 := by
  unfold fetchTimeout
  cases invocation.timeout with
  | none => simp
  | some seconds =>
    by_cases h : seconds = 0
    · simp [h]
    · simp [h, eq_comm]

/-- The packages below are wanted, there is a package to start from, and the clock and a timeout
that is let through come to 2 ^ 63 seconds or more. -/
structure RunsOver (world : World) (invocation : Invocation) (settings : Settings) : Prop where
  wanted : settings.skipSubPackages = false
  found : ∃ manifest package, readManifest world.files invocation.manifest = .ok manifest ∧
    manifest.get? invocation.importPath = some package ∧ package.isDocumentable = true
  late : ∃ seconds : UInt64, invocation.timeout = some seconds ∧ seconds ≠ 0 ∧
    Nat.pow 2 63 ≤ seconds.toNat + world.clock / 1000

theorem clockEnd_le_iff {clock seconds : Nat} :
    clockEnd ≤ clock + seconds * 1000 ↔ Nat.pow 2 63 ≤ seconds + clock / 1000 := by
  rw [clockEnd]
  omega

/-- What stops loading a manifest's packages, as a breakdown. -/
theorem load_ofManifest_crashed_iff {manifest : Manifest} {options : LoadOptions} {time : Nat}
    {importPath message : String} :
    (load (.ofManifest manifest) options time importPath).1 = .error (.crashed message) ↔
      (∃ package, manifest.get? importPath = some package ∧ package.isDocumentable = true) ∧
        Overruns options time ∧ message = overrunText := by
  have hdelay : time + ((Source.ofManifest manifest).answer importPath).delay = time := rfl
  simp only [load_eq_error_iff, root_ofManifest_ne_crashed, root_ofManifest_eq_ok_iff, hdelay,
    Stop.crashed.injEq, false_or]

theorem mapError_halt_eq_crashed_iff {α : Type} {result : Except Stop α} {message : String} :
    result.mapError Stop.halt = .error (.crashed message) ↔ result = .error (.crashed message) := by
  cases result with
  | ok value => exact ⟨fun h => (nomatch h), fun h => (nomatch h)⟩
  | error stop =>
    cases stop with
    | failed failure => exact ⟨fun h => (nomatch h), fun h => (nomatch h)⟩
    | crashed other =>
      show Except.error (Halt.crashed other) = _ ↔ _
      simp

/-- Getting the contents breaks down exactly if it runs over. -/
theorem loadContents_crashed_iff {world : World} {invocation : Invocation} {settings : Settings}
    {message : String} :
    (loadContents world invocation settings).1 = .error (.crashed message) ↔
      RunsOver world invocation settings ∧ message = overrunText := by
  unfold loadContents
  cases hmanifest : readManifest world.files invocation.manifest with
  | error failure =>
    simp only [reduceCtorEq, Except.error.injEq, false_iff]
    rintro ⟨hover, -⟩
    obtain ⟨manifest, -, hread, -⟩ := hover.found
    rw [hmanifest] at hread
    cases hread
  | ok manifest =>
    cases htimeout : fetchTimeout invocation with
    | error failure =>
      simp only [reduceCtorEq, Except.error.injEq, false_iff]
      rintro ⟨hover, -⟩
      obtain ⟨seconds, hseconds, hne, -⟩ := hover.late
      rw [fetchTimeout_eq_ok_some_iff.mpr ⟨seconds, hseconds, hne, rfl⟩] at htimeout
      cases htimeout
    | ok timeout =>
      simp only [mapError_halt_eq_crashed_iff, load_ofManifest_crashed_iff]
      constructor
      · rintro ⟨⟨package, hpackage, hdocumentable⟩, hover, rfl⟩
        obtain ⟨span, rfl, hlate⟩ := hover.late
        obtain ⟨seconds, hseconds, hne, rfl⟩ := fetchTimeout_eq_ok_some_iff.mp htimeout
        exact ⟨⟨hover.wanted, ⟨manifest, package, hmanifest, hpackage, hdocumentable⟩,
          seconds, hseconds, hne, clockEnd_le_iff.mp hlate⟩, rfl⟩
      · rintro ⟨hover, rfl⟩
        obtain ⟨other, package, hread, hpackage, hdocumentable⟩ := hover.found
        obtain ⟨seconds, hseconds, hne, hlate⟩ := hover.late
        rw [hmanifest] at hread
        cases hread
        rw [fetchTimeout_eq_ok_some_iff.mpr ⟨seconds, hseconds, hne, rfl⟩] at htimeout
        cases htimeout
        exact ⟨⟨package, hpackage, hdocumentable⟩,
          ⟨hover.wanted, _, rfl, clockEnd_le_iff.mpr hlate⟩, rfl⟩

/-- Before it writes, a run breaks down over its settings or over its contents. -/
theorem compose_crashed_iff {world : World} {invocation : Invocation} {message : String} :
    (compose world invocation).1 = .error (.crashed message) ↔
      (loadSettings world invocation).1 = .error (.crashed message) ∨
        ∃ settings, (loadSettings world invocation).1 = .ok settings ∧
          (loadContents world invocation settings).1 = .error (.crashed message) := by
  unfold compose
  rcases loadSettings world invocation with ⟨halt | settings, records⟩
  · simp
  · simp only [reduceCtorEq, Except.ok.injEq, exists_eq_left', false_or]
    rcases loadContents world invocation settings with ⟨halt | contents, more⟩
    · simp
    · simp only [reduceCtorEq, iff_false]
      cases (renderAs world.stamp contents invocation.format).1 with
      | error failure => exact fun h => nomatch h
      | ok text => exact fun h => nomatch h

/-- Writing may fail, but it does not break down. -/
theorem run_crashed_iff_compose {world : World} {invocation : Invocation} {message : String} :
    (run world invocation).outcome = .error (.crashed message) ↔
      (compose world invocation).1 = .error (.crashed message) := by
  unfold run
  rcases compose world invocation with ⟨halt | text, records⟩
  · simp
  · cases invocation.output with
    | none =>
      simp only
      rcases world.print text.toUTF8.toList with ⟨fault | done, output⟩
      · simp
      · simp
    | some path =>
      simp only
      rcases replaceFile world.files path text.toUTF8.toList with ⟨failure | done, files⟩
      · simp
      · simp

/-- **A run breaks down over its timeout exactly if the clock cannot show the deadline**: the
packages below are wanted, there is a package to start from, and the clock and the timeout come to
2 ^ 63 seconds or more. The only other breakdown is one over the settings, before anything is
loaded. -/
theorem run_crashed_iff (world : World) (invocation : Invocation) (message : String) :
    (run world invocation).outcome = .error (.crashed message) ↔
      (loadSettings world invocation).1 = .error (.crashed message) ∨
        ∃ settings, (loadSettings world invocation).1 = .ok settings ∧
          RunsOver world invocation settings ∧
          message = overrunText := by
  rw [run_crashed_iff_compose, compose_crashed_iff]
  simp only [loadContents_crashed_iff]

/-- The longest timeout that arguments can give is let through, and the program breaks down over it,
even with the clock at zero. -/
theorem program_crashes_over_timeout :
    let manifest := "\x7b\"packages\": \x7b\"p\": \x7b\"name\": \"p\"\x7d\x7d\x7d"
    let world : World := { files := { entries := [(["m.json"], .file manifest.toUTF8.toList)] } }
    let arguments := ["-m", "m.json", "p", "--timeout", "18446744073709551615"]
    (Arguments.parse arguments).toOption.map Invocation.timeout = some (some 18446744073709551615) ∧
      (program world arguments).code = 101 ∧
      (program world arguments).report = some overrunText := by
  decide +kernel

end PackageReadme
