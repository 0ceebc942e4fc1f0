import PackageReadme.Manifest

/-! Sources of packages.

Every import path is answered, after a delay, with a package, with a failure, or by breaking down.
The paths that a source has packages for are bounded in length. -/
namespace PackageReadme

inductive Reply where
  | found (package : Package)
  | refused (failure : Failure)
  | crashed (message : String)
  deriving Repr

def Reply.package? : Reply → Option Package
  | .found package => some package
  | _ => none

/-- A reply and the milliseconds that it takes. -/
structure Answer where
  delay : Nat := 0
  reply : Reply
  deriving Repr

/-- What comes back for every import path. -/
abbrev Answers := String → Answer

structure Source where
  answer : Answers
  /-- No longer import path has a package. -/
  longest : Nat
  bounded : ∀ path : String, longest < path.length → (answer path).reply.package? = none

/-! ### Manifests as sources -/

namespace Manifest

def reply (manifest : Manifest) (path : String) : Reply :=
  match manifest.get path with
  | .ok package => .found package
  | .error failure => .refused failure

/-- The length of the longest of some import paths. -/
def longestPath {α : Type} : List (String × α) → Nat
  | [] => 0
  | (path, _) :: rest => max path.length (longestPath rest)

theorem lookup_eq_none_of_longestPath_lt {α : Type} {entries : List (String × α)} {path : String}
    (h : longestPath entries < path.length) : entries.lookup path = none := by
  induction entries with
  | nil => rfl
  | cons entry rest ih =>
    obtain ⟨key, value⟩ := entry
    simp only [longestPath] at h
    have hne : path ≠ key := by
      intro he
      rw [he] at h
      omega
    rw [List.lookup_cons, beq_eq_false_iff_ne.mpr hne]
    exact ih (by omega)

theorem package?_reply_eq_none {manifest : Manifest} {path : String}
    (h : longestPath manifest.packages < path.length) :
    (manifest.reply path).package? = none := by
  simp [reply, get, get?, Keyed.get?, lookup_eq_none_of_longestPath_lt h, Reply.package?]

end Manifest

/-- What goes wrong at a source: it waits, fails or breaks down at certain paths. -/
structure Trouble where
  delays : Keyed Nat := []
  failures : Keyed String := []
  crashes : Keyed String := []
  deriving Repr

/-- The reply at a path: a crash comes before a failure, and both before what the manifest has. -/
def Trouble.reply (trouble : Trouble) (manifest : Manifest) (path : String) : Reply :=
  match trouble.crashes.get? path with
  | some message => .crashed message
  | none =>
    match trouble.failures.get? path with
    | some message => .refused (.other message)
    | none => manifest.reply path

/-- A manifest as a source, with trouble at some paths. -/
def Source.ofManifest (manifest : Manifest) (trouble : Trouble := {}) : Source where
  answer path := ⟨(trouble.delays.get? path).getD 0, trouble.reply manifest path⟩
  longest := Manifest.longestPath manifest.packages
  bounded path h := by
    simp only [Trouble.reply]
    split
    · rfl
    · split
      · rfl
      · exact Manifest.package?_reply_eq_none h

end PackageReadme
