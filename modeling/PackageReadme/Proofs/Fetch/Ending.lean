import Mathlib.Data.Nat.Find
import PackageReadme.Proofs.Fetch.Levels
import PackageReadme.Proofs.Keyed

/-! Fetching from a manifest comes to an end.

No list is kept of what was fetched before, so a package that lists itself, or an empty name, is
fetched again one level below. But every level makes the paths longer, and a package is only had
where the manifest has it: there is at most one level more than the longest of its import paths has
characters (`fetch_ends`). Paths of slashes alone take as many levels as that
(`longestPath_attained`), so no smaller number will do. -/
namespace PackageReadme.Fetch

/-- What holds from some number on, if it does so by a bound, holds from a first one on. -/
theorem exists_first_of_mono {P : Nat → Prop} (hmono : ∀ n, P n → P (n + 1)) {bound : Nat}
    (h : P bound) :
    ∃ count ≤ bound, ∀ n, P n ↔ count ≤ n := by
  classical
  have hex : ∃ n, P n := ⟨bound, h⟩
  refine ⟨Nat.find hex, Nat.find_min' hex h, fun n => ⟨Nat.find_min' hex, fun hn => ?_⟩⟩
  exact Nat.le_induction (Nat.find_spec hex) (fun m _ => hmono m) n hn

/-! ### Manifests -/

/-- **Fetching from a manifest ends** after at most one level more than its longest import path has
characters, whatever its packages list below them. Without a deadline the levels are those that the
manifest gives, in whatever order fetches complete; with a deadline, and under any limit that admits
the directories, there are no more than that either. -/
theorem fetch_ends (manifest : Manifest) (trouble : Trouble) (root : String)
    (directories : List String) :
    let answer := (Source.ofManifest manifest trouble).answer
    let bound := Manifest.longestPath manifest.packages + 1
    let options : Options := { recursive := true, maxDepth := none }
    (∃ count ≤ bound, (∀ depth, level answer root options directories depth = [] ↔ count ≤ depth) ∧
      ∀ run, Completes answer root run → ∀ rounds time,
        (fetchLevels run options.descends rounds 0 time directories).isSome ↔ count ≤ rounds) ∧
    ∀ limit, Admits limit directories → ∀ deadline time, ∃ count ≤ bound, ∀ rounds,
      (∃ fetched, fetchAll? answer root { options with maxParallel := limit, deadline } rounds time
        directories = .ok (some fetched)) ↔ count ≤ rounds := by
  intro answer bound options
  constructor
  · have hend : level answer root options directories bound = [] :=
      level_longest (.ofManifest manifest trouble) root options directories
    obtain ⟨count, hcount, hlevel⟩ :=
      exists_first_of_mono (P := fun depth => level answer root options directories depth = [])
        (fun depth hnil => level_eq_nil_of_le hnil (Nat.le_succ depth)) hend
    refine ⟨count, hcount, hlevel, fun run hrun rounds time => ?_⟩
    rw [isSome_fetchLevels_iff hrun, hlevel]
  · intro limit hlimit deadline time
    refine exists_first_of_mono (fun rounds hends => ?_) ?_
    · obtain ⟨fetched, hfetched⟩ := hends
      obtain ⟨-, hlevels⟩ := fetchAll?_eq_ok_some_iff.mp hfetched
      exact ⟨fetched, fetchAll?_eq_ok_some_iff.mpr ⟨hlimit, fetchLevels_succ_of_eq_some hlevels⟩⟩
    · obtain ⟨fetched, hfetched⟩ := Option.isSome_iff_exists.mp
        (isSome_fetchLevels (.ofManifest manifest trouble) root deadline options.descends
          time hlimit)
      exact ⟨fetched, fetchAll?_eq_ok_some_iff.mpr ⟨hlimit, hfetched⟩⟩

/-! ### A manifest with as many levels as there can be -/

def slashes (n : Nat) : String :=
  String.ofList (List.replicate n '/')

/-- The packages at a number of paths of slashes alone, each of which lists the next one by an empty
name. -/
def ladder (n : Nat) : Manifest :=
  ⟨(List.range n).map fun k => (slashes (k + 1), { subdirectories := [""] })⟩

theorem length_slashes (n : Nat) : (slashes n).length = n := by
  simp [slashes]

theorem slashes_append (m n : Nat) : slashes m ++ slashes n = slashes (m + n) := by
  rw [slashes, slashes, slashes, ← String.ofList_append, List.replicate_append_replicate]

theorem importPath_slashes (n : Nat) : importPath "" (slashes n) = slashes (n + 1) := by
  have happend : "" ++ "/" ++ slashes n = slashes 1 ++ slashes n := rfl
  rw [importPath, happend, slashes_append, Nat.add_comm]

theorem slashes_injective : Function.Injective slashes := by
  intro m n h
  rw [← length_slashes m, h, length_slashes]

theorem longestPath_append {α : Type} (a b : List (String × α)) :
    Manifest.longestPath (a ++ b) = max (Manifest.longestPath a) (Manifest.longestPath b) := by
  induction a with
  | nil => simp [Manifest.longestPath]
  | cons entry a ih => simp [Manifest.longestPath, ih, Nat.max_assoc]

theorem longestPath_ladder (n : Nat) : Manifest.longestPath (ladder n).packages = n := by
  induction n with
  | zero => rfl
  | succ n ih =>
    rw [ladder, List.range_succ, List.map_append, longestPath_append]
    simp only [ladder] at ih
    simp [ih, Manifest.longestPath, length_slashes]

theorem reply_ladder {n k : Nat} (h : k < n) :
    (ladder n).reply (slashes (k + 1)) = .found { subdirectories := [""] } := by
  have hkeys : ((ladder n).packages.map Prod.fst).Nodup := by
    rw [ladder, List.map_map]
    refine List.pairwise_map.mpr (List.Pairwise.imp (fun hne heq => hne ?_) List.nodup_range)
    exact Nat.succ_injective (slashes_injective heq)
  have hget : (ladder n).get? (slashes (k + 1)) = some { subdirectories := [""] } :=
    Keyed.get?_eq_some hkeys (List.mem_map.mpr ⟨k, List.mem_range.mpr h, rfl⟩)
  simp only [Manifest.reply, Manifest.get, hget]

/-- Paths of slashes are reached one below another, down to the longest. -/
theorem level_ladder {n depth : Nat} (h : depth ≤ n) :
    level (Source.ofManifest (ladder n)).answer "" { recursive := true } [""] depth =
      [slashes depth] := by
  induction depth with
  | zero => rfl
  | succ depth ih =>
    have hbelow : below (Source.ofManifest (ladder n)).answer "" (slashes depth) =
        [slashes depth ++ "/" ++ ""] := by
      have hreply : ((Source.ofManifest (ladder n)).answer (slashes (depth + 1))).reply =
          .found { subdirectories := [""] } := reply_ladder h
      simp only [below, importPath_slashes, hreply, List.map_cons, List.map_nil]
    have hnext : slashes depth ++ "/" ++ "" = slashes (depth + 1) := by
      rw [String.append_empty]
      exact slashes_append depth 1
    rw [level, ih (by omega), List.flatMap_singleton, hbelow, hnext]
    rfl

/-- **No smaller number of levels will do**: for every length there is a manifest with one level
more. -/
theorem longestPath_attained (n : Nat) :
    Manifest.longestPath (ladder n).packages = n ∧
      ∀ depth, level (Source.ofManifest (ladder n)).answer "" { recursive := true } [""]
        depth = [] ↔ n + 1 ≤ depth := by
  refine ⟨longestPath_ladder n, fun depth => ⟨fun hnil => ?_, fun hdepth => ?_⟩⟩
  · by_contra hlt
    rw [level_ladder (by omega)] at hnil
    cases hnil
  · have hend := level_longest (.ofManifest (ladder n)) "" { recursive := true } [""]
    rw [show (Source.ofManifest (ladder n)).longest = n from longestPath_ladder n] at hend
    exact level_eq_nil_of_le hend hdepth

end PackageReadme.Fetch
