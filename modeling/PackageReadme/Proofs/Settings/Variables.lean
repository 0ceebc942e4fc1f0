import PackageReadme.Proofs.Settings.Layering
import PackageReadme.Settings.Environment

/-! The layer of an environment, variable by variable.

The layer is a table in which all names are in order. At the end of a way on which every variable
puts only tables, it has the value that the last variable sets there (`scalar?_at?_layer`). -/
namespace PackageReadme.Environment
open Setting

/-! ### Values are in order -/

theorem ordered_readMembers {read : ValueReader}
    (hread : ∀ s setting rest, read s = .ok (setting, rest) → setting.Ordered)
    {before members : Keyed Setting} {s rest : List Char}
    (hbefore : (table .environment before).Ordered)
    (h : readMembers read before s = .ok (members, rest)) :
    (table .environment members).Ordered := by
  fun_induction readMembers read before s with
  | case1 before rest =>
    cases h
    exact hbefore
  | case2 => cases h
  | case3 => cases h
  | case4 before s _ name value _ item after hitem _ ih =>
    exact ih (hbefore.insert name (hread _ _ _ hitem)) h
  | case5 => cases h
  | case6 before s _ name value _ item after hitem =>
    cases h
    exact hbefore.insert name (hread _ _ _ hitem)
  | case7 => cases h

theorem ordered_readScalar {s : List Char} {setting : Setting} {rest : List Char}
    (h : ((readScalar s).map fun (value, rest) =>
      (Setting.scalar .environment value, skipGap rest)) =
      .ok (setting, rest)) : setting.Ordered := by
  cases hscalar : readScalar s with
  | error misread =>
    rw [hscalar] at h
    cases h
  | ok r =>
    rw [hscalar] at h
    cases h
    exact .scalar ..

theorem ordered_readValue (depth : Nat) (s : List Char) (setting : Setting) (rest : List Char)
    (h : readValue depth s = .ok (setting, rest)) : setting.Ordered := by
  induction depth generalizing s setting rest with
  | zero => exact ordered_readScalar h
  | succ depth ih =>
    rw [readValue] at h
    split at h
    · rename_i items _
      cases hitems : readItems (readValue depth) items with
      | error misread =>
        rw [hitems] at h
        cases h
      | ok r =>
        rw [hitems] at h
        cases h
        exact .list ..
    · rename_i text _
      cases hmembers : readMembers (readValue depth) [] text with
      | error misread =>
        rw [hmembers] at h
        cases h
      | ok r =>
        rw [hmembers] at h
        cases h
        exact ordered_readMembers ih (ordered_empty _) hmembers
    · exact ordered_readScalar h

theorem ordered_value {text : String} {setting : Setting} (h : value text = .ok setting) :
    setting.Ordered := by
  unfold value at h
  split at h
  · rename_i hread
    cases h
    exact ordered_readValue _ _ _ _ hread
  · cases h
    exact .scalar ..
  · cases h
    exact .scalar ..
  · cases h

/-! ### Ways of variables -/

theorem cutWhere_ne_nil (isMark : Char → Bool) (s : List Char) : Text.cutWhere isMark s ≠ [] := by
  cases s with
  | nil => simp [Text.cutWhere]
  | cons c cs =>
    rw [Text.cutWhere]
    split
    · simp
    · split <;> simp

/-- A way leads into the layer, never to the whole of it. -/
theorem path?_ne_nil {name : String} {way : List String} (h : path? name = some way) :
    way ≠ [] := by
  unfold path? at h
  split at h
  · cases h
  · simp only at h
    split at h
    · cases h
    · rw [← Option.some.inj h]
      simpa [Text.cut] using cutWhere_ne_nil _ _

theorem Ordered.nest {setting : Setting} (h : setting.Ordered) (way : List String) :
    (nest setting way).Ordered := by
  induction way with
  | nil => exact h
  | cons name rest ih => exact .table .environment (List.pairwise_singleton ..) (by simpa using ih)

/-! ### The layer -/

/-- What a variable sets at the end of a way. -/
def sets (path : List String) (var : String × String) : Option Setting :=
  match path? var.1, value var.2 with
  | some way, .ok setting => (nest setting way).at? path
  | _, _ => none

/-- What the last variable that sets anything at the end of a way sets there. -/
def lastSet? (environment : List (String × String)) (path : List String) : Option Setting :=
  environment.reverse.findSome? (sets path)

/-- On a way, a variable puts only tables before the end. -/
def Clears (path : List String) (var : String × String) : Prop :=
  ∀ way setting, path? var.1 = some way → value var.2 = .ok setting → (nest setting way).Leads path

/-- What a layer has, where it lies over a layer before that variables go on from. -/
theorem layerOver_cons {before layer : Setting} {var : String × String}
    {rest : List (String × String)} (h : layerOver before (var :: rest) = .ok layer) :
    (path? var.1 = none ∧ layerOver before rest = .ok layer) ∨
      ∃ way setting, path? var.1 = some way ∧ value var.2 = .ok setting ∧
        layerOver ((nest setting way).laidOver before) rest = .ok layer := by
  rw [layerOver] at h
  cases hpath : path? var.1 with
  | none =>
    simp only [hpath] at h
    exact .inl ⟨rfl, h⟩
  | some way =>
    cases hvalue : value var.2 with
    | error broken =>
      simp only [hpath, hvalue] at h
      cases h
    | ok setting =>
      simp only [hpath, hvalue] at h
      exact .inr ⟨way, setting, rfl, rfl, h⟩

theorem ordered_layerOver {before layer : Setting} {environment : List (String × String)}
    (hbefore : before.Ordered) (h : layerOver before environment = .ok layer) : layer.Ordered := by
  induction environment generalizing before with
  | nil =>
    cases h
    exact hbefore
  | cons var rest ih =>
    rcases layerOver_cons h with ⟨-, hrest⟩ | ⟨way, setting, -, hvalue, hrest⟩
    · exact ih hbefore hrest
    · exact ih ((Ordered.nest (ordered_value hvalue) way).laidOver hbefore) hrest

theorem ordered_layer {environment : List (String × String)} {layer : Setting}
    (h : Environment.layer environment = .ok layer) : layer.Ordered :=
  ordered_layerOver (ordered_empty _) h

theorem exists_table_layerOver {before layer : Setting} {environment : List (String × String)}
    (hbefore : ∃ origin members, before = .table origin members)
    (h : layerOver before environment = .ok layer) :
    ∃ origin members, layer = .table origin members := by
  induction environment generalizing before with
  | nil =>
    cases h
    exact hbefore
  | cons var rest ih =>
    rcases layerOver_cons h with ⟨-, hrest⟩ | ⟨way, setting, hpath, -, hrest⟩
    · exact ih hbefore hrest
    · obtain ⟨origin, members, rfl⟩ := hbefore
      cases way with
      | nil => exact absurd rfl (path?_ne_nil hpath)
      | cons name rest => exact ih ⟨_, _, laidOver_table ..⟩ hrest

/-- The layer of an environment is a table. -/
theorem exists_table_layer {environment : List (String × String)} {layer : Setting}
    (h : Environment.layer environment = .ok layer) :
    ∃ origin members, layer = .table origin members :=
  exists_table_layerOver ⟨_, _, rfl⟩ h

theorem lastSet?_cons (var : String × String) (rest : List (String × String)) (path : List String) :
    lastSet? (var :: rest) path = (lastSet? rest path).or (sets path var) := by
  simp [lastSet?, List.findSome?_append]

/-- Variable by variable, what a layer has at the end of a way is what the last variable sets there,
or else what the layer before has. -/
theorem scalar?_at?_layerOver {before layer : Setting} {environment : List (String × String)}
    {path : List String} (hbefore : before.Leads path)
    (hclears : ∀ var ∈ environment, Clears path var)
    (h : layerOver before environment = .ok layer) :
    layer.Leads path ∧
      (layer.at? path).map scalar? = ((lastSet? environment path).or
        (before.at? path)).map scalar? := by
  induction environment generalizing before with
  | nil =>
    cases h
    exact ⟨hbefore, rfl⟩
  | cons var rest ih =>
    have hrestClears : ∀ var ∈ rest, Clears path var :=
      fun other hother => hclears other (.tail _ hother)
    rcases layerOver_cons h with ⟨hpath, hrest⟩ | ⟨way, setting, hpath, hvalue, hrest⟩
    · have hnothing : sets path var = none := by
        simp [sets, hpath]
      obtain ⟨hleads, hat⟩ := ih hbefore hrestClears hrest
      rw [lastSet?_cons, hnothing, Option.or_none]
      exact ⟨hleads, hat⟩
    · have hsets : sets path var = (nest setting way).at? path := by
        simp [sets, hpath, hvalue]
      have hordered := Ordered.nest (ordered_value hvalue) way
      have hnest := hclears var (.head _) way setting hpath hvalue
      obtain ⟨hleads, hat⟩ := ih (hnest.laidOver hordered hbefore) hrestClears hrest
      refine ⟨hleads, hat.trans ?_⟩
      rw [lastSet?_cons, hsets, Option.or_assoc]
      cases lastSet? rest path with
      | some last => rfl
      | none =>
        rw [Option.none_or, Option.none_or, at?_laidOver hordered hnest hbefore,
          map_scalar?_layered]

/-- **The layer of an environment has, at the end of a way** on which its variables put only tables,
what the last variable sets there. -/
theorem scalar?_at?_layer {environment : List (String × String)} {layer : Setting}
    {path : List String} (hpath : path ≠ []) (hclears : ∀ var ∈ environment, Clears path var)
    (h : Environment.layer environment = .ok layer) :
    layer.Leads path ∧ (layer.at? path).map scalar? = (lastSet? environment path).map scalar? := by
  obtain ⟨name, rest, rfl⟩ := List.exists_cons_of_ne_nil hpath
  have hempty : (table .environment []).Leads (name :: rest) := fun below hbelow => by cases hbelow
  obtain ⟨hleads, hat⟩ := scalar?_at?_layerOver hempty hclears h
  rw [show (table .environment []).at? (name :: rest) = none from rfl, Option.or_none] at hat
  exact ⟨hleads, hat⟩

end PackageReadme.Environment
