import PackageReadme.Proofs.Keyed
import PackageReadme.Settings.Layer

/-! What lies at the end of a way through layers of settings.

Where a layer is laid over another, each way that meets only tables in both leads to what the upper
one has there, laid over what the lower one has there (`at?_laidOver`). This needs that no table has
two members of one name, which every layer that is read or merged keeps to (`Ordered`). -/
namespace PackageReadme.Setting

/-! ### Ways -/

/-- What lies at the end of a way through tables. -/
def at? : List String → Setting → Option Setting
  | [], setting => some setting
  | name :: rest, .table _ members => (Keyed.get? name members).bind (at? rest)
  | _ :: _, _ => none

/-- A way meets only tables as long as it meets anything, before its end. -/
def Leads : List String → Setting → Prop
  | [], _ => True
  | name :: rest, .table _ members =>
    ∀ below, Keyed.get? name members = some below → Leads rest below
  | _ :: _, _ => False

theorem Leads.exists_table {name : String} {rest : List String} {setting : Setting}
    (h : Leads (name :: rest) setting) : ∃ origin members, setting = .table origin members := by
  cases setting with
  | scalar origin value => exact absurd h id
  | list origin items => exact absurd h id
  | table origin members => exact ⟨origin, members, rfl⟩

/-- Of two settings that may be there, the one laid over the other. -/
def layered : Option Setting → Option Setting → Option Setting
  | some new, some old => some (new.laidOver old)
  | some new, none => some new
  | none, old => old

theorem layered_none (setting : Option Setting) : layered setting none = setting := by
  cases setting <;> rfl

theorem laidOver_scalar (origin : Origin) (value : Scalar) (old : Setting) :
    (scalar origin value).laidOver old = .scalar origin value := by
  simp [laidOver]

theorem laidOver_list (origin : Origin) (items : List Setting) (old : Setting) :
    (list origin items).laidOver old = .list origin items := by
  simp [laidOver]

theorem laidOver_table (origin other : Origin) (members below : Keyed Setting) :
    (table origin members).laidOver (.table other below) =
      .table origin (membersOver members below) := by
  simp [laidOver]

/-- The value of a setting that has no parts. -/
def scalar? : Setting → Option Scalar
  | .scalar _ value => some value
  | _ => none

theorem scalar?_laidOver (new old : Setting) : (new.laidOver old).scalar? = new.scalar? := by
  cases new with
  | scalar origin value => rw [laidOver_scalar]
  | list origin items => rw [laidOver_list]
  | table origin members =>
    cases old <;> simp [laidOver, scalar?]

/-- What is laid over something keeps its value, if it has no parts. -/
theorem map_scalar?_layered (new old : Option Setting) :
    (layered new old).map scalar? = (new.or old).map scalar? := by
  cases new with
  | none => rfl
  | some new =>
    cases old with
    | none => rfl
    | some old => simp [layered, scalar?_laidOver]

/-! ### Order -/

/-- The names in each table stand in ascending order. -/
inductive Ordered : Setting → Prop
  | scalar (origin : Origin) (value : Scalar) : Ordered (.scalar origin value)
  | list (origin : Origin) (items : List Setting) : Ordered (.list origin items)
  | table (origin : Origin) {members : Keyed Setting} : Keyed.Ascending members →
    (∀ member ∈ members, Ordered member.2) → Ordered (.table origin members)

theorem Ordered.ascending {origin : Origin} {members : Keyed Setting}
    (h : Ordered (.table origin members)) :
    Keyed.Ascending members := by
  cases h with
  | table _ hnames _ => exact hnames

theorem Ordered.of_mem {origin : Origin} {members : Keyed Setting}
    (h : Ordered (.table origin members)) {member : String × Setting} (hmem : member ∈ members) :
    Ordered member.2 := by
  cases h with
  | table _ _ hmembers => exact hmembers member hmem

theorem ordered_empty (origin : Origin) : Ordered (.table origin []) :=
  .table origin List.Pairwise.nil (by simp)

/-- A member that is set keeps a table in order. -/
theorem Ordered.insert {origin : Origin} {members : Keyed Setting}
    (h : Ordered (.table origin members)) (name : String) {value : Setting}
    (hvalue : Ordered value) :
    Ordered (.table origin (Keyed.insert name value members)) := by
  refine .table origin (h.ascending.insert name value) fun member hmem => ?_
  rcases Keyed.mem_insert hmem with rfl | hmem
  · exact hvalue
  · exact h.of_mem hmem

theorem ordered_membersOver {origin : Origin} {new old : Keyed Setting}
    (hnew : ∀ member ∈ new, Ordered member.2 ∧ ∀ below, Ordered below →
      Ordered (member.2.laidOver below))
    (hold : Ordered (.table origin old)) : Ordered (.table origin (membersOver new old)) := by
  induction new generalizing old with
  | nil =>
    rw [membersOver]
    exact hold
  | cons member new ih =>
    obtain ⟨name, value⟩ := member
    obtain ⟨hvalue, hover⟩ := hnew (name, value) (.head _)
    rw [membersOver]
    refine ih (fun other hother => hnew other (.tail _ hother)) (hold.insert name ?_)
    cases hbelow : Keyed.get? name old with
    | none => exact hvalue
    | some below => exact hover below (hold.of_mem (Keyed.mem_of_get? hbelow))

theorem Ordered.laidOver {new old : Setting} (hnew : Ordered new) (hold : Ordered old) :
    Ordered (new.laidOver old) := by
  induction hnew generalizing old with
  | scalar origin value =>
    rw [laidOver_scalar]
    exact .scalar origin value
  | list origin items =>
    rw [laidOver_list]
    exact .list origin items
  | @table origin members hnames hmembers ih =>
    cases hold with
    | scalar other value =>
      simp only [Setting.laidOver]
      exact .table origin hnames hmembers
    | list other items =>
      simp only [Setting.laidOver]
      exact .table origin hnames hmembers
    | @table other below hbelow hold =>
      rw [laidOver_table]
      exact ordered_membersOver (fun member hmem => ⟨hmembers member hmem, fun _ => ih member hmem⟩)
        (.table origin hbelow hold)

/-! ### Layers laid over one another -/

theorem get?_membersOver (name : String) {new : Keyed Setting} (hnames : (new.map Prod.fst).Nodup)
    (old : Keyed Setting) :
    Keyed.get? name (membersOver new old) =
      layered (Keyed.get? name new) (Keyed.get? name old) := by
  induction new generalizing old with
  | nil =>
    rw [membersOver]
    rfl
  | cons member new ih =>
    obtain ⟨n, value⟩ := member
    rw [List.map_cons, List.nodup_cons] at hnames
    rw [membersOver, ih hnames.2, Keyed.get?_insert, Keyed.get?_cons]
    by_cases h : name = n
    · subst h
      rw [Keyed.get?_eq_none name hnames.1, if_pos rfl, if_pos rfl]
      cases Keyed.get? name old <;> rfl
    · rw [if_neg h, if_neg h]

/-- **A layer over another** has, at the end of each way that meets only tables in both, what it has
there itself, laid over what the other has there. -/
theorem at?_laidOver {path : List String} {new old : Setting} (hordered : Ordered new)
    (hnew : new.Leads path) (hold : old.Leads path) :
    (new.laidOver old).at? path = layered (new.at? path) (old.at? path) := by
  induction path generalizing new old with
  | nil => rfl
  | cons name rest ih =>
    obtain ⟨origin, members, rfl⟩ := hnew.exists_table
    obtain ⟨other, below, rfl⟩ := hold.exists_table
    rw [laidOver_table, at?, at?, at?, get?_membersOver name hordered.ascending.nodup_keys]
    cases hget : Keyed.get? name members with
    | none => rfl
    | some value =>
      cases hget' : Keyed.get? name below with
      | none => exact (layered_none (at? rest value)).symm
      | some value' =>
        exact ih (hordered.of_mem (Keyed.mem_of_get? hget)) (hnew value hget) (hold value' hget')

theorem Leads.laidOver {path : List String} {new old : Setting} (hordered : Ordered new)
    (hnew : new.Leads path) (hold : old.Leads path) : (new.laidOver old).Leads path := by
  induction path generalizing new old with
  | nil => trivial
  | cons name rest ih =>
    obtain ⟨origin, members, rfl⟩ := hnew.exists_table
    obtain ⟨other, below, rfl⟩ := hold.exists_table
    rw [laidOver_table]
    intro value hvalue
    rw [get?_membersOver name hordered.ascending.nodup_keys] at hvalue
    cases hget : Keyed.get? name members with
    | none =>
      rw [hget] at hvalue
      exact hold value hvalue
    | some upper =>
      cases hget' : Keyed.get? name below with
      | none =>
        rw [hget, hget'] at hvalue
        obtain rfl := Option.some.inj hvalue
        exact hnew upper hget
      | some lower =>
        rw [hget, hget'] at hvalue
        obtain rfl := Option.some.inj hvalue
        exact ih (hordered.of_mem (Keyed.mem_of_get? hget)) (hnew upper hget) (hold lower hget')

/-! ### Settings from JSON are in order -/

theorem membersWithOrigin_eq (origin : Origin) (members : List (String × Setting)) :
    membersWithOrigin origin members = members.map fun member =>
      (member.1, member.2.withOrigin origin) := by
  induction members with
  | nil => rw [membersWithOrigin, List.map_nil]
  | cons member members ih => rw [membersWithOrigin, List.map_cons, ih]

theorem Ordered.withOrigin {setting : Setting} (h : Ordered setting) (origin : Origin) :
    Ordered (setting.withOrigin origin) := by
  induction h with
  | scalar _ value =>
    rw [Setting.withOrigin]
    exact .scalar origin value
  | list _ items =>
    rw [Setting.withOrigin]
    exact .list origin _
  | table _ hnames _ ih =>
    rw [Setting.withOrigin, membersWithOrigin_eq]
    refine .table origin (List.pairwise_map.2 hnames) fun member hmem => ?_
    obtain ⟨old, hold, rfl⟩ := List.mem_map.1 hmem
    exact ih old hold

/-- What is known of an object is in order. -/
structure Parts.Ordered (parts : Parts) : Prop where
  members : ∀ origin, (table origin parts.members).Ordered
  value : ∀ value ∈ parts.value, value.Ordered

theorem Parts.ordered_empty : Parts.Ordered {} :=
  ⟨Setting.ordered_empty, by simp⟩

theorem Parts.Ordered.setting {parts : Parts} (h : parts.Ordered) (origin : Origin) :
    (parts.setting origin).Ordered := by
  obtain ⟨members, value, number⟩ := parts
  obtain ⟨hmembers, hvalue⟩ := h
  cases value with
  | none => exact hmembers origin
  | some value =>
    have hordered : value.Ordered := hvalue value rfl
    match number with
    | none => exact hordered
    | some 0 => exact hordered.withOrigin origin
    | some (_ + 1) => exact hordered.withOrigin .elsewhere

mutual

theorem ordered_ofJson (origin : Origin) : (json : Json) → Ordered (ofJson origin json)
  | .null => by
    rw [ofJson]
    exact .scalar ..
  | .bool _ => by
    rw [ofJson]
    exact .scalar ..
  | .number _ => by
    rw [ofJson]
    exact .scalar ..
  | .string _ => by
    rw [ofJson]
    exact .scalar ..
  | .array _ => by
    rw [ofJson]
    exact .list ..
  | .object members => by
    rw [ofJson]
    exact (ordered_ofMembers origin members Parts.ordered_empty).setting origin

theorem ordered_ofMembers (origin : Origin) :
    (members : List (String × Json)) → {before : Parts} → before.Ordered →
      (ofMembers origin before members).Ordered
  | [], before, hbefore => by
    rw [ofMembers]
    exact hbefore
  | (name, json) :: rest, before, hbefore => by
    have hjson := ordered_ofJson origin json
    rw [ofMembers]
    apply ordered_ofMembers origin rest
    obtain ⟨hmembers, hvalue⟩ := hbefore
    split
    · exact ⟨hmembers, fun value hmem => Option.some.inj hmem ▸ hjson⟩
    · split
      · exact ⟨hmembers, hvalue⟩
      · exact ⟨fun origin => (hmembers origin).insert name hjson, hvalue⟩

end

/-- A name of a member that stands for itself, and not for the object it is in. -/
def IsPlain (name : String) : Prop :=
  name ≠ valueMember ∧ name ≠ originMember

instance (name : String) : Decidable (IsPlain name) :=
  inferInstanceAs (Decidable (_ ∧ _))

theorem ofMembers_eq (origin : Origin) {members : List (String × Json)}
    (h : ∀ member ∈ members, IsPlain member.1) (before : Parts) :
    ofMembers origin before members =
      { before with
        members := (members.map fun member => (member.1, ofJson origin member.2)).foldl
          (fun sorted (name, value) => Keyed.insert name value sorted) before.members } := by
  induction members generalizing before with
  | nil =>
    rw [ofMembers]
    rfl
  | cons member members ih =>
    obtain ⟨name, json⟩ := member
    obtain ⟨hvalue, horigin⟩ := h (name, json) (.head _)
    rw [ofMembers, if_neg hvalue, if_neg horigin, ih fun other hother => h other (.tail _ hother)]
    rfl

/-- An object without names of another use becomes a table of its members. -/
theorem ofJson_object (origin : Origin) {members : List (String × Json)}
    (h : ∀ member ∈ members, IsPlain member.1) :
    ofJson origin (.object members) =
      .table origin (Keyed.ofEntries (members.map fun member =>
        (member.1, ofJson origin member.2))) := by
  rw [ofJson, ofMembers_eq origin h]
  rfl

theorem get?_ofEntries_ofJson (origin : Origin) {members : List (String × Json)}
    (hnames : (members.map Prod.fst).Nodup) (name : String) :
    Keyed.get? name (Keyed.ofEntries (members.map fun member =>
      (member.1, ofJson origin member.2))) =
      (Keyed.get? name members).map (ofJson origin) := by
  have hkeys : ((members.map fun member => (member.1, ofJson origin member.2)).map
      Prod.fst).Nodup := by
    rw [List.map_map]
    exact hnames
  rw [Keyed.get?_ofEntries name hkeys, Keyed.get?_map fun _ => ofJson origin]

theorem at?_ofJson_object (origin : Origin) {members : List (String × Json)}
    (h : ∀ member ∈ members, IsPlain member.1) (hnames : (members.map Prod.fst).Nodup)
    (name : String) (rest : List String) :
    (ofJson origin (.object members)).at? (name :: rest) =
      (Keyed.get? name members).bind fun json => (ofJson origin json).at? rest := by
  rw [ofJson_object origin h, at?, get?_ofEntries_ofJson origin hnames]
  cases Keyed.get? name members <;> rfl

theorem leads_ofJson_object (origin : Origin) {members : List (String × Json)}
    (h : ∀ member ∈ members, IsPlain member.1) (hnames : (members.map Prod.fst).Nodup)
    (name : String) {rest : List String}
    (hrest : ∀ json, Keyed.get? name members = some json → (ofJson origin json).Leads rest) :
    (ofJson origin (.object members)).Leads (name :: rest) := by
  rw [ofJson_object origin h]
  intro below hbelow
  rw [get?_ofEntries_ofJson origin hnames] at hbelow
  obtain ⟨json, hjson, rfl⟩ := Option.map_eq_some_iff.1 hbelow
  exact hrest json hjson

end PackageReadme.Setting
