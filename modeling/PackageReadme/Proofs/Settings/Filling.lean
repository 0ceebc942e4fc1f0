import PackageReadme.Proofs.Settings.Leaf
import PackageReadme.Settings.Sources

/-! Records that are filled from tables, by what they show.

A record that members were put into shows what each member gives and keeps the rest (`Filled`), and
there is no other such record. So neither the order of the members matters nor whether the members
that are missing are made up for by the ones that are built in. Main statement:
`Settings.take_laidOver_builtIn`. -/
namespace PackageReadme
open Setting

/-! ### Views of a record -/

section
variable {ρ ι : Type} {γ : ι → Type} {slots : List (Slot ρ)} {name : ι → String}
  {view : (i : ι) → ρ → γ i}
  {Gives : (i : ι) → Setting → γ i → Prop}

/-- Views that show all of a record: each shows what the slot of its name was given, and every slot
is shown. -/
structure Views (slots : List (Slot ρ)) (name : ι → String) (view : (i : ι) → ρ → γ i)
    (Gives : (i : ι) → Setting → γ i → Prop) : Prop where
  fills : ∀ i, Fills slots (view i) (name i) (Gives i)
  covers : ∀ slot ∈ slots, ∃ i, slot.name = name i
  /-- What a record can show, its slot takes. -/
  takes : ∀ i setting record, Gives i setting (view i record) →
    ∃ slot put, slots.find? (·.name = name i) = some slot ∧ slot.take setting = .ok put
  unique : ∀ i setting a b, Gives i setting a → Gives i setting b → a = b
  ext : ∀ a b, (∀ i, view i a = view i b) → a = b

theorem name_of_find? {n : String} {slot : Slot ρ} (h : slots.find? (·.name = n) = some slot) :
    slot.name = n := by
  simpa using List.find?_some h

/-- A setting that is taken under a name gives what a record shows there. -/
theorem Views.exists_gives (hviews : Views slots name view Gives) (initial : ρ) {n : String}
    {setting : Setting} {slot : Slot ρ} {put : ρ → ρ} (hfind : slots.find? (·.name = n) = some slot)
    (htake : slot.take setting = .ok put) :
    ∃ i record, n = name i ∧ Gives i setting (view i record) := by
  have hslot := List.mem_of_find?_eq_some hfind
  obtain ⟨i, hi⟩ := hviews.covers slot hslot
  refine ⟨i, put initial, (name_of_find? hfind).symm.trans hi, ?_⟩
  exact (hviews.fills i).own slot hslot hi setting put htake initial

/-- A record that comes of another by members: where there is one of a name, the record shows what
it gives, and where there is none, what the other record shows. -/
structure Filled (name : ι → String) (view : (i : ι) → ρ → γ i)
    (Gives : (i : ι) → Setting → γ i → Prop) (record : ρ) (members : Keyed Setting) (result : ρ) :
    Prop where
  known : ∀ n setting, Keyed.get? n members = some setting → ∃ i, n = name i
  given : ∀ i setting, Keyed.get? (name i) members = some setting → Gives i setting (view i result)
  kept : ∀ i, Keyed.get? (name i) members = none → view i result = view i record

theorem Filled.congr {record result : ρ} {members others : Keyed Setting}
    (h : ∀ n, Keyed.get? n members = Keyed.get? n others)
    (hfilled : Filled name view Gives record members result) :
    Filled name view Gives record others result where
  known n setting hget := hfilled.known n setting ((h n).trans hget)
  given i setting hget := hfilled.given i setting ((h (name i)).trans hget)
  kept i hget := hfilled.kept i ((h (name i)).trans hget)

theorem Views.eq_of_filled (hviews : Views slots name view Gives) {record a b : ρ}
    {members : Keyed Setting} (ha : Filled name view Gives record members a)
    (hb : Filled name view Gives record members b) : a = b := by
  apply hviews.ext
  intro i
  cases hget : Keyed.get? (name i) members with
  | none => rw [ha.kept i hget, hb.kept i hget]
  | some setting =>
    exact hviews.unique i setting _ _ (ha.given i setting hget) (hb.given i setting hget)

/-- Members can be filled in if and only if each has a slot that takes it. -/
theorem exists_fillByName_iff {record : ρ} {members : List (String × Setting)} :
    (∃ result, fillByName slots record members = .ok result) ↔
      ∀ member ∈ members, ∃ slot put, slots.find? (·.name = member.1) = some slot ∧
      slot.take member.2 = .ok put := by
  induction members generalizing record with
  | nil => exact ⟨fun _ member hmem => absurd hmem List.not_mem_nil, fun _ => ⟨record, rfl⟩⟩
  | cons member members ih =>
    rw [List.forall_mem_cons]
    constructor
    · rintro ⟨result, h⟩
      obtain ⟨slot, put, hfind, htake, hrest⟩ := fillByName_cons_iff.1 h
      exact ⟨⟨slot, put, hfind, htake⟩, ih.1 ⟨result, hrest⟩⟩
    · rintro ⟨⟨slot, put, hfind, htake⟩, hrest⟩
      obtain ⟨result, hresult⟩ := ih.2 hrest
      exact ⟨result, fillByName_cons_iff.2 ⟨slot, put, hfind, htake, hresult⟩⟩

theorem Views.filled_of_fillByName (hviews : Views slots name view Gives) {record result : ρ}
    {members : Keyed Setting} (hnames : (members.map Prod.fst).Nodup)
    (h : fillByName slots record members = .ok result) :
    Filled name view Gives record members result where
  known n setting hget := by
    obtain ⟨slot, put, hfind, -⟩ := exists_fillByName_iff.1 ⟨result, h⟩ _ (Keyed.mem_of_get? hget)
    obtain ⟨i, hi⟩ := hviews.covers slot (List.mem_of_find?_eq_some hfind)
    exact ⟨i, (name_of_find? hfind).symm.trans hi⟩
  given i setting hget := (hviews.fills i).gives hnames hget h
  kept i hget := by
    refine (hviews.fills i).view_eq (fun hmem => ?_) h
    obtain ⟨⟨n, setting⟩, hmem, rfl⟩ := List.mem_map.1 hmem
    rw [Keyed.get?_eq_some hnames hmem] at hget
    cases hget

/-- **Filling in members** gives a record if and only if that record shows what the members give. -/
theorem Views.fillByName_iff (hviews : Views slots name view Gives) {record result : ρ}
    {members : Keyed Setting} (hnames : (members.map Prod.fst).Nodup) :
    fillByName slots record members = .ok result ↔
      Filled name view Gives record members result := by
  refine ⟨hviews.filled_of_fillByName hnames, fun hfilled => ?_⟩
  have htaken : ∀ member ∈ members,
      ∃ slot put, slots.find? (·.name = member.1) = some slot ∧ slot.take member.2 = .ok put := by
    intro member hmem
    have hget := Keyed.get?_eq_some hnames hmem
    obtain ⟨i, hi⟩ := hfilled.known _ _ hget
    rw [hi] at hget ⊢
    exact hviews.takes i member.2 result (hfilled.given i member.2 hget)
  -- Every member is taken, so some record comes of them, and it shows the same as the one that is
  -- given.
  obtain ⟨other, hother⟩ : ∃ other, fillByName slots record members = .ok other :=
    exists_fillByName_iff.2 htaken
  rwa [hviews.eq_of_filled hfilled (hviews.filled_of_fillByName hnames hother)]

/-- Filling in members depends only on what is found under each name. -/
theorem Views.fillByName_congr (hviews : Views slots name view Gives) {record result : ρ}
    {members others : Keyed Setting} (hmembers : (members.map Prod.fst).Nodup)
    (hothers : (others.map Prod.fst).Nodup) (h : ∀ n, Keyed.get? n members = Keyed.get? n others) :
    fillByName slots record members = .ok result ↔ fillByName slots record others = .ok result := by
  rw [hviews.fillByName_iff hmembers, hviews.fillByName_iff hothers]
  exact ⟨.congr h, .congr fun n => (h n).symm⟩

/-! ### What is built in -/

/-- A layer whose members give what a record shows already, and still do below any other layer. -/
structure Defaults (name : ι → String) (view : (i : ι) → ρ → γ i)
    (Gives : (i : ι) → Setting → γ i → Prop) (record : ρ) (below : Keyed Setting) : Prop where
  known : ∀ n setting, Keyed.get? n below = some setting → ∃ i, n = name i
  given : ∀ i, ∃ setting, Keyed.get? (name i) below = some setting ∧
    Gives i setting (view i record) ∧
    ∀ upper value, upper.Ordered → (Gives i (upper.laidOver setting) value ↔ Gives i upper value)

theorem Views.filled_membersOver (hviews : Views slots name view Gives) {record result : ρ}
    {origin : Origin} {members below : Keyed Setting} (hmembers : (table origin members).Ordered)
    (hdefaults : Defaults name view Gives record below) :
    Filled name view Gives record (membersOver members below) result ↔
      Filled name view Gives record members result := by
  have hget (n : String) := get?_membersOver n hmembers.ascending.nodup_keys below
  have hordered {n : String} {upper : Setting} (h : Keyed.get? n members = some upper) :
      upper.Ordered :=
    hmembers.of_mem (Keyed.mem_of_get? h)
  constructor
  · intro hfilled
    refine ⟨fun n setting h => ?_, fun i upper h => ?_, fun i h => ?_⟩
    · cases hbelow : Keyed.get? n below with
      | none => exact hfilled.known n setting (by rw [hget, h, hbelow]; rfl)
      | some lower => exact hdefaults.known n lower hbelow
    · obtain ⟨setting, hbelow, -, hover⟩ := hdefaults.given i
      exact (hover upper _ (hordered h)).1 (hfilled.given i _ (by rw [hget, h, hbelow]; rfl))
    · obtain ⟨setting, hbelow, hgives, -⟩ := hdefaults.given i
      exact hviews.unique i setting _ _ (hfilled.given i setting
        (by rw [hget, h, hbelow]; rfl)) hgives
  · intro hfilled
    refine ⟨fun n setting h => ?_, fun i setting h => ?_, fun i h => ?_⟩
    · cases hupper : Keyed.get? n members with
      | some upper => exact hfilled.known n upper hupper
      | none =>
        rw [hget, hupper] at h
        exact hdefaults.known n setting h
    · obtain ⟨lower, hbelow, hgives, hover⟩ := hdefaults.given i
      cases hupper : Keyed.get? (name i) members with
      | some upper =>
        rw [hget, hupper, hbelow] at h
        obtain rfl := Option.some.inj h
        exact (hover upper _ (hordered hupper)).2 (hfilled.given i upper hupper)
      | none =>
        rw [hget, hupper, hbelow] at h
        obtain rfl := Option.some.inj h
        rw [hfilled.kept i hupper]
        exact hgives
    · obtain ⟨lower, hbelow, -⟩ := hdefaults.given i
      rw [hget, hbelow] at h
      cases hupper : Keyed.get? (name i) members <;> rw [hupper] at h <;> cases h

/-- What is below a layer adds nothing to the record that is taken out of it, if it gives what the
record has already. -/
theorem Views.takeRecord_laidOver (hviews : Views slots name view Gives) {title : String}
    {record result : ρ} {origin : Origin} {below : Keyed Setting}
    (hbelow : (table origin below).Ordered) (hdefaults : Defaults name view Gives record below)
    {layer : Setting} (hlayer : layer.Ordered) :
    takeRecord title slots record (layer.laidOver (.table origin below)) = .ok result ↔
      takeRecord title slots record layer = .ok result := by
  cases layer with
  | scalar other value => rw [laidOver_scalar]
  | list other items => rw [laidOver_list]
  | table other members =>
    have hover := hlayer.laidOver hbelow
    rw [laidOver_table] at hover ⊢
    show fillByName slots record (membersOver members below) = .ok result ↔
      fillByName slots record members = .ok result
    rw [hviews.fillByName_iff hover.ascending.nodup_keys,
      hviews.fillByName_iff hlayer.ascending.nodup_keys, hviews.filled_membersOver hlayer hdefaults]

/-- Members of the names of all slots are defaults, if each gives what the record shows. -/
theorem Views.defaults (hviews : Views slots name view Gives) {record : ρ} {origin : Origin}
    {members : List (String × Json)} (hslots : members.map Prod.fst = slots.map (·.name))
    (hnames : (members.map Prod.fst).Nodup)
    (h : ∀ i, ∃ json, Keyed.get? (name i) members = some json ∧
      Gives i (ofJson origin json) (view i record) ∧
      ∀ upper value, upper.Ordered →
    (Gives i (upper.laidOver (ofJson origin json)) value ↔ Gives i upper value)) :
    Defaults name view Gives record
      (Keyed.ofEntries (members.map fun member => (member.1, ofJson origin member.2))) where
  known n setting hget := by
    rw [get?_ofEntries_ofJson origin hnames] at hget
    obtain ⟨json, hjson, -⟩ := Option.map_eq_some_iff.1 hget
    have hmem : n ∈ slots.map (·.name) := hslots ▸ List.mem_map_of_mem (Keyed.mem_of_get? hjson)
    obtain ⟨slot, hslot, rfl⟩ := List.mem_map.1 hmem
    exact hviews.covers slot hslot
  given i := by
    obtain ⟨json, hget, hgives, hover⟩ := h i
    refine ⟨ofJson origin json, ?_, hgives, hover⟩
    rw [get?_ofEntries_ofJson origin hnames, hget]
    rfl

end

/-! ### Badges -/

theorem shows_laidOver (upper setting : Setting) (value : Scalar) :
    Shows (upper.laidOver setting) value ↔ Shows upper value := by
  rw [Shows, Shows, scalar?_laidOver]

theorem Shows.unique {setting : Setting} {a b : Scalar} (ha : Shows setting a)
    (hb : Shows setting b) : a = b :=
  Option.some.inj (ha.symm.trans hb)

theorem Shows.exists_scalar {setting : Setting} {value : Scalar} (h : Shows setting value) :
    ∃ origin, setting = .scalar origin value := by
  cases setting with
  | scalar origin shown =>
    obtain rfl := Option.some.inj h
    exact ⟨origin, rfl⟩
  | list origin items => cases h
  | table origin members => cases h

theorem Badges.views :
    Views Badges.slots Badges.Field.name (fun field badges => badges.field field)
      fun _ => Shows where
  fills := Badges.fills
  covers := by
    simp only [Badges.slots, List.forall_mem_cons]
    exact ⟨⟨.travisCi, rfl⟩, ⟨.codeCov, rfl⟩, ⟨.golangCi, rfl⟩, ⟨.goDoc, rfl⟩,
      ⟨.goReportCard, rfl⟩, by simp⟩
  takes field setting badges h := by
    obtain ⟨origin, rfl⟩ := h.exists_scalar
    cases field <;> exact ⟨_, _, rfl, rfl⟩
  unique _ _ _ _ := Shows.unique
  ext a b h := by
    have htravisCi := Scalar.bool.inj (h .travisCi)
    have hcodeCov := Scalar.bool.inj (h .codeCov)
    have hgolangCi := Scalar.bool.inj (h .golangCi)
    have hgoDoc := Scalar.bool.inj (h .goDoc)
    have hgoReportCard := Scalar.bool.inj (h .goReportCard)
    cases a
    cases b
    simp_all

/-- The badges that are built in, as a layer. -/
def Badges.builtIn : Setting :=
  .ofJson .builtIn (toJson {})

/-- What is built in adds nothing to badges. -/
theorem Badges.take_laidOver_builtIn {layer : Setting} {badges : Badges} (hlayer : layer.Ordered) :
    Badges.take (layer.laidOver Badges.builtIn) = .ok badges ↔ Badges.take layer = .ok badges := by
  have hordered : Badges.builtIn.Ordered := ordered_ofJson _ _
  unfold Badges.builtIn Badges.toJson at hordered ⊢
  rw [ofJson_object .builtIn (by decide)] at hordered ⊢
  refine Badges.views.takeRecord_laidOver hordered
    (Badges.views.defaults rfl (by decide) fun field => ?_) hlayer
  refine ⟨.bool false, ?_, ?_, fun upper value _ => shows_laidOver upper _ value⟩
  · cases field <;> rfl
  · cases field <;> simp [Shows, ofJson, scalar?, Badges.field]

/-! ### Settings -/

/-- The parts of settings: their own fields, and the badges. -/
inductive Settings.Part where
  | field (own : Settings.Field)
  | badges

def Settings.Part.name : Part → String
  | .field own => own.name
  | .badges => "badges"

def Settings.Part.Value : Part → Type
  | .field _ => Scalar
  | .badges => Badges

def Settings.part (settings : Settings) : (part : Part) → part.Value
  | .field own => settings.field own
  | .badges => settings.badges

/-- A setting gives the value of a part. -/
def Settings.Part.Gives : (part : Part) → Setting → part.Value → Prop
  | .field _, setting, value => Shows setting value
  | .badges, setting, value => Badges.take setting = .ok value

theorem Settings.views :
    Views Settings.slots Settings.Part.name (fun part settings => settings.part part)
      Settings.Part.Gives where
  fills
    | .field own => Settings.fills own
    | .badges => Settings.fills_badges
  covers := by
    simp only [Settings.slots, List.forall_mem_cons]
    exact ⟨⟨.field .title, rfl⟩, ⟨.field .importPath, rfl⟩, ⟨.field .consts, rfl⟩,
      ⟨.field .vars, rfl⟩, ⟨.field .functions, rfl⟩, ⟨.field .types, rfl⟩, ⟨.field .factories, rfl⟩,
      ⟨.field .methods, rfl⟩, ⟨.field .skipExamples, rfl⟩, ⟨.field .skipSubPackages, rfl⟩,
      ⟨.field .noDiffBlocks, rfl⟩, ⟨.field .recursive, rfl⟩, ⟨.badges, rfl⟩,
      ⟨.field .credit, rfl⟩, by simp⟩
  takes part setting settings h := by
    cases part with
    | field own =>
      obtain ⟨origin, rfl⟩ := Shows.exists_scalar h
      cases own <;> exact ⟨_, _, rfl, rfl⟩
    | badges =>
      refine ⟨_, fun record => { record with badges := settings.badges }, rfl, ?_⟩
      have htake : Badges.take setting = .ok settings.badges := h
      simp only [htake, Except.map]
  unique part setting a b ha hb := by
    cases part with
    | field own => exact Shows.unique ha hb
    | badges => exact Except.ok.inj (ha.symm.trans hb)
  ext a b h := by
    have hfield (own : Settings.Field) : a.field own = b.field own := h (.field own)
    have hbadges : a.badges = b.badges := h .badges
    have htitle := Scalar.text.inj (hfield .title)
    have himportPath := Scalar.text.inj (hfield .importPath)
    have hconsts := Scalar.bool.inj (hfield .consts)
    have hvars := Scalar.bool.inj (hfield .vars)
    have hfunctions := Scalar.bool.inj (hfield .functions)
    have htypes := Scalar.bool.inj (hfield .types)
    have hfactories := Scalar.bool.inj (hfield .factories)
    have hmethods := Scalar.bool.inj (hfield .methods)
    have hskipExamples := Scalar.bool.inj (hfield .skipExamples)
    have hskipSubPackages := Scalar.bool.inj (hfield .skipSubPackages)
    have hnoDiffBlocks := Scalar.bool.inj (hfield .noDiffBlocks)
    have hrecursive := Scalar.bool.inj (hfield .recursive)
    have hcredit := Scalar.bool.inj (hfield .credit)
    cases a
    cases b
    simp_all

/-- **What is built in adds nothing** to the settings that are taken out of a layer: settings that
are not there are what is built in anyway. -/
theorem Settings.take_laidOver_builtIn {layer : Setting} {settings : Settings}
    (hlayer : layer.Ordered) :
    Settings.take (layer.laidOver Settings.builtIn) = .ok settings ↔
      Settings.take layer = .ok settings := by
  have hordered : Settings.builtIn.Ordered := ordered_ofJson _ _
  unfold Settings.builtIn Settings.toJson at hordered ⊢
  rw [ofJson_object .builtIn (by decide)] at hordered ⊢
  refine Settings.views.takeRecord_laidOver hordered
    (Settings.views.defaults rfl (by decide) fun part => ?_) hlayer
  cases part with
  | field own =>
    cases own <;>
      exact ⟨_, rfl,
        by simp [Settings.Part.Gives, Shows, ofJson, scalar?, Settings.part, Settings.field],
        fun upper value _ => shows_laidOver upper _ value⟩
  | badges =>
    refine ⟨Badges.toJson {}, rfl, ?_,
      fun upper value hupper => Badges.take_laidOver_builtIn hupper⟩
    rfl

end PackageReadme
