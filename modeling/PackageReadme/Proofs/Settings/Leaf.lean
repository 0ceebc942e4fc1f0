import PackageReadme.Proofs.Settings.Layering
import PackageReadme.Settings.Extraction

/-! The leaves of settings: the fields that hold a text or a flag, and where layers have them.

Settings that are taken out of a layer have at each leaf what the layer has at the end of the way to
it (`scalar?_at?_of_take`). Every named member is put in its own place and leaves all others alone,
which is said once for records of any kind (`Fills`). -/
namespace PackageReadme
open Setting

/-! ### Leaves -/

inductive Badges.Field where
  | travisCi
  | codeCov
  | golangCi
  | goDoc
  | goReportCard
  deriving DecidableEq, Repr

def Badges.Field.name : Field → String
  | .travisCi => "travis_ci"
  | .codeCov => "code_cov"
  | .golangCi => "golang_ci"
  | .goDoc => "go_doc"
  | .goReportCard => "go_report_card"

def Badges.field (badges : Badges) : Field → Scalar
  | .travisCi => .bool badges.travisCi
  | .codeCov => .bool badges.codeCov
  | .golangCi => .bool badges.golangCi
  | .goDoc => .bool badges.goDoc
  | .goReportCard => .bool badges.goReportCard

/-- The fields of settings besides the badges. -/
inductive Settings.Field where
  | title
  | importPath
  | consts
  | vars
  | functions
  | types
  | factories
  | methods
  | skipExamples
  | skipSubPackages
  | noDiffBlocks
  | recursive
  | credit
  deriving DecidableEq, Repr

def Settings.Field.name : Field → String
  | .title => "title"
  | .importPath => "import_path"
  | .consts => "consts"
  | .vars => "vars"
  | .functions => "functions"
  | .types => "types"
  | .factories => "factories"
  | .methods => "methods"
  | .skipExamples => "skip_examples"
  | .skipSubPackages => "skip_sub_packages"
  | .noDiffBlocks => "no_diff_blocks"
  | .recursive => "recursive_sub_packages"
  | .credit => "credit"

def Settings.field (settings : Settings) : Field → Scalar
  | .title => .text settings.title
  | .importPath => .text settings.importPath
  | .consts => .bool settings.consts
  | .vars => .bool settings.vars
  | .functions => .bool settings.functions
  | .types => .bool settings.types
  | .factories => .bool settings.factories
  | .methods => .bool settings.methods
  | .skipExamples => .bool settings.skipExamples
  | .skipSubPackages => .bool settings.skipSubPackages
  | .noDiffBlocks => .bool settings.noDiffBlocks
  | .recursive => .bool settings.recursive
  | .credit => .bool settings.credit

inductive Settings.Leaf where
  | field (own : Settings.Field)
  | badge (own : Badges.Field)
  deriving DecidableEq, Repr

/-- The way to a leaf through a layer. -/
def Settings.Leaf.path : Leaf → List String
  | .field own => [own.name]
  | .badge own => ["badges", own.name]

theorem Settings.Leaf.path_ne_nil (leaf : Leaf) : leaf.path ≠ [] := by
  cases leaf <;> exact List.cons_ne_nil _ _

def Settings.leaf (settings : Settings) : Leaf → Scalar
  | .field own => settings.field own
  | .badge own => settings.badges.field own

/-! ### Filling records -/

section
variable {ρ γ : Type}

/-- Of all slots, only those of one name change what a view shows, and they make it show what they
were given. -/
structure Fills (slots : List (Slot ρ)) (view : ρ → γ) (name : String)
    (Gives : Setting → γ → Prop) : Prop where
  others : ∀ slot ∈ slots, slot.name ≠ name → ∀ setting put, slot.take setting = .ok put →
    ∀ record, view (put record) = view record
  own : ∀ slot ∈ slots, slot.name = name → ∀ setting put, slot.take setting = .ok put →
    ∀ record, Gives setting (view (put record))

/-- The first member goes into its slot, and the rest into what comes of that. -/
theorem fillByName_cons_iff {slots : List (Slot ρ)} {record result : ρ} {name : String}
    {setting : Setting} {members : List (String × Setting)} :
    fillByName slots record ((name, setting) :: members) = .ok result ↔
      ∃ slot put, slots.find? (·.name = name) = some slot ∧ slot.take setting = .ok put ∧
        fillByName slots (put record) members = .ok result := by
  rw [fillByName]
  constructor
  · intro h
    split at h
    · cases h
    · rename_i slot hfind
      split at h
      · cases h
      · rename_i put htake
        exact ⟨slot, put, hfind, htake, h⟩
  · rintro ⟨slot, put, hfind, htake, h⟩
    simp only [hfind, htake]
    exact h

theorem fillByName_cons {slots : List (Slot ρ)} {record result : ρ} {name : String}
    {setting : Setting} {members : List (String × Setting)}
    (h : fillByName slots record ((name, setting) :: members) = .ok result) :
    ∃ slot ∈ slots, slot.name = name ∧ ∃ put, slot.take setting = .ok put ∧
      fillByName slots (put record) members = .ok result := by
  obtain ⟨slot, put, hfind, htake, hrest⟩ := fillByName_cons_iff.1 h
  have hname : slot.name = name := by
    simpa using List.find?_some hfind
  exact ⟨slot, List.mem_of_find?_eq_some hfind, hname, put, htake, hrest⟩

variable {slots : List (Slot ρ)} {view : ρ → γ} {name : String} {Gives : Setting → γ → Prop}

theorem Fills.view_eq (hfills : Fills slots view name Gives) {record result : ρ}
    {members : List (String × Setting)} (hname : name ∉ members.map Prod.fst)
    (h : fillByName slots record members = .ok result) :
    view result = view record := by
  induction members generalizing record with
  | nil =>
    cases h
    rfl
  | cons member members ih =>
    obtain ⟨other, setting⟩ := member
    rw [List.map_cons, List.mem_cons, not_or] at hname
    obtain ⟨slot, hslot, hother, put, htake, hrest⟩ := fillByName_cons h
    have hne : slot.name ≠ name := fun heq => hname.1 (heq.symm.trans hother)
    rw [ih hname.2 hrest, hfills.others slot hslot hne setting put htake record]

/-- A record that members were put into shows what the member of a name gives. -/
theorem Fills.gives (hfills : Fills slots view name Gives) {record result : ρ}
    {members : Keyed Setting} {setting : Setting} (hnames : (members.map Prod.fst).Nodup)
    (hget : Keyed.get? name members = some setting)
    (h : fillByName slots record members = .ok result) : Gives setting (view result) := by
  induction members generalizing record with
  | nil => cases hget
  | cons member members ih =>
    obtain ⟨other, first⟩ := member
    rw [List.map_cons, List.nodup_cons] at hnames
    rw [Keyed.get?_cons] at hget
    obtain ⟨slot, hslot, hother, put, htake, hrest⟩ := fillByName_cons h
    split at hget
    · rename_i heq
      obtain rfl := Option.some.inj hget
      subst heq
      rw [hfills.view_eq hnames.1 hrest]
      exact hfills.own slot hslot hother first put htake record
    · exact ih hnames.2 hget hrest

theorem Slot.bool_take {put : Bool → ρ → ρ} {setting : Setting} {change : ρ → ρ}
    (h : (Slot.bool name put).take setting = .ok change) :
    ∃ b, setting.scalar? = some (.bool b) ∧ change = put b := by
  simp only [Slot.bool] at h
  unfold takeBool at h
  split at h
  · rename_i b
    cases h
    exact ⟨b, rfl, rfl⟩
  · cases h

theorem Slot.text_take {put : String → ρ → ρ} {setting : Setting} {change : ρ → ρ}
    (h : (Slot.text name put).take setting = .ok change) :
    ∃ s, setting.scalar? = some (.text s) ∧ change = put s := by
  simp only [Slot.text] at h
  unfold takeText at h
  split at h
  · rename_i s
    cases h
    exact ⟨s, rfl, rfl⟩
  · cases h

theorem Fills.nil : Fills [] view name Gives :=
  ⟨fun _ hslot => absurd hslot List.not_mem_nil, fun _ hslot => absurd hslot List.not_mem_nil⟩

theorem Fills.cons {slot : Slot ρ}
    (hslot : ∀ setting put, slot.take setting = .ok put → ∀ record,
      (slot.name = name → Gives setting (view (put record))) ∧
        (slot.name ≠ name → view (put record) = view record))
    (hrest : Fills slots view name Gives) : Fills (slot :: slots) view name Gives where
  others other hother hne setting put htake record := by
    rcases List.mem_cons.1 hother with rfl | hother
    · exact (hslot setting put htake record).2 hne
    · exact hrest.others other hother hne setting put htake record
  own other hother heq setting put htake record := by
    rcases List.mem_cons.1 hother with rfl | hother
    · exact (hslot setting put htake record).1 heq
    · exact hrest.own other hother heq setting put htake record

/-- A flag that changes nothing in view. -/
theorem Fills.boolApart {n : String} {put : Bool → ρ → ρ} (hne : n ≠ name)
    (hput : ∀ b record, view (put b record) = view record) (hrest : Fills slots view name Gives) :
    Fills (.bool n put :: slots) view name Gives := by
  refine .cons (fun setting change htake record => ⟨fun heq => absurd heq hne, fun _ => ?_⟩) hrest
  obtain ⟨b, -, rfl⟩ := Slot.bool_take htake
  exact hput b record

/-- A text that changes nothing in view. -/
theorem Fills.textApart {n : String} {put : String → ρ → ρ} (hne : n ≠ name)
    (hput : ∀ s record, view (put s record) = view record) (hrest : Fills slots view name Gives) :
    Fills (.text n put :: slots) view name Gives := by
  refine .cons (fun setting change htake record => ⟨fun heq => absurd heq hne, fun _ => ?_⟩) hrest
  obtain ⟨s, -, rfl⟩ := Slot.text_take htake
  exact hput s record

/-- What a setting without parts shows. -/
def Shows (setting : Setting) (value : Scalar) : Prop :=
  setting.scalar? = some value

/-- A flag that comes into view under its name. -/
theorem Fills.bool {n : String} {put : Bool → ρ → ρ} {view : ρ → Scalar}
    (hput : ∀ b record, view (put b record) = if n = name then .bool b else view record)
    (hrest : Fills slots view name Shows) : Fills (.bool n put :: slots) view name Shows := by
  refine .cons (fun setting change htake record => ?_) hrest
  obtain ⟨b, hshows, rfl⟩ := Slot.bool_take htake
  rw [hput b record]
  refine ⟨fun heq => ?_, fun hne => if_neg hne⟩
  rw [if_pos (show n = name from heq)]
  exact hshows

/-- A text that comes into view under its name. -/
theorem Fills.text {n : String} {put : String → ρ → ρ} {view : ρ → Scalar}
    (hput : ∀ s record, view (put s record) = if n = name then .text s else view record)
    (hrest : Fills slots view name Shows) : Fills (.text n put :: slots) view name Shows := by
  refine .cons (fun setting change htake record => ?_) hrest
  obtain ⟨s, hshows, rfl⟩ := Slot.text_take htake
  rw [hput s record]
  refine ⟨fun heq => ?_, fun hne => if_neg hne⟩
  rw [if_pos (show n = name from heq)]
  exact hshows

end

/-! ### Settings out of a layer -/

theorem Badges.fills (field : Badges.Field) :
    Fills Badges.slots (·.field field) field.name Shows := by
  cases field <;>
    exact .bool (fun _ _ => rfl) <| .bool (fun _ _ => rfl) <| .bool (fun _ _ => rfl) <|
      .bool (fun _ _ => rfl) <| .bool (fun _ _ => rfl) <| .nil

/-- The change that all badges make. -/
theorem Badges.exists_of_take {setting : Setting} {put : Settings → Settings}
    (h : ((Badges.take setting).map fun badges (settings : Settings) =>
      { settings with badges }) = .ok put) :
    ∃ badges, Badges.take setting = .ok badges ∧ put = fun settings =>
    { settings with badges } := by
  cases htake : Badges.take setting with
  | error fault =>
    rw [htake] at h
    cases h
  | ok badges =>
    rw [htake] at h
    cases h
    exact ⟨badges, rfl, rfl⟩

theorem Settings.fills (field : Settings.Field) :
    Fills Settings.slots (·.field field) field.name Shows := by
  have hbadges : "badges" ≠ field.name := by
    cases field <;> decide
  cases field <;>
    exact .text (fun _ _ => rfl) <| .text (fun _ _ => rfl) <| .bool (fun _ _ => rfl) <|
      .bool (fun _ _ => rfl) <| .bool (fun _ _ => rfl) <| .bool (fun _ _ => rfl) <|
      .bool (fun _ _ => rfl) <| .bool (fun _ _ => rfl) <| .bool (fun _ _ => rfl) <|
      .bool (fun _ _ => rfl) <| .bool (fun _ _ => rfl) <| .bool (fun _ _ => rfl) <|
      .cons (fun _ _ htake _ => ⟨fun heq => absurd heq hbadges, fun _ => by
        obtain ⟨badges, -, rfl⟩ := Badges.exists_of_take htake
        rfl⟩) <| .bool (fun _ _ => rfl) .nil

theorem Settings.fills_badges :
    Fills Settings.slots (·.badges) "badges" fun setting badges =>
      Badges.take setting = .ok badges := by
  have hbadges (setting : Setting) (put : Settings → Settings)
      (h : ((Badges.take setting).map fun badges (settings : Settings) =>
        { settings with badges }) = .ok put)
      (record : Settings) : Badges.take setting = .ok (put record).badges := by
    obtain ⟨badges, htake, rfl⟩ := Badges.exists_of_take h
    exact htake
  exact .textApart (by decide) (fun _ _ => rfl) <| .textApart (by decide) (fun _ _ => rfl) <|
    .boolApart (by decide) (fun _ _ => rfl) <| .boolApart (by decide) (fun _ _ => rfl) <|
    .boolApart (by decide) (fun _ _ => rfl) <| .boolApart (by decide) (fun _ _ => rfl) <|
    .boolApart (by decide) (fun _ _ => rfl) <| .boolApart (by decide) (fun _ _ => rfl) <|
    .boolApart (by decide) (fun _ _ => rfl) <| .boolApart (by decide) (fun _ _ => rfl) <|
    .boolApart (by decide) (fun _ _ => rfl) <| .boolApart (by decide) (fun _ _ => rfl) <|
    .cons (fun setting put h record =>
      ⟨fun _ => hbadges setting put h record, fun hne => absurd rfl hne⟩) <|
    .boolApart (by decide) (fun _ _ => rfl) .nil

/-- **Settings that are taken out of a layer** have at each leaf the value that the layer has there,
if it has anything there. -/
theorem scalar?_at?_of_take {layer : Setting} {settings : Settings} (hordered : layer.Ordered)
    (htake : Settings.take layer = .ok settings) (leaf : Settings.Leaf)
    (hleads : layer.Leads leaf.path) {setting : Setting}
    (hat : layer.at? leaf.path = some setting) :
    setting.scalar? = some (settings.leaf leaf) := by
  cases leaf with
  | field field =>
    simp only [Settings.Leaf.path] at hleads hat
    obtain ⟨origin, members, rfl⟩ := hleads.exists_table
    obtain ⟨found, hget, hfound⟩ := Option.bind_eq_some_iff.1 hat
    obtain rfl := Option.some.inj hfound
    exact (Settings.fills field).gives hordered.ascending.nodup_keys hget htake
  | badge field =>
    simp only [Settings.Leaf.path] at hleads hat
    obtain ⟨origin, members, rfl⟩ := hleads.exists_table
    obtain ⟨below, hget, hbelow⟩ := Option.bind_eq_some_iff.1 hat
    have hbadges := Settings.fills_badges.gives hordered.ascending.nodup_keys hget htake
    obtain ⟨other, badges, rfl⟩ := (hleads below hget).exists_table
    obtain ⟨found, hget', hfound⟩ := Option.bind_eq_some_iff.1 hbelow
    obtain rfl := Option.some.inj hfound
    have hbelowOrdered := hordered.of_mem (Keyed.mem_of_get? hget)
    exact (Badges.fills field).gives hbelowOrdered.ascending.nodup_keys hget' hbadges

end PackageReadme
