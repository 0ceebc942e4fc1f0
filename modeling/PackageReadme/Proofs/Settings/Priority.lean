import PackageReadme.Command.Run
import PackageReadme.Proofs.Results
import PackageReadme.Proofs.Settings.Leaf
import PackageReadme.Proofs.Settings.Variables

/-! The priority of the sources of settings, leaf by leaf.

Settings have at each leaf what the arguments give, or else what the environment sets there, or else
what the file sets, or else what is built in (`Prevails`). Layers are merged, so a table of badges
in one layer does not hide the badges of the layers below. Main statement: `leaf_prevails`. -/
namespace PackageReadme
open Setting

/-! ### What is built in -/

theorem Settings.at?_builtIn (leaf : Settings.Leaf) :
    Settings.builtIn.at? leaf.path = some (.scalar .builtIn (({} : Settings).leaf leaf)) := by
  unfold Settings.builtIn Settings.toJson
  cases leaf with
  | field own =>
    rw [Settings.Leaf.path, at?_ofJson_object .builtIn (by decide) (by decide)]
    cases own <;> rfl
  | badge own =>
    rw [Settings.Leaf.path, at?_ofJson_object .builtIn (by decide) (by decide)]
    show (ofJson .builtIn (Badges.toJson {})).at? [own.name] = _
    unfold Badges.toJson
    rw [at?_ofJson_object .builtIn (by decide) (by decide)]
    cases own <;> rfl

theorem Settings.leads_builtIn (leaf : Settings.Leaf) : Settings.builtIn.Leads leaf.path := by
  unfold Settings.builtIn Settings.toJson
  cases leaf with
  | field own => exact leads_ofJson_object .builtIn (by decide) (by decide) _ fun _ _ => trivial
  | badge own =>
    refine leads_ofJson_object .builtIn (by decide) (by decide) _ fun json hjson => ?_
    obtain rfl : Badges.toJson {} = json := Option.some.inj hjson
    exact leads_ofJson_object .builtIn (by decide) (by decide) _ fun _ _ => trivial

/-! ### Arguments -/

namespace Invocation

/-- The value that a switch gives. -/
def flag? (invocation : Invocation) (switch : Switch) : Option Scalar :=
  if invocation.isOn switch then some (.bool true) else none

def field? (invocation : Invocation) : Settings.Field → Option Scalar
  | .title => invocation.title.map .text
  | .importPath => invocation.shownPath.map .text
  | .consts => invocation.flag? .consts
  | .vars => invocation.flag? .vars
  | .functions => invocation.flag? .functions
  | .types => invocation.flag? .types
  | .factories => invocation.flag? .factories
  | .methods => invocation.flag? .methods
  | .skipExamples => invocation.flag? .skipExamples
  | .skipSubPackages => invocation.flag? .skipSubPackages
  | .noDiffBlocks => invocation.flag? .noDiffBlocks
  | .recursive => invocation.flag? .recursive
  | .credit => invocation.flag? .credit

def badge? (invocation : Invocation) : Badges.Field → Option Scalar
  | .travisCi => invocation.flag? .badgeTravisCi
  | .codeCov => invocation.flag? .badgeCodeCov
  | .golangCi => invocation.flag? .badgeGolangCi
  | .goDoc => invocation.flag? .badgeGoDoc
  | .goReportCard => invocation.flag? .badgeGoReportCard

/-- The value that the arguments give for a leaf, if they give one. -/
def leaf? (invocation : Invocation) : Settings.Leaf → Option Scalar
  | .field own => invocation.field? own
  | .badge own => invocation.badge? own

/-- The value of a switch, among members. -/
theorem get?_switched (invocation : Invocation) {names : List (String × Switch)}
    (hnames : (names.map Prod.fst).Nodup) (name : String) :
    Keyed.get? name (invocation.switched names) =
      (Keyed.get? name names).bind fun switch =>
        if invocation.isOn switch then some (.bool true) else none := by
  induction names with
  | nil => rfl
  | cons entry names ih =>
    obtain ⟨n, switch⟩ := entry
    rw [List.map_cons, List.nodup_cons] at hnames
    have hrest := ih hnames.2
    rw [switched] at hrest ⊢
    by_cases hon : invocation.isOn switch = true
    · simp only [List.filterMap_cons, hon, if_true, Keyed.get?_cons, hrest]
      by_cases heq : name = n
      · simp [heq, hon]
      · simp [heq]
    · simp only [List.filterMap_cons, hon, Bool.false_eq_true, if_false, Keyed.get?_cons, hrest]
      by_cases heq : name = n
      · subst heq
        simp [hon, Keyed.get?_eq_none name hnames.1]
      · simp [heq]

theorem get?_optionMember {α : Type} (name n : String) (toJson : α → Json) (value : Option α) :
    Keyed.get? name (Json.optionMember n toJson value) = if name = n
      then value.map toJson else none := by
  cases value with
  | none => simp [Json.optionMember, Keyed.get?_nil]
  | some value => simp [Json.optionMember, Keyed.get?_cons, Keyed.get?_nil]

theorem map_fst_switched_sublist (invocation : Invocation) (names : List (String × Switch)) :
    ((invocation.switched names).map Prod.fst).Sublist (names.map Prod.fst) := by
  induction names with
  | nil => exact .slnil
  | cons entry names ih =>
    rw [switched] at ih ⊢
    by_cases hon : invocation.isOn entry.2 = true
    · simpa [List.filterMap_cons, hon] using ih
    · simpa [List.filterMap_cons, hon] using ih.cons entry.1

theorem map_fst_optionMember_sublist {α : Type} (name : String) (toJson : α → Json)
    (value : Option α) :
    ((Json.optionMember name toJson value).map Prod.fst).Sublist [name] := by
  cases value with
  | none => exact List.nil_sublist _
  | some value => exact List.Sublist.refl _

/-- The names that arguments may give. -/
def givenNames : List String :=
  ["title", "import_path", "consts", "vars", "functions", "types", "factories", "methods",
    "skip_examples",
   "skip_sub_packages", "no_diff_blocks", "recursive_sub_packages", "credit", "badges"]

theorem map_fst_given_sublist (invocation : Invocation) :
    (invocation.given.map Prod.fst).Sublist givenNames := by
  have hbadges : ((if invocation.badgesGiven.isEmpty then [] else
      [("badges", Json.object invocation.badgesGiven)]).map Prod.fst).Sublist ["badges"] := by
    split
    · exact List.nil_sublist _
    · exact List.Sublist.refl _
  simp only [given, List.map_append]
  exact (((map_fst_optionMember_sublist "title" ..).append
    (map_fst_optionMember_sublist "import_path" ..)).append
    (map_fst_switched_sublist invocation _)).append hbadges

theorem nodup_given (invocation : Invocation) : (invocation.given.map Prod.fst).Nodup :=
  invocation.map_fst_given_sublist.nodup (by decide)

theorem isPlain_given (invocation : Invocation) :
    ∀ member ∈ invocation.given, IsPlain member.1 := by
  have hplain : ∀ name ∈ givenNames, IsPlain name := by
    decide
  exact fun member hmem => hplain _ (invocation.map_fst_given_sublist.subset
    (List.mem_map_of_mem hmem))

theorem map_fst_badgesGiven_sublist (invocation : Invocation) :
    (invocation.badgesGiven.map Prod.fst).Sublist
      ["travis_ci", "code_cov", "golang_ci", "go_doc", "go_report_card"] :=
  map_fst_switched_sublist invocation _

theorem nodup_badgesGiven (invocation : Invocation) : (invocation.badgesGiven.map Prod.fst).Nodup :=
  invocation.map_fst_badgesGiven_sublist.nodup (by decide)

theorem isPlain_badgesGiven (invocation : Invocation) :
    ∀ member ∈ invocation.badgesGiven, IsPlain member.1 := by
  have hplain : ∀ name ∈ ["travis_ci", "code_cov", "golang_ci", "go_doc", "go_report_card"],
      IsPlain name := by
    decide
  exact fun member hmem => hplain _ (invocation.map_fst_badgesGiven_sublist.subset
    (List.mem_map_of_mem hmem))

theorem map_ofJson_flag (invocation : Invocation) (switch : Switch) :
    (if invocation.isOn switch then some (.bool true) else none).map (ofJson .arguments) =
      (invocation.flag? switch).map (.scalar .arguments) := by
  unfold flag?
  split <;> simp [ofJson]

theorem map_ofJson_text (text : Option String) :
    (text.map Json.string).map (ofJson .arguments) =
      (text.map Scalar.text).map (.scalar .arguments) := by
  cases text <;> simp [ofJson]

theorem get?_badgesGiven (invocation : Invocation) (own : Badges.Field) :
    (Keyed.get? own.name invocation.badgesGiven).map (ofJson .arguments) =
      (invocation.badge? own).map (.scalar .arguments) := by
  rw [badgesGiven, get?_switched invocation (by decide)]
  cases own <;> exact map_ofJson_flag invocation _

theorem get?_given_badges (invocation : Invocation) :
    Keyed.get? "badges" invocation.given =
      if invocation.badgesGiven.isEmpty then none else some (.object invocation.badgesGiven) := by
  rw [given, Keyed.get?_append, Keyed.get?_append, Keyed.get?_append, get?_optionMember,
    get?_optionMember, get?_switched invocation (by decide)]
  by_cases hempty : invocation.badgesGiven.isEmpty = true
  · rw [if_pos hempty, if_pos hempty]
    rfl
  · rw [if_neg hempty, if_neg hempty]
    rfl

theorem get?_given_field (invocation : Invocation) (own : Settings.Field) :
    (Keyed.get? own.name invocation.given).map (ofJson .arguments) =
      (invocation.field? own).map (.scalar .arguments) := by
  have hbadges : Keyed.get? own.name (if invocation.badgesGiven.isEmpty then [] else
      [("badges", Json.object invocation.badgesGiven)]) = none := by
    have hne : own.name ≠ "badges" := by
      cases own <;> decide
    split
    · rfl
    · rw [Keyed.get?_cons, if_neg hne, Keyed.get?_nil]
  rw [given, Keyed.get?_append, Keyed.get?_append, Keyed.get?_append, get?_optionMember,
    get?_optionMember, get?_switched invocation (by decide), hbadges, Option.or_none]
  cases own with
  | title =>
    show Option.map (ofJson .arguments) (((invocation.title.map .string).or none).or none) = _
    rw [Option.or_none, Option.or_none]
    exact map_ofJson_text invocation.title
  | importPath =>
    show Option.map (ofJson .arguments) ((invocation.shownPath.map .string).or none) = _
    rw [Option.or_none]
    exact map_ofJson_text invocation.shownPath
  | _ => exact map_ofJson_flag invocation _

/-- The layer of the arguments has at each leaf what the arguments give. -/
theorem at?_layer (invocation : Invocation) (leaf : Settings.Leaf) :
    invocation.layer.at? leaf.path = (invocation.leaf? leaf).map (.scalar .arguments) := by
  cases leaf with
  | field own =>
    rw [layer, Settings.Leaf.path,
      at?_ofJson_object .arguments invocation.isPlain_given invocation.nodup_given, leaf?,
      ← get?_given_field]
    cases Keyed.get? own.name invocation.given <;> rfl
  | badge own =>
    rw [layer, Settings.Leaf.path,
      at?_ofJson_object .arguments invocation.isPlain_given invocation.nodup_given, leaf?,
      ← get?_badgesGiven, get?_given_badges]
    split
    · rename_i hempty
      rw [List.isEmpty_iff.1 hempty]
      rfl
    · rw [Option.bind_some,
        at?_ofJson_object .arguments invocation.isPlain_badgesGiven invocation.nodup_badgesGiven]
      cases Keyed.get? own.name invocation.badgesGiven <;> rfl

theorem leads_layer (invocation : Invocation) (leaf : Settings.Leaf) :
    invocation.layer.Leads leaf.path := by
  cases leaf with
  | field own =>
    exact leads_ofJson_object .arguments invocation.isPlain_given invocation.nodup_given _
      fun _ _ => trivial
  | badge own =>
    refine leads_ofJson_object .arguments invocation.isPlain_given invocation.nodup_given _
      fun json hjson => ?_
    rw [get?_given_badges] at hjson
    split at hjson
    · cases hjson
    · obtain rfl := Option.some.inj hjson
      exact leads_ofJson_object .arguments invocation.isPlain_badgesGiven
        invocation.nodup_badgesGiven _
        fun _ _ => trivial

end Invocation

/-! ### Files -/

/-- A map that is read has its names in ascending order. -/
theorem ascending_of_parse_map {α : Type} {item : Json.Decoder α} {text : String}
    {members : Keyed α} (h : item.map.parse text = .ok members) : members.Ascending := by
  have hread {s rest : List Char} {members : Keyed α} (h : item.map.read s = .ok (members, rest)) :
      members.Ascending := by
    change Json.readMap item s = .ok (members, rest) at h
    unfold Json.readMap at h
    split at h
    · split at h
      · cases h
        exact Keyed.ascending_ofEntries _
      · cases h
    · cases h
  simp only [Json.Decoder.parse] at h
  split at h
  · cases h
  · rename_i hmap
    split at h
    · cases h
      exact hread hmap
    · cases h

theorem ordered_fileLayer {path : String} {bytes : List UInt8} {layer : Setting}
    (h : fileLayer path bytes = .ok layer) :
    layer.Ordered ∧ ∃ origin members, layer = .table origin members := by
  unfold fileLayer at h
  split at h
  · cases h
  · split at h
    · cases h
    · rename_i members hparse
      cases h
      refine ⟨.table _ (List.pairwise_map.2 (ascending_of_parse_map hparse))
        fun member hmem => ?_, _, _, rfl⟩
      obtain ⟨old, -, rfl⟩ := List.mem_map.1 hmem
      exact ordered_ofJson _ _

/-! ### Badges in layers -/

def Setting.isTable : Setting → Bool
  | .table .. => true
  | _ => false

/-- A layer has a table of badges, if it has badges at all. -/
def Setting.tablesBadges (layer : Setting) : Bool :=
  (layer.at? ["badges"]).all Setting.isTable

/-- In a layer that has badges in a table, there are only tables on the way to each leaf. -/
theorem leads_of_tablesBadges {origin : Origin} {members : Keyed Setting}
    (h : (table origin members).tablesBadges = true) (leaf : Settings.Leaf) :
    (table origin members).Leads leaf.path := by
  cases leaf with
  | field own => exact fun _ _ => trivial
  | badge own =>
    intro below hbelow
    have hat : (table origin members).at? ["badges"] = some below := by
      rw [at?, hbelow]
      rfl
    rw [Setting.tablesBadges, hat] at h
    cases below with
    | table => exact fun _ _ => trivial
    | scalar => cases h
    | list => cases h

/-- A variable that is for all badges gives a table. -/
def Environment.tablesBadges (var : String × String) : Bool :=
  if path? var.1 = some ["badges"] then (value var.2).toOption.all Setting.isTable else true

theorem Environment.clears_of_tablesBadges {var : String × String} (h : tablesBadges var = true)
    (leaf : Settings.Leaf) : Clears leaf.path var := by
  intro way setting hpath hvalue
  cases way with
  | nil => exact absurd rfl (path?_ne_nil hpath)
  | cons name rest =>
    refine leads_of_tablesBadges ?_ leaf
    rw [Setting.tablesBadges, at?, Keyed.get?_cons]
    by_cases hname : "badges" = name
    · subst hname
      rw [if_pos rfl]
      cases rest with
      | nil =>
        rw [tablesBadges, if_pos hpath, hvalue] at h
        exact h
      | cons next rest => rfl
    · rw [if_neg hname]
      rfl

/-! ### Priority -/

/-- The layer of the environment of a run, if its variables can be read. -/
def environmentLayer? (world : World) : Option Setting :=
  (Environment.layer world.environment).toOption

/-- The layer of the settings file of a run, if there is one that can be read. -/
def settingsLayer? (world : World) (invocation : Invocation) : Option Setting :=
  match settingsSource world invocation with
  | .ok (some (_, path)) =>
    match world.files.read path with
    | .ok bytes => (fileLayer (Path.shown world.files.directory path) bytes).toOption
    | .error _ => none
  | _ => none

/-- A value is the one that is given, or else the one of the environment, or else the one of the
file, or else the default. -/
def Prevails (value : Scalar) (given : Option Scalar) (environment file : Option Setting)
    (default : Scalar) :
    Prop :=
  match given, environment, file with
  | some given, _, _ => value = given
  | none, some setting, _ => setting.scalar? = some value
  | none, none, some setting => setting.scalar? = some value
  | none, none, none => value = default

theorem Prevails.congr {value default : Scalar} {given : Option Scalar}
    {environment other file : Option Setting} (h : environment.map scalar? = other.map scalar?)
    (hvalue : Prevails value given environment file default) :
    Prevails value given other file default := by
  cases given with
  | some given => exact hvalue
  | none =>
    cases environment with
    | none =>
      cases other with
      | none => exact hvalue
      | some other => cases h
    | some environment =>
      cases other with
      | none => cases h
      | some other => exact (Option.some.inj h).symm.trans hvalue

/-- The value of the highest layer that has one prevails. -/
theorem prevails_of_layered {value default : Scalar} {given : Option Scalar}
    {environment file : Option Setting} (h : ∀ setting, layered (given.map (.scalar .arguments))
      (layered environment (layered file (some (.scalar .builtIn default)))) = some setting →
        setting.scalar? = some value) :
    Prevails value given environment file default := by
  cases given with
  | some given =>
    obtain ⟨below, hbelow⟩ : ∃ below,
        layered environment (layered file (some (.scalar .builtIn default))) = some below := by
      cases environment <;> cases file <;> exact ⟨_, rfl⟩
    have hvalue := h _ (by rw [hbelow]; rfl)
    rw [scalar?_laidOver] at hvalue
    exact (Option.some.inj hvalue).symm
  | none =>
    cases environment with
    | some environment =>
      obtain ⟨below, hbelow⟩ :
        ∃ below, layered file (some (.scalar .builtIn default)) = some below := by
        cases file <;> exact ⟨_, rfl⟩
      have hvalue := h _ (by rw [hbelow]; rfl)
      rwa [scalar?_laidOver] at hvalue
    | none =>
      cases file with
      | some file =>
        have hvalue := h _ rfl
        rwa [scalar?_laidOver] at hvalue
      | none => exact (Option.some.inj (h _ rfl)).symm

/-- What is below the environment: the file, if there is one, over what is built in. -/
def belowEnvironment (file : Option Setting) : Setting :=
  match file with
  | none => Settings.builtIn
  | some layer => layer.laidOver Settings.builtIn

theorem at?_belowEnvironment {file : Option Setting} {leaf : Settings.Leaf}
    (hfile : ∀ layer ∈ file, layer.Ordered ∧ layer.Leads leaf.path) :
    (belowEnvironment file).Ordered ∧ (belowEnvironment file).Leads leaf.path ∧
      (belowEnvironment file).at? leaf.path =
        layered (file.bind (at? leaf.path))
          (some (.scalar .builtIn (({} : Settings).leaf leaf))) := by
  have hbuiltIn : Settings.builtIn.Ordered := ordered_ofJson _ _
  have hleads := Settings.leads_builtIn leaf
  have hat := Settings.at?_builtIn leaf
  cases file with
  | none => exact ⟨hbuiltIn, hleads, hat⟩
  | some layer =>
    obtain ⟨hlayer, hlayerLeads⟩ := hfile layer rfl
    refine ⟨hlayer.laidOver hbuiltIn, hlayerLeads.laidOver hlayer hleads, ?_⟩
    rw [belowEnvironment, at?_laidOver hlayer hlayerLeads hleads, hat]
    rfl

/-- Settings that are taken out of all layers have at each leaf the value of the highest layer that
has it. -/
theorem prevails_of_take {invocation : Invocation} {environment : Setting} {file : Option Setting}
    {settings : Settings} {leaf : Settings.Leaf} (henvironment : environment.Ordered)
    (hleads : environment.Leads leaf.path)
    (hfile : ∀ layer ∈ file, layer.Ordered ∧ layer.Leads leaf.path)
    (h : Settings.take (invocation.layer.laidOver (environment.laidOver (belowEnvironment file))) =
      .ok settings) :
    Prevails (settings.leaf leaf) (invocation.leaf? leaf) (environment.at? leaf.path)
      (file.bind (at? leaf.path)) (({} : Settings).leaf leaf) := by
  obtain ⟨hbelow, hbelowLeads, hbelowAt⟩ := at?_belowEnvironment hfile
  have hgiven : invocation.layer.Ordered := ordered_ofJson _ _
  have hgivenLeads := invocation.leads_layer leaf
  have hordered := hgiven.laidOver (henvironment.laidOver hbelow)
  have hlowerLeads := hleads.laidOver henvironment hbelowLeads
  have hat := at?_laidOver hgiven hgivenLeads hlowerLeads
  rw [at?_laidOver henvironment hleads hbelowLeads, hbelowAt, invocation.at?_layer] at hat
  refine prevails_of_layered fun setting hsetting => ?_
  exact scalar?_at?_of_take hordered h leaf (hgivenLeads.laidOver hgiven hlowerLeads)
    (hat.trans hsetting)

/-! ### Runs -/

/-- Settings are taken out of the layers of their sources. -/
theorem take_of_load {invocation : Invocation} {file : Option (String × List UInt8)}
    {environment : Setting} {settings : Settings}
    (h : Settings.load invocation file environment = .ok settings) :
    Settings.take (invocation.layer.laidOver (environment.laidOver
      (belowEnvironment (file.bind fun (path, bytes) => (fileLayer path bytes).toOption)))) =
        .ok settings := by
  cases file with
  | none => exact mapError_eq_ok_iff.mp h
  | some file =>
    obtain ⟨path, bytes⟩ := file
    simp only [Settings.load] at h
    cases hlayer : fileLayer path bytes with
    | error fault =>
      rw [hlayer] at h
      cases h
    | ok layer =>
      rw [hlayer] at h
      simp only [Option.bind_some, hlayer]
      exact mapError_eq_ok_iff.mp h

/-- The settings of a run are taken out of its layers. -/
theorem take_of_loadSettings {world : World} {invocation : Invocation} {settings : Settings}
    (h : (loadSettings world invocation).1 = .ok settings) :
    ∃ environment, Environment.layer world.environment = .ok environment ∧
      Settings.take (invocation.layer.laidOver (environment.laidOver
        (belowEnvironment (settingsLayer? world invocation)))) = .ok settings := by
  unfold loadSettings at h
  unfold settingsLayer?
  cases hlayer : Environment.layer world.environment with
  | error broken =>
    simp only [hlayer] at h
    split at h
    · cases h
    · cases h
    · split at h <;> cases h
  | ok environment =>
    refine ⟨environment, rfl, ?_⟩
    simp only [hlayer] at h
    split at h
    · cases h
    · rename_i hsource
      rw [hsource]
      exact take_of_load (mapError_eq_ok_iff.mp h)
    · rename_i name path hsource
      rw [hsource]
      simp only
      split at h
      · cases h
      · rename_i bytes hbytes
        rw [hbytes]
        exact take_of_load (mapError_eq_ok_iff.mp h)

theorem ordered_settingsLayer? {world : World} {invocation : Invocation} {layer : Setting}
    (h : settingsLayer? world invocation = some layer) :
    layer.Ordered ∧ ∃ origin members, layer = .table origin members := by
  unfold settingsLayer? at h
  split at h
  · split at h
    · rename_i path _ _ bytes _
      cases hlayer : fileLayer (Path.shown world.files.directory path) bytes with
      | error fault =>
        rw [hlayer] at h
        cases h
      | ok found =>
        rw [hlayer] at h
        obtain rfl := Option.some.inj h
        exact ordered_fileLayer hlayer
    · cases h
  · cases h

/-- **Arguments prevail over the environment, the environment over the file, and the file over the
defaults**, leaf by leaf. Where the layer of the environment has badges as a table, its value for a
leaf is what it has at the end of the way there; where already each variable for all badges gives a
table, that is what the last variable that sets the leaf gives. -/
theorem leaf_prevails {world : World} {invocation : Invocation} {settings : Settings}
    (hload : (loadSettings world invocation).1 = .ok settings)
    (hfile : (settingsLayer? world invocation).all Setting.tablesBadges = true) :
    ((environmentLayer? world).all Setting.tablesBadges = true → ∀ leaf : Settings.Leaf,
      Prevails (settings.leaf leaf) (invocation.leaf? leaf)
        ((environmentLayer? world).bind (at? leaf.path))
        ((settingsLayer? world invocation).bind (at? leaf.path)) (({} : Settings).leaf leaf)) ∧
    (world.environment.all Environment.tablesBadges = true → ∀ leaf : Settings.Leaf,
      Prevails (settings.leaf leaf) (invocation.leaf? leaf)
        (Environment.lastSet? world.environment leaf.path)
        ((settingsLayer? world invocation).bind (at? leaf.path)) (({} : Settings).leaf leaf)) := by
  obtain ⟨environment, hlayer, htake⟩ := take_of_loadSettings hload
  obtain ⟨origin, members, htable⟩ := Environment.exists_table_layer hlayer
  have hordered := Environment.ordered_layer hlayer
  have hbelow (leaf : Settings.Leaf) :
      ∀ layer ∈ settingsLayer? world invocation, layer.Ordered ∧ layer.Leads leaf.path := by
    intro layer hsome
    obtain ⟨hlayerOrdered, other, below, rfl⟩ := ordered_settingsLayer? hsome
    rw [Option.mem_def.1 hsome] at hfile
    exact ⟨hlayerOrdered, leads_of_tablesBadges hfile leaf⟩
  constructor
  · intro henvironment leaf
    rw [environmentLayer?, hlayer] at henvironment ⊢
    subst htable
    exact prevails_of_take hordered (leads_of_tablesBadges henvironment leaf) (hbelow leaf) htake
  · intro hvariables leaf
    have hclears : ∀ var ∈ world.environment, Environment.Clears leaf.path var := fun var hvar =>
      Environment.clears_of_tablesBadges (List.all_eq_true.1 hvariables var hvar) leaf
    obtain ⟨hleads, hat⟩ := Environment.scalar?_at?_layer leaf.path_ne_nil hclears hlayer
    exact (prevails_of_take hordered hleads (hbelow leaf) htake).congr hat

/-- Three badges from three sources, and a title that all of them set. -/
theorem leaf_prevails_badges :
    let text := "\x7b\"title\": \"File\", \"consts\": true, \"badges\": \x7b\"travis_ci\": true\x7d\x7d"
    let world : World :=
      { files := { entries := [(["readmegen.json"], .file text.toUTF8.toList)] },
        environment := [("READMEGEN_TITLE", "Environment"),
          ("READMEGEN_BADGES", "\x7bcode_cov=true\x7d")] }
    let invocation : Invocation :=
      { manifest := "packages.json", title := some "Arguments",
        isOn := fun switch => switch = .badgeGoDoc }
    let settings : Settings :=
      { title := "Arguments", consts := true,
        badges := { travisCi := true, codeCov := true, goDoc := true } }
    (loadSettings world invocation).1 = .ok settings ∧
      (settingsLayer? world invocation).all Setting.tablesBadges = true ∧
      world.environment.all Environment.tablesBadges = true ∧
      ∀ leaf : Settings.Leaf,
        Prevails (settings.leaf leaf) (invocation.leaf? leaf)
          (Environment.lastSet? world.environment leaf.path)
          ((settingsLayer? world invocation).bind (at? leaf.path)) (({} : Settings).leaf leaf) := by
  intro text world invocation settings
  have hoption : (loadSettings world invocation).1.toOption = some settings := by
    decide +kernel +zetaReduce
  have hload : (loadSettings world invocation).1 = .ok settings := by
    cases hresult : (loadSettings world invocation).1 with
    | error halt =>
      rw [hresult] at hoption
      cases hoption
    | ok result =>
      rw [hresult] at hoption
      rw [Option.some.inj hoption]
  have hfile : (settingsLayer? world invocation).all Setting.tablesBadges = true := by
    decide +kernel +zetaReduce
  have hvariables : world.environment.all Environment.tablesBadges = true := by
    decide +kernel +zetaReduce
  exact ⟨hload, hfile, hvariables, (leaf_prevails hload hfile).2 hvariables⟩

end PackageReadme
