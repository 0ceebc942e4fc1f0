import PackageReadme.Proofs.Rendering
import PackageReadme.Proofs.Settings.Priority
import PackageReadme.Proofs.Settings.Reading

/-! The two ways to settings agree: from a text of their own, and from a file with no other source
beside it.

Both give the same settings or none, for every text that names no setting and no badge twice and has
its badges in an object; and they give settings exactly if each member is a known setting of its own
type. Main statement: `loadSettings_iff_parse`. It leaves out texts where a value stands for the
object that it is in, since only files are read that way (`loadSettings_of_originMember`). -/
namespace PackageReadme
open Setting

/-! ### Texts of settings -/

/-- An object that has no two members of one name. -/
def Json.namesOnce : Json → Bool
  | .object members => decide (members.map Prod.fst).Nodup
  | _ => false

/-- An object that names no setting twice, and whose badges are an object that names no badge
twice. -/
def Json.isSettings : Json → Bool
  | .object members =>
    decide (members.map Prod.fst).Nodup && (Keyed.get? "badges" members).all Json.namesOnce
  | _ => false

/-- No member of an object is an object that another value stands for. -/
def Json.membersStand : Json → Bool
  | .object members => members.all fun member => member.2.standsForItself
  | _ => true

/-- No setting and no badge is an object that another value stands for. -/
def Json.settingsStand : Json → Bool
  | .object members =>
    (Json.object members).membersStand && (Keyed.get? "badges" members).all Json.membersStand
  | _ => true

/-- A badge and its flag. -/
def IsBadge (member : String × Json) : Prop :=
  ∃ (field : Badges.Field) (b : Bool), member = (field.name, .bool b)

/-- A setting and a value of its type. -/
inductive IsSetting : String × Json → Prop
  | text (own : Settings.Field) (s : String) :
      own = .title ∨ own = .importPath → IsSetting (own.name, .string s)
  | flag (own : Settings.Field) (b : Bool) :
      own ≠ .title ∧ own ≠ .importPath → IsSetting (own.name, .bool b)
  | badges (members : List (String × Json)) : (∀ member ∈ members, IsBadge member) →
    IsSetting ("badges", .object members)

theorem isGoodSetting_of_isSettings {members : List (String × Json)}
    (hsettings : (Json.object members).isSettings = true)
    (hstand : (Json.object members).settingsStand = true) :
    (members.map Prod.fst).Nodup ∧ ∀ member ∈ members, IsGoodSetting member.1 member.2 := by
  obtain ⟨hnames, hbadges⟩ := Bool.and_eq_true_iff.1 hsettings
  obtain ⟨hmembers, hbelow⟩ := Bool.and_eq_true_iff.1 hstand
  have hnodup : (members.map Prod.fst).Nodup := of_decide_eq_true hnames
  refine ⟨hnodup, fun member hmem => ?_⟩
  have hself : member.2.standsForItself = true := List.all_eq_true.1 hmembers member hmem
  refine ⟨hself, fun hname => ⟨hself, ?_⟩⟩
  have hget : Keyed.get? "badges" members = some member.2 := hname ▸ Keyed.get?_eq_some hnodup hmem
  rw [hget] at hbadges hbelow
  generalize member.2 = json at hbadges hbelow
  cases json with
  | object below => exact ⟨below, rfl, of_decide_eq_true hbadges, List.all_eq_true.1 hbelow⟩
  | _ => cases hbadges

/-! ### Known settings -/

theorem exists_take_badge_iff {origin : Origin} {member : String × Json}
    (hself : member.2.standsForItself = true) :
    (∃ slot put, Badges.slots.find? (·.name = member.1) = some slot ∧
      slot.take (ofJson origin member.2) = .ok put) ↔
      IsBadge member := by
  constructor
  · rintro ⟨slot, put, hfind, htake⟩
    obtain ⟨field, badges, hname, hshows⟩ := Badges.views.exists_gives {} hfind htake
    obtain ⟨b, hb⟩ : ∃ b, badges.field field = .bool b := by
      cases field <;> exact ⟨_, rfl⟩
    rw [hb, shows_ofJson_bool hself] at hshows
    exact ⟨field, b, Prod.ext hname hshows⟩
  · rintro ⟨field, b, rfl⟩
    rw [ofJson]
    cases field <;> exact ⟨_, _, rfl, rfl⟩

/-- Badges are taken out of an object exactly if each member is a badge and its flag. -/
theorem exists_take_badges_iff {origin : Origin} {members : List (String × Json)}
    (hgood : IsGoodObject IsGoodBadge (.object members)) :
    (∃ badges, Badges.take (ofJson origin (.object members)) = .ok badges) ↔
      ∀ member ∈ members, IsBadge member := by
  obtain ⟨hself, others, heq, hnames, hall⟩ := hgood
  obtain rfl : members = others := Json.object.inj heq
  rw [ofJson_object_of_standsForItself origin hself]
  show (∃ badges, fillByName Badges.slots {} (Keyed.ofEntries (settingsOf origin members)) =
    .ok badges) ↔ _
  simp only [Badges.views.fillByName_ofEntries hnames]
  rw [exists_fillByName_iff, settingsOf, List.forall_mem_map]
  exact forall₂_congr fun member hmem => exists_take_badge_iff (hall member hmem)

/-- A setting that is shown under the name of a field is of the type of that field. -/
theorem isSetting_of_shows {origin : Origin} {own : Settings.Field} {settings : Settings}
    {json : Json} (hself : json.standsForItself = true)
    (h : Shows (ofJson origin json) (settings.field own)) :
    IsSetting (own.name, json) := by
  by_cases htext : own = .title ∨ own = .importPath
  · obtain ⟨s, hs⟩ : ∃ s, settings.field own = .text s := by
      rcases htext with rfl | rfl <;> exact ⟨_, rfl⟩
    rw [hs, shows_ofJson_text hself] at h
    exact h ▸ .text own s htext
  · rw [not_or] at htext
    obtain ⟨b, hb⟩ : ∃ b, settings.field own = .bool b := by
      cases own with
      | title => exact absurd rfl htext.1
      | importPath => exact absurd rfl htext.2
      | _ => exact ⟨_, rfl⟩
    rw [hb, shows_ofJson_bool hself] at h
    exact h ▸ .flag own b htext

theorem exists_take_setting_iff {origin : Origin} {member : String × Json}
    (hgood : IsGoodSetting member.1 member.2) :
    (∃ slot put, Settings.slots.find? (·.name = member.1) = some slot ∧
      slot.take (ofJson origin member.2) = .ok put) ↔ IsSetting member := by
  obtain ⟨n, json⟩ := member
  constructor
  · rintro ⟨slot, put, hfind, htake⟩
    obtain ⟨part, settings, rfl, hgives⟩ := Settings.views.exists_gives {} hfind htake
    cases part with
    | field own => exact isSetting_of_shows hgood.1 hgives
    | badges =>
      have hobject := hgood.2 rfl
      have ⟨_, members, hjson, _⟩ := hobject
      subst hjson
      exact .badges members ((exists_take_badges_iff hobject).1 ⟨_, hgives⟩)
  · intro hsetting
    cases hsetting with
    | text own s htext =>
      rw [ofJson]
      rcases htext with rfl | rfl <;> exact ⟨_, _, rfl, rfl⟩
    | flag own b hflag =>
      rw [ofJson]
      cases own with
      | title => exact absurd rfl hflag.1
      | importPath => exact absurd rfl hflag.2
      | _ => exact ⟨_, _, rfl, rfl⟩
    | badges members hbadges =>
      obtain ⟨badges, htake⟩ := (exists_take_badges_iff (hgood.2 rfl)).2 hbadges
      refine ⟨_, fun settings => { settings with badges }, rfl, ?_⟩
      show (Badges.take (ofJson origin (.object members))).map _ = .ok _
      rw [htake]
      rfl

/-- Settings are filled in exactly if each member is a known setting of its type. -/
theorem exists_fillByName_settings_iff {origin : Origin} {members : List (String × Json)}
    (hgood : ∀ member ∈ members, IsGoodSetting member.1 member.2) :
    (∃ settings, fillByName Settings.slots {} (settingsOf origin members) = .ok settings) ↔
      ∀ member ∈ members, IsSetting member := by
  rw [exists_fillByName_iff, settingsOf, List.forall_mem_map]
  exact forall₂_congr fun member hmem => exists_take_setting_iff (hgood member hmem)

/-! ### Texts -/

/-- A text that holds an object of members. In the values of members, what some names stand for is
held to whole numbers. -/
def HoldsMembers (isMark : String → Bool) (text : String) (members : List (String × Json)) : Prop :=
  ∃ t rest, Json.skipBlanks text.toList = '\x7b' :: t ∧
    Json.readMembers (fun _ => .marked isMark (Json.depthLimit - 1)) true t = .ok (members, rest) ∧
    Json.skipBlanks rest = []

section
variable {isMark : String → Bool} {text : String} {members : List (String × Json)}

theorem HoldsMembers.parse (h : HoldsMembers isMark text members) :
    Json.parse text = .ok (.object members) := by
  obtain ⟨t, rest, ht, hread, hrest⟩ := h
  refine Json.parse_eq_ok_iff.2 ⟨rest, ?_, hrest⟩
  refine (Json.ReadsMarked.object ht (Json.readMembers_mono (fun name s r hvalue => ?_) hread)).read
  exact (Json.readsMarked_of_read hvalue).any

theorem holdsMembers_of_parse (h : Json.parse text = .ok (.object members)) :
    HoldsMembers (fun _ => false) text members := by
  obtain ⟨rest, hread, hrest⟩ := Json.parse_eq_ok_iff.1 h
  obtain ⟨t, ht, hmembers⟩ := (Json.readsMarked_of_read hread).exists_readMembers
  exact ⟨t, rest, ht, hmembers, hrest⟩

variable (hmarks : ∀ field ∈ Badges.shape.fields, isMark field.name = false)
include hmarks

/-- What holds settings is an object or a list. -/
theorem holdsMembers_of_settings {settings : Settings} (h : Settings.parse text = .ok settings) :
    (∃ members, HoldsMembers isMark text members) ∨
      ∃ items, Json.parse text = .ok (.array items) := by
  obtain ⟨rest, hread, hrest⟩ := Json.parse_eq_ok_iff.1 h
  change Json.readRecord Settings.shape text.toList = .ok (settings, rest) at hread
  have hmatches : Matches .arguments (.marked isMark (Json.depthLimit - 1)) IsGoodSetting
      (fun _ => .marked isMark (Json.depthLimit - 1)) Settings.shape Settings.slots :=
      Settings.matches hmarks
  unfold Json.readRecord at hread
  split at hread
  · rename_i t ht
    obtain ⟨members, hmembers, -⟩ := hmatches.exists_readMembers hread
    exact .inl ⟨members, t, rest, ht, hmembers, hrest⟩
  · rename_i t ht
    obtain ⟨items, hitems⟩ := exists_readItems_of_readPositions hmatches.fields hread
    refine .inr ⟨items, Json.parse_eq_ok_iff.2 ⟨rest, ?_, hrest⟩⟩
    refine (Json.ReadsMarked.array ht (Json.readItems_mono (fun s r hitem => ?_) hitems)).read
    exact (Json.readsMarked_of_read hitem).any
  · cases hread

/-- Settings are read from an object exactly if its members fill their slots. -/
theorem HoldsMembers.parse_iff (h : HoldsMembers isMark text members)
    (hnames : (members.map Prod.fst).Nodup)
    (hgood : ∀ member ∈ members, IsGoodSetting member.1 member.2) (origin : Origin)
    {settings : Settings} :
    Settings.parse text = .ok settings ↔
      fillByName Settings.slots {} (settingsOf origin members) = .ok settings := by
  have hmatches : Matches origin (.marked isMark (Json.depthLimit - 1)) IsGoodSetting
      (fun _ => .marked isMark (Json.depthLimit - 1)) Settings.shape Settings.slots :=
      Settings.matches hmarks
  obtain ⟨t, rest, ht, hread, hrest⟩ := h
  have hrecord : Settings.decoder.read text.toList =
      Json.readFields Settings.shape true [] {} t := by
    show Json.readRecord Settings.shape text.toList = _
    rw [Json.readRecord, ht]
    rfl
  rw [← hmatches.readFields_iff hread hnames hgood, Settings.parse, Json.parse_eq_ok_iff, hrecord]
  constructor
  · rintro ⟨after, hfields, -⟩
    obtain ⟨others, hothers, -⟩ := hmatches.exists_readMembers hfields
    rw [hread] at hothers
    cases hothers
    exact hfields
  · intro hfields
    exact ⟨rest, hfields, hrest⟩

end

/-! ### Files -/

/-- The name of the member that says where a value comes from. -/
def isOriginMember (name : String) : Bool :=
  name = originMember

theorem parse_map_eq_ok_iff {text : String} {keyed : Keyed Json} :
    (Json.Decoder.map (.marked isOriginMember (Json.depthLimit - 1))).parse text = .ok keyed ↔
      ∃ members, HoldsMembers isOriginMember text members ∧ keyed = Keyed.ofEntries members := by
  rw [Json.parse_eq_ok_iff]
  constructor
  · rintro ⟨rest, hread, hrest⟩
    change Json.readMap _ text.toList = .ok (keyed, rest) at hread
    unfold Json.readMap at hread
    split at hread
    · rename_i t ht
      split at hread
      · rename_i members after hmembers
        cases hread
        exact ⟨members, ⟨t, rest, ht, hmembers, hrest⟩, rfl⟩
      · cases hread
    · cases hread
  · rintro ⟨members, ⟨t, rest, ht, hmembers, hrest⟩, rfl⟩
    refine ⟨rest, ?_, hrest⟩
    show Json.readMap _ text.toList = _
    simp only [Json.readMap, ht, hmembers]

theorem fileLayer_eq_ok_iff {path text : String} {layer : Setting} :
    fileLayer path text.toUTF8.toList = .ok layer ↔
      ∃ members, HoldsMembers isOriginMember text members ∧
        layer = .table (.file path) (settingsOf (.file path) (Keyed.ofEntries members)) := by
  have htext : String.fromUTF8? ⟨text.toUTF8.toList.toArray⟩ = some text := by
    rw [Newlines.toUTF8_toList, Newlines.fromUTF8?_bytes, String.ofList_toList]
  unfold fileLayer
  simp only [htext]
  constructor
  · intro h
    split at h
    · cases h
    · rename_i keyed hparse
      obtain ⟨members, hmembers, rfl⟩ := parse_map_eq_ok_iff.1 hparse
      cases h
      exact ⟨members, hmembers, rfl⟩
  · rintro ⟨members, hmembers, rfl⟩
    have hparse := parse_map_eq_ok_iff.2 ⟨members, hmembers, rfl⟩
    unfold isOriginMember at hparse
    simp only [hparse]
    rfl

/-- Settings are taken out of a file exactly if its members fill their slots. -/
theorem take_fileLayer_iff {path text : String} {members : List (String × Json)}
    {settings : Settings} (h : HoldsMembers isOriginMember text members)
    (hnames : (members.map Prod.fst).Nodup) :
    (∃ layer, fileLayer path text.toUTF8.toList = .ok layer ∧ Settings.take layer = .ok settings) ↔
      fillByName Settings.slots {} (settingsOf (.file path) members) = .ok settings := by
  have hkeys : ((settingsOf (.file path) members).map Prod.fst).Nodup := by
    rwa [map_fst_settingsOf]
  have hsorted : ((settingsOf (.file path) (Keyed.ofEntries members)).map Prod.fst).Nodup := by
    rw [map_fst_settingsOf]
    exact (Keyed.ascending_ofEntries members).nodup_keys
  have hget (n : String) : Keyed.get? n (settingsOf (.file path) (Keyed.ofEntries members)) =
      Keyed.get? n (settingsOf (.file path) members) := by
    rw [get?_settingsOf, get?_settingsOf, Keyed.get?_ofEntries n hnames]
  rw [← Settings.views.fillByName_congr hsorted hkeys hget]
  constructor
  · rintro ⟨layer, hlayer, htake⟩
    obtain ⟨others, hothers, rfl⟩ := fileLayer_eq_ok_iff.1 hlayer
    obtain rfl : others = members :=
      Json.object.inj (Except.ok.inj (hothers.parse.symm.trans h.parse))
    exact htake
  · intro hfill
    exact ⟨_, fileLayer_eq_ok_iff.2 ⟨members, h, rfl⟩, hfill⟩

/-! ### No other source -/

theorem Environment.layer_of_path?_eq_none {environment : List (String × String)}
    (h : ∀ var ∈ environment, Environment.path? var.1 = none) :
    Environment.layer environment = .ok (.table .environment []) := by
  unfold Environment.layer
  induction environment with
  | nil => rfl
  | cons var environment ih =>
    rw [List.forall_mem_cons] at h
    rw [Environment.layerOver, h.1]
    exact ih h.2

theorem Invocation.layer_of_given_eq_nil {invocation : Invocation} (h : invocation.given = []) :
    invocation.layer = .table .arguments [] := by
  rw [Invocation.layer, h, ofJson_object .arguments (by simp)]
  rfl

theorem laidOver_of_empty (origin other : Origin) (members : Keyed Setting) :
    (table origin []).laidOver (.table other members) = .table origin members := by
  rw [laidOver_table, membersOver]

/-- A file with no other source beside it gives the settings that are taken out of it. -/
theorem load_iff_take {invocation : Invocation} (hgiven : invocation.given = []) {path : String}
    {bytes : List UInt8} {settings : Settings} :
    Settings.load invocation (some (path, bytes)) (.table .environment []) = .ok settings ↔
      ∃ layer, fileLayer path bytes = .ok layer ∧ Settings.take layer = .ok settings := by
  simp only [Settings.load, Invocation.layer_of_given_eq_nil hgiven]
  cases hlayer : fileLayer path bytes with
  | error fault =>
    constructor
    · intro h
      cases h
    · rintro ⟨layer, h, -⟩
      cases h
  | ok layer =>
    obtain ⟨hordered, origin, members, rfl⟩ := ordered_fileLayer hlayer
    obtain ⟨below, hbelow⟩ : ∃ below, Settings.builtIn = .table .builtIn below :=
      ⟨_, ofJson_object .builtIn (by decide)⟩
    have hover : (table .arguments []).laidOver ((table .environment []).laidOver
        ((table origin members).laidOver Settings.builtIn)) =
          .table .arguments (membersOver members below) := by
      rw [hbelow, laidOver_table, laidOver_of_empty, laidOver_of_empty]
    have htake : Settings.take (.table .arguments (membersOver members below)) =
        Settings.take ((table origin members).laidOver Settings.builtIn) := by
      rw [hbelow, laidOver_table]
      rfl
    simp only [hover, mapError_eq_ok_iff, htake, Settings.take_laidOver_builtIn hordered]
    constructor
    · intro h
      exact ⟨_, rfl, h⟩
    · rintro ⟨layer, heq, h⟩
      cases heq
      exact h

/-- Where the settings of a run come from a file, and from no variable. -/
theorem loadSettings_iff_load {world : World} {invocation : Invocation} {name path : String}
    {bytes : List UInt8} {settings : Settings}
    (hsource : settingsSource world invocation = .ok (some (name, path)))
    (hread : world.files.read path = .ok bytes)
    (henvironment : ∀ var ∈ world.environment, Environment.path? var.1 = none) :
    (loadSettings world invocation).1 = .ok settings ↔
      Settings.load invocation (some (Path.shown world.files.directory path, bytes))
        (.table .environment []) = .ok settings := by
  simp only [loadSettings, hsource, hread, Environment.layer_of_path?_eq_none henvironment,
    mapError_eq_ok_iff]

/-- **The two ways to settings agree.** A file that is the only source of settings gives the
settings that are read from its text, or none where there are none; and there are settings exactly
if each member of the text is a known setting of its type. -/
theorem loadSettings_iff_parse {world : World} {invocation : Invocation} {name path text : String}
    (hsource : settingsSource world invocation = .ok (some (name, path)))
    (hread : world.files.read path = .ok text.toUTF8.toList)
    (henvironment : ∀ var ∈ world.environment, Environment.path? var.1 = none)
    (hgiven : invocation.given = [])
    (htext : ∀ json, Json.parse text = .ok json →
      json.isSettings = true ∧ json.settingsStand = true) :
    (∀ settings, (loadSettings world invocation).1 = .ok settings ↔
      Settings.parse text = .ok settings) ∧
    ∀ members, Json.parse text = .ok (.object members) →
      ((∃ settings, Settings.parse text = .ok settings) ↔
        ∀ member ∈ members, IsSetting member) := by
  have hmarks : ∀ field ∈ Badges.shape.fields, isOriginMember field.name = false := by
    decide
  have hgood {members : List (String × Json)} (h : Json.parse text = .ok (.object members)) :=
    isGoodSetting_of_isSettings (htext _ h).1 (htext _ h).2
  constructor
  · intro settings
    rw [loadSettings_iff_load hsource hread henvironment, load_iff_take hgiven]
    constructor
    · intro htaken
      have ⟨layer, hlayer, _⟩ := htaken
      obtain ⟨members, hmembers, -⟩ := fileLayer_eq_ok_iff.1 hlayer
      obtain ⟨hnames, hall⟩ := hgood hmembers.parse
      rw [take_fileLayer_iff hmembers hnames] at htaken
      exact (hmembers.parse_iff hmarks hnames hall _).2 htaken
    · intro hparse
      rcases holdsMembers_of_settings hmarks hparse with ⟨members, hmembers⟩ | ⟨items, hitems⟩
      · obtain ⟨hnames, hall⟩ := hgood hmembers.parse
        exact (take_fileLayer_iff hmembers hnames).2
          ((hmembers.parse_iff hmarks hnames hall _).1 hparse)
      · exact absurd (htext _ hitems).1 (by simp [Json.isSettings])
  · intro members hparse
    obtain ⟨hnames, hall⟩ := hgood hparse
    have hmembers := holdsMembers_of_parse hparse
    simp only [hmembers.parse_iff (fun _ _ => rfl) hnames hall .builtIn]
    exact exists_fillByName_settings_iff hall

/-- Settings in another order than their own, with some of the badges. -/
theorem loadSettings_iff_parse_partial :
    let text := "\x7b\"credit\": true, \"badges\": \x7b\"go_doc\": true\x7d, \"title\": \"T\"\x7d"
    let world : World :=
      { files := { entries := [(["readmegen.json"], .file text.toUTF8.toList)] },
        environment := [("HOME", "/")] }
    let invocation : Invocation := { manifest := "packages.json" }
    let settings : Settings := { title := "T", credit := true, badges := { goDoc := true } }
    settingsSource world invocation = .ok (some ("./readmegen.json", "readmegen.json")) ∧
      world.files.read "readmegen.json" = .ok text.toUTF8.toList ∧
      (∀ var ∈ world.environment, Environment.path? var.1 = none) ∧ invocation.given = [] ∧
      (∀ json, Json.parse text = .ok json → json.isSettings = true ∧ json.settingsStand = true) ∧
      Settings.parse text = .ok settings ∧ (loadSettings world invocation).1 = .ok settings := by
  intro text world invocation settings
  have hsource : settingsSource world invocation =
      .ok (some ("./readmegen.json", "readmegen.json")) :=
    eq_ok_of_toOption (by decide +kernel +zetaReduce)
  have hread : world.files.read "readmegen.json" = .ok text.toUTF8.toList :=
    eq_ok_of_toOption (by decide +kernel +zetaReduce)
  have henvironment : ∀ var ∈ world.environment, Environment.path? var.1 = none := by
    decide +kernel +zetaReduce
  have hgiven : invocation.given = [] := rfl
  have hall : (Json.parse text).toOption.all
      (fun json => json.isSettings && json.settingsStand) = true := by
    decide +kernel +zetaReduce
  have htext : ∀ json, Json.parse text = .ok json →
      json.isSettings = true ∧ json.settingsStand = true := by
    intro json hjson
    rw [hjson] at hall
    exact Bool.and_eq_true_iff.1 hall
  have hparse : Settings.parse text = .ok settings :=
    eq_ok_of_toOption (by decide +kernel +zetaReduce)
  have hagree := loadSettings_iff_parse hsource hread henvironment hgiven htext
  exact ⟨hsource, hread, henvironment, hgiven, htext, hparse, (hagree.1 settings).2 hparse⟩

/-- A file may have a member among its badges that says where they come from. In a text of settings
that is an unknown badge. -/
theorem loadSettings_of_originMember :
    let text := "\x7b\"badges\": \x7b\"___figment_value_id\": 3, \"go_doc\": true\x7d\x7d"
    let world : World := { files := { entries :=
      [(["readmegen.json"], .file text.toUTF8.toList)] } }
    let invocation : Invocation := { manifest := "m.json" }
    settingsSource world invocation = .ok (some ("./readmegen.json", "readmegen.json")) ∧
      world.files.read "readmegen.json" = .ok text.toUTF8.toList ∧ invocation.given = [] ∧
      (∃ json, Json.parse text = .ok json ∧ json.isSettings = true) ∧
      (loadSettings world invocation).1 = .ok { badges := { goDoc := true } } ∧
      ∀ settings, Settings.parse text ≠ .ok settings := by
  intro text world invocation
  refine ⟨eq_ok_of_toOption (by decide +kernel +zetaReduce),
    eq_ok_of_toOption (by decide +kernel +zetaReduce), rfl, ?_,
    eq_ok_of_toOption (by decide +kernel +zetaReduce), ?_⟩
  · have hany : (Json.parse text).toOption.any Json.isSettings = true := by
      decide +kernel +zetaReduce
    cases hjson : Json.parse text with
    | error rejection =>
      rw [hjson] at hany
      cases hany
    | ok json =>
      rw [hjson] at hany
      exact ⟨json, rfl, hany⟩
  · intro settings hsettings
    have hnone : (Settings.parse text).toOption = none := by
      decide +kernel +zetaReduce
    rw [hsettings] at hnone
    cases hnone

end PackageReadme
