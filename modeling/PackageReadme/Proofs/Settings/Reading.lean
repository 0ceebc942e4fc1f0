import Mathlib.Data.List.Forall2
import PackageReadme.Proofs.Json.AnyValue
import PackageReadme.Proofs.Settings.Filling

/-! Records read straight from a text, and records taken out of any value that the text holds.

A field that is read from a text and a slot that takes a setting correspond if they give the same
for every value (`Corresponds`). Then so do a strict record and the slots of its fields: the members
that are read fill the slots with what the fields read (`readFields_iff`). This needs that no name
stands twice, and that no value is an object that another value stands for. -/
namespace PackageReadme
open Setting

/-! ### Values that stand for themselves -/

/-- No member of an object stands for the object or says where it comes from. -/
def Json.standsForItself : Json → Bool
  | .object members => members.all fun member => decide (IsPlain member.1)
  | _ => true

/-- The settings that the members of an object give. -/
def settingsOf (origin : Origin) (members : List (String × Json)) : List (String × Setting) :=
  members.map fun member => (member.1, ofJson origin member.2)

theorem map_fst_settingsOf (origin : Origin) (members : List (String × Json)) :
    (settingsOf origin members).map Prod.fst = members.map Prod.fst := by
  rw [settingsOf, List.map_map]
  rfl

theorem get?_settingsOf (origin : Origin) (n : String) (members : List (String × Json)) :
    Keyed.get? n (settingsOf origin members) = (Keyed.get? n members).map (ofJson origin) :=
  Keyed.get?_map (fun _ => ofJson origin) n members

theorem ofJson_object_of_standsForItself (origin : Origin) {members : List (String × Json)}
    (h : (Json.object members).standsForItself = true) :
    ofJson origin (.object members) = .table origin (Keyed.ofEntries (settingsOf origin members)) :=
  ofJson_object origin fun member hmem => of_decide_eq_true (List.all_eq_true.1 h member hmem)

/-- The value of a JSON value that has no parts. -/
def Json.scalar? : Json → Option Scalar
  | .null => some .nothing
  | .bool b => some (.bool b)
  | .number n => some (.number n)
  | .string s => some (.text s)
  | .array _ | .object _ => none

theorem scalar?_ofJson (origin : Origin) {json : Json} (h : json.standsForItself = true) :
    (ofJson origin json).scalar? = json.scalar? := by
  cases json with
  | object members =>
    rw [ofJson_object_of_standsForItself origin h]
    rfl
  | _ =>
    rw [ofJson]
    rfl

theorem shows_ofJson_bool {origin : Origin} {json : Json} (h : json.standsForItself = true)
    {b : Bool} :
    Shows (ofJson origin json) (.bool b) ↔ json = .bool b := by
  rw [Shows, scalar?_ofJson origin h]
  cases json <;> simp [Json.scalar?]

theorem shows_ofJson_text {origin : Origin} {json : Json} (h : json.standsForItself = true)
    {text : String} :
    Shows (ofJson origin json) (.text text) ↔ json = .string text := by
  rw [Shows, scalar?_ofJson origin h]
  cases json <;> simp [Json.scalar?]

theorem takeBool_iff {setting : Setting} {b : Bool} :
    takeBool setting = .ok b ↔ Shows setting (.bool b) := by
  constructor
  · intro h
    unfold takeBool at h
    split at h
    · cases h
      rfl
    · cases h
  · intro h
    obtain ⟨origin, rfl⟩ := h.exists_scalar
    rfl

theorem takeText_iff {setting : Setting} {text : String} :
    takeText setting = .ok text ↔ Shows setting (.text text) := by
  constructor
  · intro h
    unfold takeText at h
    split at h
    · cases h
      rfl
    · cases h
  · intro h
    obtain ⟨origin, rfl⟩ := h.exists_scalar
    rfl

/-! ### Values of one type -/

/-- A decoder agrees with taking settings out of the values that another decoder reads: where it
reads something so does the other, and for good values both give the same. -/
structure Agrees {α : Type} (origin : Origin) (any : Json.Decoder Json) (Good : Json → Prop)
    (decoder : Json.Decoder α) (take : Setting → Except SettingFault α) : Prop where
  reads : ∀ {s value rest}, decoder.read s = .ok (value, rest) →
    ∃ json, any.read s = .ok (json, rest) ∧ (Good json → take (ofJson origin json) = .ok value)
  takes : ∀ {s json value rest}, any.read s = .ok (json, rest) → Good json →
    take (ofJson origin json) = .ok value → decoder.read s = .ok (value, rest)

theorem Agrees.mono {α : Type} {origin : Origin} {any : Json.Decoder Json}
    {Good Better : Json → Prop} {decoder : Json.Decoder α} {take : Setting → Except SettingFault α}
    (h : Agrees origin any Good decoder take) (hgood : ∀ json, Better json → Good json) :
    Agrees origin any Better decoder take where
  reads hread := by
    obtain ⟨json, hany, htake⟩ := h.reads hread
    exact ⟨json, hany, fun hjson => htake (hgood json hjson)⟩
  takes hany hjson htake := h.takes hany (hgood _ hjson) htake

variable {origin : Origin} {isMark : String → Bool} {depth : Nat}

theorem agrees_bool :
    Agrees origin (.marked isMark depth) (fun json => json.standsForItself = true) .bool
      takeBool where
  reads hread :=
    ⟨.bool _, (Json.ReadsMarked.scalar (Json.readsScalar_of_readBool hread)).read,
      fun hjson => takeBool_iff.2 ((shows_ofJson_bool hjson).2 rfl)⟩
  takes hany hjson htake := by
    obtain rfl := (shows_ofJson_bool hjson).1 (takeBool_iff.1 htake)
    exact (Json.readsMarked_of_read hany).readBool

theorem agrees_string :
    Agrees origin (.marked isMark depth) (fun json => json.standsForItself = true) .string
      takeText where
  reads hread :=
    ⟨.string _, (Json.ReadsMarked.scalar (Json.readsScalar_of_readString hread)).read,
      fun hjson => takeText_iff.2 ((shows_ofJson_text hjson).2 rfl)⟩
  takes hany hjson htake := by
    obtain rfl := (shows_ofJson_text hjson).1 (takeText_iff.1 htake)
    exact (Json.readsMarked_of_read hany).readString

/-! ### Fields and slots -/

section
variable {ρ : Type} {any : Json.Decoder Json} {Good : String → Json → Prop}

/-- A field and a slot of one name, whose values agree and are put in one place. -/
inductive Corresponds (origin : Origin) (any : Json.Decoder Json) (Good : String → Json → Prop) :
    Json.Field ρ → Slot ρ → Prop
  | of {α : Type} {decoder : Json.Decoder α} {take : Setting → Except SettingFault α}
    (name : String) (put : α → ρ → ρ) : Agrees origin any (Good name) decoder take →
      Corresponds origin any Good (.of name decoder put)
        ⟨name, fun setting => (take setting).map put⟩

theorem Corresponds.name_eq {field : Json.Field ρ} {slot : Slot ρ}
    (h : Corresponds origin any Good field slot) :
    field.name = slot.name := by
  cases h
  rfl

theorem Corresponds.reads {field : Json.Field ρ} {slot : Slot ρ}
    (h : Corresponds origin any Good field slot) {s rest : List Char} {put : ρ → ρ}
    (hread : field.read s = .ok (put, rest)) :
    ∃ json, any.read s = .ok (json, rest) ∧
      (Good field.name json → slot.take (ofJson origin json) = .ok put) := by
  cases h with
  | @of α decoder take name change hagrees =>
    change Json.readField decoder change s = .ok (put, rest) at hread
    unfold Json.readField at hread
    split at hread
    · rename_i value after hvalue
      cases hread
      obtain ⟨json, hany, htake⟩ := hagrees.reads hvalue
      refine ⟨json, hany, fun hgood => ?_⟩
      show (take (ofJson origin json)).map change = .ok (change value)
      rw [htake hgood]
      rfl
    · cases hread

theorem Corresponds.takes {field : Json.Field ρ} {slot : Slot ρ}
    (h : Corresponds origin any Good field slot) {s rest : List Char} {json : Json} {put : ρ → ρ}
    (hany : any.read s = .ok (json, rest)) (hgood : Good field.name json)
    (htake : slot.take (ofJson origin json) = .ok put) :
    field.read s = .ok (put, rest) := by
  cases h with
  | @of α decoder take name change hagrees =>
    obtain ⟨value, hvalue, rfl⟩ := map_eq_ok_iff.mp htake
    show Json.readField decoder change s = .ok (change value, rest)
    simp only [Json.readField, hagrees.takes hany hgood hvalue]

theorem rel_find?_of_corresponds {fields : List (Json.Field ρ)} {slots : List (Slot ρ)}
    (h : List.Forall₂ (Corresponds origin any Good) fields slots) (name : String) :
    Option.Rel (Corresponds origin any Good) (fields.find? (·.name = name))
      (slots.find? (·.name = name)) := by
  induction h with
  | nil => exact .none
  | @cons field slot fields slots hfield _ ih =>
    rw [List.find?_cons, List.find?_cons, hfield.name_eq]
    by_cases hname : slot.name = name
    · simp only [hname, decide_true]
      exact .some hfield
    · simp only [hname, decide_false]
      exact ih

/-! ### Records -/

/-- A strict record and the slots of its fields, where the members that are fields are read as any
value. -/
structure Matches (origin : Origin) (any : Json.Decoder Json) (Good : String → Json → Prop)
    (item : String → Json.Decoder Json) (shape : Json.Shape ρ) (slots : List (Slot ρ)) : Prop where
  fields : List.Forall₂ (Corresponds origin any Good) shape.fields slots
  strict : shape.strict = true
  item : ∀ field ∈ shape.fields, item field.name = any

variable {shape : Json.Shape ρ} {slots : List (Slot ρ)} {item : String → Json.Decoder Json}

theorem Matches.find?_slot (h : Matches origin any Good item shape slots) {name : String}
    {field : Json.Field ρ} (hfield : shape.field? name = some field) :
    ∃ slot, slots.find? (·.name = name) = some slot ∧ Corresponds origin any Good field slot := by
  have hrel := rel_find?_of_corresponds h.fields name
  rw [show shape.fields.find? (·.name = name) = some field from hfield] at hrel
  cases hslot : slots.find? (·.name = name) with
  | none =>
    rw [hslot] at hrel
    cases hrel
  | some slot =>
    rw [hslot] at hrel
    cases hrel with
    | some hcorresponds => exact ⟨slot, rfl, hcorresponds⟩

theorem Matches.find?_field (h : Matches origin any Good item shape slots) {name : String}
    {slot : Slot ρ} (hslot : slots.find? (·.name = name) = some slot) :
    ∃ field, shape.field? name = some field ∧ Corresponds origin any Good field slot := by
  have hrel := rel_find?_of_corresponds h.fields name
  rw [hslot] at hrel
  cases hfield : shape.fields.find? (·.name = name) with
  | none =>
    rw [hfield] at hrel
    cases hrel
  | some field =>
    rw [hfield] at hrel
    cases hrel with
    | some hcorresponds => exact ⟨field, hfield, hcorresponds⟩

theorem name_of_field? {name : String} {field : Json.Field ρ} (h : shape.field? name = some field) :
    field.name = name := by
  simpa using List.find?_some h

theorem Matches.item_eq (h : Matches origin any Good item shape slots) {name : String}
    {field : Json.Field ρ} (hfield : shape.field? name = some field) : item name = any :=
  name_of_field? hfield ▸ h.item field (List.mem_of_find?_eq_some hfield)

/-- Where a record is read, so are the members of an object, and what they give fills the slots. -/
theorem Matches.exists_readMembers (h : Matches origin any Good item shape slots) {first : Bool}
    {seen : List String} {record result : ρ} {s rest : List Char}
    (hread : Json.readFields shape first seen record s = .ok (result, rest)) :
    ∃ members, Json.readMembers item first s = .ok (members, rest) ∧
      ((∀ member ∈ members, Good member.1 member.2) →
        fillByName slots record (settingsOf origin members) = .ok result) := by
  fun_induction Json.readFields shape first seen record s with
  | case2 first seen record s rest hname =>
    cases hread
    exact ⟨[], Json.readMembers_end hname, fun _ => rfl⟩
  | case6 first seen record s name t hname _ hfield hlax => exact absurd h.strict hlax
  | case10 first seen record s name t hname _ field hfield hseen u hcolon put after hput _ _ ih =>
    obtain ⟨slot, hslot, hcorresponds⟩ := h.find?_slot hfield
    obtain ⟨json, hany, htake⟩ := hcorresponds.reads hput
    obtain ⟨members, hmembers, hfill⟩ := ih hread
    rw [← h.item_eq hfield] at hany
    refine ⟨(name, json) :: members, Json.readMembers_member hname hcolon hany hmembers,
      fun hgood => ?_⟩
    have hjson : Good field.name json := name_of_field? hfield ▸ hgood (name, json) (.head _)
    exact fillByName_cons_iff.2 ⟨slot, put, hslot, htake hjson,
      hfill fun member hmem => hgood member (.tail _ hmem)⟩
  | _ => cases hread

/-- Members that fill the slots are read as a record, if no name stands twice. -/
theorem Matches.readFields (h : Matches origin any Good item shape slots) {first : Bool}
    {seen : List String} {record result : ρ} {s rest : List Char} {members : List (String × Json)}
    (hread : Json.readMembers item first s = .ok (members, rest))
    (hnames : (members.map Prod.fst).Nodup) (hseen : ∀ member ∈ members, member.1 ∉ seen)
    (hgood : ∀ member ∈ members, Good member.1 member.2)
    (hfill : fillByName slots record (settingsOf origin members) = .ok result) :
    Json.readFields shape first seen record s = .ok (result, rest) := by
  fun_induction Json.readMembers item first s generalizing members seen record rest with
  | case2 first s after hname =>
    cases hread
    cases hfill
    exact Json.readFields_end hname seen _
  | case5 first s name t hname u hcolon json after hjson _ _ _ others last hothers ih =>
    cases hread
    rw [List.map_cons, List.nodup_cons] at hnames
    obtain ⟨slot, put, hslot, htake, hrest⟩ := fillByName_cons_iff.1 hfill
    obtain ⟨field, hfield, hcorresponds⟩ := h.find?_field hslot
    rw [h.item_eq hfield] at hjson
    have hput := hcorresponds.takes hjson
      (name_of_field? hfield ▸ hgood (name, json) (.head _)) htake
    rw [Json.readFields_field hname hcolon hfield (hseen (name, json) (.head _)) hput]
    -- The name is among those seen from here on, and none of the others is the same.
    refine ih hothers hnames.2 (fun member hmem hin => ?_)
      (fun member hmem => hgood member (.tail _ hmem)) hrest
    rcases List.mem_cons.1 hin with heq | hin
    · exact hnames.1 (List.mem_map.2 ⟨member, hmem, heq⟩)
    · exact hseen member (.tail _ hmem) hin
  | _ => cases hread

/-- **A record is read** from an object if and only if the members that are read fill its slots, and
to the same end. -/
theorem Matches.readFields_iff (h : Matches origin any Good item shape slots) {record result : ρ}
    {s rest : List Char} {members : List (String × Json)}
    (hread : Json.readMembers item true s = .ok (members, rest))
    (hnames : (members.map Prod.fst).Nodup) (hgood : ∀ member ∈ members, Good member.1 member.2) :
    Json.readFields shape true [] record s = .ok (result, rest) ↔
      fillByName slots record (settingsOf origin members) = .ok result := by
  constructor
  · intro hfields
    obtain ⟨others, hothers, hfill⟩ := h.exists_readMembers hfields
    rw [hread] at hothers
    cases hothers
    exact hfill hgood
  · intro hfill
    exact h.readFields hread hnames (by simp) hgood hfill

theorem nextItem_of_endList {first : Bool} {s rest : List Char} (h : Json.endList s = .ok rest) :
    Json.nextItem first s = .ok none := by
  unfold Json.endList at h
  unfold Json.nextItem
  split at h
  · cases h
  · rename_i c after hs
    split at h
    · rename_i hc
      simp only [if_pos hc]
    · split at h <;> cases h

/-- Where a record is read by position, so is a list. -/
theorem exists_readItems_of_readPositions {fields : List (Json.Field ρ)}
    (h : List.Forall₂ (Corresponds origin any Good) fields slots) {first : Bool} {record result : ρ}
    {s rest : List Char} (hread : Json.readPositions first record fields s = .ok (result, rest)) :
    ∃ items, Json.readItems any first s = .ok (items, rest) := by
  induction h generalizing first record s with
  | nil =>
    rw [Json.readPositions] at hread
    split at hread
    · rename_i after hend
      cases hread
      exact ⟨[], Json.readItems_end (nextItem_of_endList hend) hend⟩
    · cases hread
  | cons hfield _ ih =>
    rw [Json.readPositions] at hread
    split at hread
    · cases hread
    · exact ih hread
    · rename_i t hnext
      split at hread
      · cases hread
      · rename_i put after hput
        obtain ⟨json, hany, -⟩ := hfield.reads hput
        obtain ⟨items, hitems⟩ := ih hread
        exact ⟨json :: items, Json.readItems_item hnext hany hitems⟩

/-! ### Objects in objects -/

/-- An object that names no member twice, none of which stands for another, and the members are
good. -/
def IsGoodObject (Good : String → Json → Prop) (json : Json) : Prop :=
  json.standsForItself = true ∧ ∃ members, json = .object members ∧ (members.map Prod.fst).Nodup ∧
    ∀ member ∈ members, Good member.1 member.2

variable {ι : Type} {γ : ι → Type} {name : ι → String} {view : (i : ι) → ρ → γ i}
  {Gives : (i : ι) → Setting → γ i → Prop}

/-- The order in which members are written does not matter for the slots that they fill. -/
theorem Views.fillByName_ofEntries (hviews : Views slots name view Gives) {record result : ρ}
    {members : List (String × Json)} (hnames : (members.map Prod.fst).Nodup) :
    fillByName slots record (Keyed.ofEntries (settingsOf origin members)) = .ok result ↔
      fillByName slots record (settingsOf origin members) = .ok result := by
  have hkeys : ((settingsOf origin members).map Prod.fst).Nodup := by
    rwa [map_fst_settingsOf]
  exact hviews.fillByName_congr (Keyed.ascending_ofEntries _).nodup_keys hkeys fun n =>
    Keyed.get?_ofEntries n hkeys

/-- A strict record agrees with taking its slots out of a table. -/
theorem Matches.agrees (hviews : Views slots name view Gives) (title : String)
    (h : Matches origin (.marked isMark depth) Good (.member isMark depth) shape slots) :
    Agrees origin (.marked isMark (depth + 1)) (IsGoodObject Good) (.record shape)
      (takeRecord title slots shape.initial) where
  reads {s value rest} hread := by
    change Json.readRecord shape s = .ok (value, rest) at hread
    unfold Json.readRecord at hread
    split at hread
    · rename_i t hs
      obtain ⟨members, hmembers, hfill⟩ := h.exists_readMembers hread
      refine ⟨.object members, (Json.ReadsMarked.object hs hmembers).read, fun hgood => ?_⟩
      obtain ⟨hstands, others, heq, hnames, hall⟩ := hgood
      obtain rfl : members = others := Json.object.inj heq
      rw [ofJson_object_of_standsForItself origin hstands]
      exact (hviews.fillByName_ofEntries hnames).2 (hfill hall)
    · rename_i t hs
      obtain ⟨items, hitems⟩ := exists_readItems_of_readPositions h.fields hread
      refine ⟨.array items, (Json.ReadsMarked.array hs hitems).read, fun hgood => ?_⟩
      obtain ⟨-, _, heq, -⟩ := hgood
      cases heq
    · cases hread
  takes {s json value rest} hany hgood htake := by
    obtain ⟨hstands, members, rfl, hnames, hall⟩ := hgood
    obtain ⟨t, hs, hmembers⟩ := (Json.readsMarked_of_read hany).exists_readMembers
    rw [ofJson_object_of_standsForItself origin hstands] at htake
    have hfill := (hviews.fillByName_ofEntries hnames).1 htake
    show Json.readRecord shape s = .ok (value, rest)
    rw [Json.readRecord, hs]
    exact (h.readFields_iff hmembers hnames hall).2 hfill

end

/-! ### Badges and settings -/

theorem Corresponds.bool {ρ : Type} {Good : String → Json → Prop} {name : String}
    (hgood : ∀ json, Good name json → json.standsForItself = true) (put : Bool → ρ → ρ) :
    Corresponds origin (.marked isMark depth) Good (.of name .bool put) (.bool name put) :=
  .of name put (agrees_bool.mono hgood)

theorem Corresponds.text {ρ : Type} {Good : String → Json → Prop} {name : String}
    (hgood : ∀ json, Good name json → json.standsForItself = true) (put : String → ρ → ρ) :
    Corresponds origin (.marked isMark depth) Good (.of name .string put) (.text name put) :=
  .of name put (agrees_string.mono hgood)

/-- A badge of a good value. -/
def IsGoodBadge (_ : String) (json : Json) : Prop :=
  json.standsForItself = true

/-- A setting of a good value. -/
def IsGoodSetting (name : String) (json : Json) : Prop :=
  json.standsForItself = true ∧ (name = "badges" → IsGoodObject IsGoodBadge json)

theorem Badges.agrees (hmarks : ∀ field ∈ Badges.shape.fields, isMark field.name = false) :
    Agrees origin (.marked isMark (depth + 1)) (IsGoodObject IsGoodBadge)
      Badges.decoder Badges.take := by
  refine Matches.agrees Badges.views "struct Badges" ⟨?_, rfl, fun field hfield => ?_⟩
  · have hgood (name : String) (json : Json) (h : IsGoodBadge name json) :
        json.standsForItself = true := h
    exact .cons (.bool (hgood _) _) <| .cons (.bool (hgood _) _) <| .cons (.bool (hgood _) _) <|
      .cons (.bool (hgood _) _) <| .cons (.bool (hgood _) _) .nil
  · rw [Json.Decoder.member, hmarks field hfield]
    rfl

theorem Settings.matches (hmarks : ∀ field ∈ Badges.shape.fields, isMark field.name = false) :
    Matches origin (.marked isMark (depth + 1)) IsGoodSetting (fun _ => .marked isMark (depth + 1))
      Settings.shape Settings.slots := by
  refine ⟨?_, rfl, fun _ _ => rfl⟩
  have hgood (name : String) (json : Json) (h : IsGoodSetting name json) :
      json.standsForItself = true := h.1
  exact .cons (.text (hgood _) _) <| .cons (.text (hgood _) _) <| .cons (.bool (hgood _) _) <|
    .cons (.bool (hgood _) _) <| .cons (.bool (hgood _) _) <| .cons (.bool (hgood _) _) <|
    .cons (.bool (hgood _) _) <| .cons (.bool (hgood _) _) <| .cons (.bool (hgood _) _) <|
    .cons (.bool (hgood _) _) <| .cons (.bool (hgood _) _) <| .cons (.bool (hgood _) _) <|
    .cons (.of "badges" _ ((Badges.agrees hmarks).mono fun json h => h.2 rfl)) <|
      .cons (.bool (hgood _) _) .nil

end PackageReadme
