import Mathlib.Data.List.Pairwise
import PackageReadme.Json.Record
import PackageReadme.Proofs.Keyed

/-! Records are taken from a value whatever the order of its members.

The members of a value are put into a record in the order of their names. Where each field keeps to
a place of its own (`Field.Apart`), any other order gives the same record (`putMembers_perm`), so
that a record is taken from a value if its members put it together in the order in which they are
written (`recordOf_object`). -/
namespace PackageReadme.Json

section
variable {ρ : Type}

/-- It does not matter which of two fields is put in place first. -/
def Field.Apart (field other : Field ρ) : Prop :=
  ∀ json json' put put', field.ofJson json = .ok put → other.ofJson json' = .ok put' →
    ∀ record, put (put' record) = put' (put record)

instance : Std.Symm (Field.Apart (ρ := ρ)) where
  symm _ _ h json json' put put' hput hput' record := (h json' json put' put hput' hput record).symm

theorem Field.apart_of {α β : Type} {name name' : String} {decoder : Decoder α}
    {decoder' : Decoder β} {put : α → ρ → ρ} {put' : β → ρ → ρ}
    (h : ∀ a b record, put a (put' b record) = put' b (put a record)) :
    (Field.of name decoder put).Apart (Field.of name' decoder' put') := by
  intro json json' field field' hfield hfield' record
  simp only [Field.of] at hfield hfield'
  cases hvalue : decoder.ofJson json with
  | error => simp [hvalue, Except.map] at hfield
  | ok value =>
    cases hvalue' : decoder'.ofJson json' with
    | error => simp [hvalue', Except.map] at hfield'
    | ok value' =>
      simp only [hvalue, hvalue', Except.map, Except.ok.injEq] at hfield hfield'
      rw [← hfield, ← hfield']
      exact h value value' record

/-! ### Members in another order -/

/-- What a member does to a record. -/
def Shape.effect (shape : Shape ρ) (member : String × Json) : Except Cause (ρ → ρ) :=
  match shape.field? member.1 with
  | none => if shape.strict then .error (shape.unknown member.1) else .ok id
  | some field => field.ofJson member.2

theorem putMembers_cons_eq_ok_iff {shape : Shape ρ} {record last : ρ} {member : String × Json}
    {members : List (String × Json)} :
    putMembers shape record (member :: members) = .ok last ↔
      ∃ put, shape.effect member = .ok put ∧ putMembers shape (put record) members = .ok last := by
  obtain ⟨name, json⟩ := member
  rw [putMembers, Shape.effect]
  cases shape.field? name with
  | none => cases shape.strict <;> simp
  | some field => cases hput : field.ofJson json <;> simp [hput]

theorem Shape.effect_comm {shape : Shape ρ} (hapart : shape.fields.Pairwise Field.Apart)
    {member other : String × Json} (hnames : member.1 ≠ other.1) {put put' : ρ → ρ}
    (hput : shape.effect member = .ok put) (hput' : shape.effect other = .ok put') (record : ρ) :
    put (put' record) = put' (put record) := by
  unfold Shape.effect at hput hput'
  cases hfield : shape.field? member.1 with
  | none =>
    simp only [hfield] at hput
    split at hput <;> cases hput
    rfl
  | some field =>
    cases hfield' : shape.field? other.1 with
    | none =>
      simp only [hfield'] at hput'
      split at hput' <;> cases hput'
      rfl
    | some field' =>
      simp only [hfield] at hput
      simp only [hfield'] at hput'
      have hname : field.name = member.1 := by simpa using List.find?_some hfield
      have hname' : field'.name = other.1 := by simpa using List.find?_some hfield'
      have hne : field ≠ field' := by
        rintro rfl
        exact hnames (hname.symm.trans hname')
      exact hapart.forall (List.mem_of_find?_eq_some hfield) (List.mem_of_find?_eq_some hfield') hne
        _ _ _ _ hput hput' record

/-- **Members in another order put the same record together.** -/
theorem putMembers_perm {shape : Shape ρ} (hapart : shape.fields.Pairwise Field.Apart)
    {members others : List (String × Json)} (hperm : members.Perm others)
    (hnames : (members.map Prod.fst).Nodup) {record last : ρ}
    (h : putMembers shape record members = .ok last) :
    putMembers shape record others = .ok last := by
  induction hperm generalizing record with
  | nil => exact h
  | cons member _ ih =>
    rw [List.map_cons, List.nodup_cons] at hnames
    obtain ⟨put, hput, hrest⟩ := putMembers_cons_eq_ok_iff.mp h
    exact putMembers_cons_eq_ok_iff.mpr ⟨put, hput, ih hnames.2 hrest⟩
  | swap other member members =>
    obtain ⟨put, hput, hrest⟩ := putMembers_cons_eq_ok_iff.mp h
    obtain ⟨put', hput', hrest⟩ := putMembers_cons_eq_ok_iff.mp hrest
    simp only [List.map_cons, List.nodup_cons, List.mem_cons, not_or] at hnames
    rw [← shape.effect_comm hapart hnames.1.1 hput hput'] at hrest
    exact putMembers_cons_eq_ok_iff.mpr ⟨put', hput',
      putMembers_cons_eq_ok_iff.mpr ⟨put, hput, hrest⟩⟩
  | trans hfirst _ ih ih' =>
    have hmiddle := ((hfirst.map Prod.fst).nodup_iff).mp hnames
    exact ih' hmiddle (ih hnames h)

theorem recordOf_object {shape : Shape ρ} (hapart : shape.fields.Pairwise Field.Apart)
    {members : List (String × Json)} (hnames : (members.map Prod.fst).Nodup) {record : ρ}
    (h : putMembers shape shape.initial members = .ok record) :
    recordOf shape (.object members) = .ok record := by
  have hperm := (Keyed.perm_ofEntries hnames).symm
  exact putMembers_perm hapart hperm hnames h

end
end PackageReadme.Json
