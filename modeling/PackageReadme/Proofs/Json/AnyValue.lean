import PackageReadme.Json.Reader
import PackageReadme.Proofs.Json.Codes
import PackageReadme.Proofs.Results

/-! Reading any value, and reading a value of one type.

What is read as any value is known from its first character: a scalar, a list of items or an object
of members (`ReadsScalar`, `ReadsMarked`). So a flag or a text is read where any value is, and is
that value. Holding some members to whole numbers refuses more texts and changes no value
(`ReadsMarked.any`). -/
namespace PackageReadme.Json

/-! ### Scalars -/

/-- What a scalar is read from. -/
inductive ReadsScalar : List Char → Json → List Char → Prop
  | null {s rest : List Char} :
      keyword ['u', 'l', 'l'] s = .ok rest → ReadsScalar ('n' :: s) .null rest
  | true {s rest : List Char} :
      keyword ['r', 'u', 'e'] s = .ok rest → ReadsScalar ('t' :: s) (.bool true) rest
  | false {s rest : List Char} :
      keyword ['a', 'l', 's', 'e'] s = .ok rest → ReadsScalar ('f' :: s) (.bool false) rest
  | string {s chars rest : List Char} : stringBody s = .ok (chars, rest) →
    ReadsScalar ('"' :: s) (.string (String.ofList chars)) rest
  | number {s rest : List Char} {n : Number} :
    readNumber? s = some (.ok (n, rest)) → ReadsScalar s (.number n) rest

theorem readScalar?_iff {s rest : List Char} {json : Json} :
    readScalar? s = some (.ok (json, rest)) ↔ ReadsScalar s json rest := by
  constructor
  · intro h
    unfold readScalar? at h
    split at h
    · obtain ⟨after, hafter, heq⟩ := map_eq_ok_iff.mp (Option.some.inj h)
      cases heq
      exact .null hafter
    · obtain ⟨after, hafter, heq⟩ := map_eq_ok_iff.mp (Option.some.inj h)
      cases heq
      exact .true hafter
    · obtain ⟨after, hafter, heq⟩ := map_eq_ok_iff.mp (Option.some.inj h)
      cases heq
      exact .false hafter
    · obtain ⟨after, hafter, heq⟩ := map_eq_ok_iff.mp (Option.some.inj h)
      cases heq
      exact .string hafter
    · obtain ⟨reading, hreading, h⟩ := Option.map_eq_some_iff.1 h
      obtain ⟨after, rfl, heq⟩ := map_eq_ok_iff.mp h
      cases heq
      exact .number hreading
  · intro h
    cases h with
    | null hk => simp [readScalar?, hk, Except.map]
    | true hk => simp [readScalar?, hk, Except.map]
    | false hk => simp [readScalar?, hk, Except.map]
    | string hbody => simp [readScalar?, hbody, Except.map]
    | number hnumber =>
      -- A number starts with its sign or a digit, so none of the letters or the quote stands there.
      unfold readScalar?
      split <;> simp_all [readNumber?, Except.map]

theorem ReadsScalar.readBool {s t rest : List Char} {b : Bool} (hs : skipBlanks s = t)
    (h : ReadsScalar t (.bool b) rest) : Json.readBool s = .ok (b, rest) := by
  unfold Json.readBool
  cases h with
  | true hk => simp only [hs, hk]
  | false hk => simp only [hs, hk]

theorem readsScalar_of_readBool {s rest : List Char} {b : Bool} (h : readBool s = .ok (b, rest)) :
    ReadsScalar (skipBlanks s) (.bool b) rest := by
  unfold readBool at h
  split at h
  · rename_i t heq
    split at h
    · rename_i after hk
      cases h
      exact heq ▸ .true hk
    · cases h
  · rename_i t heq
    split at h
    · rename_i after hk
      cases h
      exact heq ▸ .false hk
    · cases h
  · cases h

theorem ReadsScalar.readString {s t rest : List Char} {text : String} (hs : skipBlanks s = t)
    (h : ReadsScalar t (.string text) rest) : Json.readString s = .ok (text, rest) := by
  unfold Json.readString
  cases h with
  | string hbody => simp only [hs, hbody]

theorem readsScalar_of_readString {s rest : List Char} {text : String}
    (h : readString s = .ok (text, rest)) :
    ReadsScalar (skipBlanks s) (.string text) rest := by
  unfold readString at h
  split at h
  · rename_i t heq
    split at h
    · rename_i chars after hbody
      cases h
      exact heq ▸ .string hbody
    · cases h
  · cases h

/-! ### Values -/

/-- How the members of an object are read, where those of some names are whole numbers. -/
def Decoder.member (isMark : String → Bool) (depth : Nat) (name : String) : Decoder Json :=
  if isMark name then .mark depth else .marked isMark depth

/-- What any value is read from. -/
inductive ReadsMarked (isMark : String → Bool) : Nat → List Char → Json → List Char → Prop
  | scalar {depth : Nat} {s rest : List Char} {json : Json} : ReadsScalar (skipBlanks s) json rest →
    ReadsMarked isMark depth s json rest
  | array {depth : Nat} {s t rest : List Char} {items : List Json} : skipBlanks s = '[' :: t →
    readItems (.marked isMark depth) true t = .ok (items, rest) →
    ReadsMarked isMark (depth + 1) s (.array items) rest
  | object {depth : Nat} {s t rest : List Char} {members : List (String × Json)} :
    skipBlanks s = '\x7b' :: t →
    readMembers (Decoder.member isMark depth) true t = .ok (members, rest) →
    ReadsMarked isMark (depth + 1) s (.object members) rest

variable {isMark : String → Bool} {depth : Nat} {s rest : List Char} {json : Json}

theorem readsMarked_of_read (h : (Decoder.marked isMark depth).read s = .ok (json, rest)) :
    ReadsMarked isMark depth s json rest := by
  cases depth with
  | zero =>
    simp only [Decoder.marked] at h
    split at h
    · rename_i reading hscalar
      subst h
      exact .scalar (readScalar?_iff.1 hscalar)
    · split at h <;> cases h
  | succ depth =>
    simp only [Decoder.marked] at h
    split at h
    · rename_i reading hscalar
      subst h
      exact .scalar (readScalar?_iff.1 hscalar)
    · split at h
      · cases h
      · rename_i c t hs
        split at h
        · rename_i hc
          subst hc
          split at h
          · rename_i items after hitems
            cases h
            exact .array hs hitems
          · cases h
        · split at h
          · rename_i hc
            subst hc
            split at h
            · rename_i members after hmembers
              cases h
              exact .object hs hmembers
            · cases h
          · cases h

theorem ReadsMarked.read (h : ReadsMarked isMark depth s json rest) :
    (Decoder.marked isMark depth).read s = .ok (json, rest) := by
  cases h with
  | scalar hscalar =>
    rw [← readScalar?_iff] at hscalar
    cases depth <;> simp only [Decoder.marked, hscalar]
  | @array depth s t rest items hs hitems =>
    have hnone : readScalar? ('[' :: t) = none := rfl
    simp only [Decoder.marked, hs, hnone, hitems, if_true]
  | @object depth s t rest members hs hmembers =>
    have hnone : readScalar? ('\x7b' :: t) = none := rfl
    have hne : '\x7b' ≠ '[' := by
      decide
    unfold Decoder.member at hmembers
    simp only [Decoder.marked, hs, hnone, hmembers, hne, if_false, if_true]

theorem ReadsMarked.readBool {b : Bool} (h : ReadsMarked isMark depth s (.bool b) rest) :
    Json.readBool s = .ok (b, rest) := by
  cases h with
  | scalar hscalar => exact hscalar.readBool rfl

theorem ReadsMarked.readString {text : String}
    (h : ReadsMarked isMark depth s (.string text) rest) :
    Json.readString s = .ok (text, rest) := by
  cases h with
  | scalar hscalar => exact hscalar.readString rfl

theorem ReadsMarked.exists_readMembers {members : List (String × Json)}
    (h : ReadsMarked isMark (depth + 1) s (.object members) rest) :
    ∃ t, skipBlanks s = '\x7b' :: t ∧
      readMembers (Decoder.member isMark depth) true t = .ok (members, rest) := by
  cases h with
  | scalar hscalar =>
    generalize skipBlanks s = t at hscalar
    cases hscalar
  | object hs hmembers => exact ⟨_, hs, hmembers⟩

/-! ### Whole numbers -/

theorem readItems_mono {α : Type} {item other : Decoder α}
    (h : ∀ s r, item.read s = .ok r → other.read s = .ok r) {first : Bool} {s : List Char}
    {r : List α × List Char} (hread : readItems item first s = .ok r) :
    readItems other first s = .ok r := by
  fun_induction readItems item first s generalizing r with
  | case1 => cases hread
  | case2 first s hnext rest hend =>
    cases hread
    exact readItems_end hnext hend
  | case3 => cases hread
  | case4 => cases hread
  | case5 first s t hnext value rest hvalue _ _ values after hvalues ih =>
    cases hread
    exact readItems_item hnext (h _ _ hvalue) (ih hvalues)
  | case6 => cases hread

theorem readMembers_mono {α : Type} {item other : String → Decoder α}
    (h : ∀ name s r, (item name).read s = .ok r → (other name).read s = .ok r) {first : Bool}
    {s : List Char} {r : List (String × α) × List Char} (hread : readMembers item first s = .ok r) :
    readMembers other first s = .ok r := by
  fun_induction readMembers item first s generalizing r with
  | case1 => cases hread
  | case2 first s rest hname =>
    cases hread
    exact readMembers_end hname
  | case3 => cases hread
  | case4 => cases hread
  | case5 first s name t hname u hcolon value rest hvalue _ _ _ members after hmembers ih =>
    cases hread
    exact readMembers_member hname hcolon (h _ _ _ hvalue) (ih hmembers)
  | case6 => cases hread

theorem readsMarked_of_read_mark (h : (Decoder.mark depth).read s = .ok (json, rest))
    (isMark : String → Bool) :
    ReadsMarked isMark depth s json rest := by
  change readMark depth s = .ok (json, rest) at h
  unfold readMark at h
  split at h
  · rename_i n after hnumber
    cases h
    exact .scalar (.number hnumber)
  · cases h
  · cases h
  · cases h

/-- **A value that is read** where some members have to be whole numbers is read all the same where
they have not. -/
theorem ReadsMarked.any (h : ReadsMarked isMark depth s json rest) :
    (Decoder.any depth).read s = .ok (json, rest) := by
  apply ReadsMarked.read
  induction depth generalizing s json rest with
  | zero =>
    cases h with
    | scalar hscalar => exact .scalar hscalar
  | succ depth ih =>
    have hany (s : List Char) (r : Json × List Char)
        (hread : (Decoder.marked isMark depth).read s = .ok r) :
        (Decoder.any depth).read s = .ok r :=
      (ih (readsMarked_of_read hread)).read
    cases h with
    | scalar hscalar => exact .scalar hscalar
    | array hs hitems => exact .array hs (readItems_mono hany hitems)
    | object hs hmembers =>
      refine .object hs (readMembers_mono (fun name s r hread => ?_) hmembers)
      show (Decoder.any depth).read s = .ok r
      unfold Decoder.member at hread
      split at hread
      · exact (readsMarked_of_read_mark hread _).read
      · exact hany s r hread

/-! ### Whole texts -/

theorem parse_eq_ok_iff {α : Type} {decoder : Decoder α} {text : String} {value : α} :
    decoder.parse text = .ok value ↔
      ∃ rest, decoder.read text.toList = .ok (value, rest) ∧ skipBlanks rest = [] := by
  unfold Decoder.parse
  constructor
  · intro h
    simp only at h
    split at h
    · cases h
    · rename_i found rest hread
      split at h
      · rename_i hrest
        cases h
        exact ⟨rest, hread, hrest⟩
      · cases h
  · rintro ⟨rest, hread, hrest⟩
    simp only [hread, hrest]

end PackageReadme.Json
