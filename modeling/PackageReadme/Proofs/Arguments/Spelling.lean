import Mathlib.Data.List.Nodup
import Mathlib.Data.List.Perm.Basic
import Mathlib.Data.List.TakeWhile
import PackageReadme.Arguments.Parse

/-! Reading arguments undoes spelling them, in any order.

What an invocation asks for is a list of items, no two of which are for the same key. Each item is
spelled in one argument, or in two where a value stands apart from its letter (`Spells`). An item
that was read goes into its own place of the draft and into no other (`Draft.put_comm`), whether it
is settled at once or stays pending until the next one comes (`readAll_spelled`). So the arguments
of all items, in any order, give the invocation back (`parse_spelled`). -/
namespace PackageReadme.Arguments

/-! ### Items -/

/-- One thing that arguments ask for. -/
inductive Item where
  | manifest (path : String)
  | config (path : String)
  | output (path : String)
  | format (format : Format)
  | timeout (seconds : UInt64)
  | title (text : String)
  | shownPath (path : String)
  | switch (switch : Switch)
  deriving DecidableEq, Repr

namespace Item

/-- The parameter of an item and the text of its value, if it is not a switch. -/
def pair? : Item → Option (Parameter × String)
  | .manifest path => some (.manifest, path)
  | .config path => some (.config, path)
  | .output path => some (.output, path)
  | .format wanted => some (.format, wanted.name)
  | .timeout seconds => some (.timeout, seconds.toNat.repr)
  | .title text => some (.title, text)
  | .shownPath path => some (.importPath, path)
  | .switch _ => none

def key : Item → Key
  | .manifest _ => .parameter .manifest
  | .config _ => .parameter .config
  | .output _ => .parameter .output
  | .format _ => .parameter .format
  | .timeout _ => .parameter .timeout
  | .title _ => .parameter .title
  | .shownPath _ => .parameter .importPath
  | .switch which => .switch which

/-- The paths of files are not empty. -/
def IsNamed : Item → Prop
  | .manifest path => path ≠ ""
  | .config path => path ≠ ""
  | .output path => path ≠ ""
  | _ => True

theorem key_of_pair? {item : Item} {parameter : Parameter} {value : String}
    (h : item.pair? = some (parameter, value)) : item.key = .parameter parameter := by
  cases item <;> cases h <;> rfl

/-- A value that goes with a letter is the path of a file, so it is not empty. -/
theorem ne_empty_of_short? {item : Item} {parameter : Parameter} {value : String} {letter : Char}
    (h : item.pair? = some (parameter, value)) (hshort : parameter.short? = some letter)
    (hnamed : item.IsNamed) :
    value ≠ "" := by
  cases item <;> cases h
  case manifest => exact hnamed
  case config => exact hnamed
  case output => exact hnamed
  all_goals cases hshort

end Item

/-- What an invocation asks for. The usual format may be named as well. -/
def items (invocation : Invocation) (namesFormat : Bool) : List Item :=
  [.manifest invocation.manifest] ++ (invocation.config.map Item.config).toList ++
    (invocation.output.map Item.output).toList ++
    (if namesFormat || invocation.format ≠ .markdown then [.format invocation.format] else []) ++
    (invocation.timeout.map Item.timeout).toList ++ (invocation.title.map Item.title).toList ++
    (invocation.shownPath.map Item.shownPath).toList ++
    (Switch.all.filter invocation.isOn).map .switch

/-- A value that no dash and no equals sign stands in front of. -/
def IsBare (value : String) : Prop :=
  value.toList.head? ≠ some '-' ∧ value.toList.head? ≠ some '='

instance (value : String) : Decidable (IsBare value) :=
  inferInstanceAs (Decidable (_ ∧ _))

/-- The arguments that an item may be spelled with. -/
inductive Spells : Item → List String → Prop
  | long {item : Item} {parameter : Parameter} {value : String} :
    item.pair? = some (parameter, value) →
    Spells item ["--" ++ parameter.long ++ "=" ++ value]
  | switch (switch : Switch) : Spells (.switch switch) ["--" ++ switch.long]
  | apart {item : Item} {parameter : Parameter} {value : String} {letter : Char} :
    item.pair? = some (parameter, value) → parameter.short? = some letter → IsBare value →
    Spells item ["-" ++ String.singleton letter, value]
  | joined {item : Item} {parameter : Parameter} {value : String} {letter : Char} :
    item.pair? = some (parameter, value) → parameter.short? = some letter → IsBare value →
    Spells item ["-" ++ String.singleton letter ++ value]
  | equated {item : Item} {parameter : Parameter} {value : String} {letter : Char} :
    item.pair? = some (parameter, value) → parameter.short? = some letter → IsBare value →
    Spells item ["-" ++ String.singleton letter ++ "=" ++ value]

/-! ### Single arguments -/

theorem ofText_dashes {text : String} {rest : List Char} (hne : rest ≠ [])
    (h : text.toList = '-' :: '-' :: rest) :
    Argument.ofText text =
      match rest.dropWhile (· != '=') with
      | [] => .long rest none
      | _ :: value => .long (rest.takeWhile (· != '=')) (some value) := by
  obtain ⟨c, rest, rfl⟩ := List.exists_cons_of_ne_nil hne
  cases hvalue : (c :: rest).dropWhile (· != '=') with
  | nil => simp only [Argument.ofText, h, hvalue]
  | cons sign value => simp only [Argument.ofText, h, hvalue]

theorem ofText_long {name : List Char} (hname : '=' ∉ name) {text value : String}
    (h : text.toList = '-' :: '-' :: (name ++ '=' :: value.toList)) :
    Argument.ofText text = .long name (some value.toList) := by
  have hkeep : ∀ c ∈ name, (c != '=') = true := fun c hc => bne_iff_ne.2 fun heq => hname (heq ▸ hc)
  rw [ofText_dashes (by simp) h, List.dropWhile_append_of_pos hkeep,
    List.takeWhile_append_of_pos hkeep]
  simp

theorem ofText_switch {name : List Char} (hne : name ≠ []) (hname : '=' ∉ name) {text : String}
    (h : text.toList = '-' :: '-' :: name) : Argument.ofText text = .long name none := by
  have hdrop : name.dropWhile (· != '=') = [] :=
    List.dropWhile_eq_nil_iff.2 fun c hc => bne_iff_ne.2 fun heq => hname (heq ▸ hc)
  rw [ofText_dashes hne h, hdrop]

theorem ofText_short {letter : Char} (hletter : letter ≠ '-') {rest : List Char} {text : String}
    (h : text.toList = '-' :: letter :: rest) : Argument.ofText text = .short (letter :: rest) := by
  unfold Argument.ofText
  rw [h]
  split <;> simp_all

theorem ofText_plain {value : String} (h : value.toList.head? ≠ some '-') :
    Argument.ofText value = .plain value := by
  unfold Argument.ofText
  split <;> simp_all

/-! ### Drafts -/

namespace Draft

/-- A draft with an item in its place. -/
def put (draft : Draft) : Item → Draft
  | .manifest path => { draft with manifest := some path }
  | .config path => { draft with config := some path }
  | .output path => { draft with output := some path }
  | .format wanted => { draft with format := some wanted }
  | .timeout seconds => { draft with timeout := some seconds }
  | .title text => { draft with title := some text }
  | .shownPath path => { draft with shownPath := some path }
  | .switch which => { draft with isOn := fun s => s = which || draft.isOn s }

/-- Whether something was given for a key. -/
def holds (draft : Draft) : Key → Bool
  | .parameter parameter => draft.has parameter
  | .switch which => draft.isOn which
  | .help => false
  | .version => false

theorem holds_put (draft : Draft) (item : Item) (key : Key) :
    (draft.put item).holds key = (decide (key = item.key) || draft.holds key) := by
  cases key with
  | parameter parameter => cases item <;> cases parameter <;> rfl
  | switch which => cases item <;> simp [put, holds, Item.key]
  | help => cases item <;> rfl
  | version => cases item <;> rfl

theorem importPath_put (draft : Draft) (item : Item) :
    (draft.put item).importPath = draft.importPath := by
  cases item <;> rfl

/-- Items for different keys go into different places. -/
theorem put_comm {a b : Item} (h : a.key ≠ b.key) (draft : Draft) :
    (draft.put a).put b = (draft.put b).put a := by
  cases a with
  | switch s =>
    cases b with
    | switch t =>
      have hswap : (fun u => decide (u = t) || (decide (u = s) || draft.isOn u)) =
          fun u => decide (u = s) || (decide (u = t) || draft.isOn u) := by
        funext u
        exact Bool.or_left_comm ..
      simp only [put, hswap]
    | _ => rfl
  | _ => cases b <;> first | rfl | exact absurd rfl h

end Draft

theorem decimal?_toDigits (n : Nat) : Text.decimal? (Nat.toDigits 10 n) = some n := by
  have hdigits : (Nat.toDigits 10 n).all Char.isDigit = true :=
    List.all_eq_true.2 fun c => Nat.isDigit_of_mem_toDigits (by decide) (by decide)
  have hempty : (Nat.toDigits 10 n).isEmpty = false := by
    simp
  have hvalue : (Nat.toDigits 10 n).foldl (fun n c => n * 10 + (c.toNat - 48)) 0 = n := by
    have hstep : (fun (n : Nat) (c : Char) => n * 10 + (c.toNat - 48)) =
        fun (n : Nat) (c : Char) => 10 * n + (c.toNat - '0'.toNat) := by
      funext n c
      rw [Nat.mul_comm]
      rfl
    rw [hstep]
    exact Nat.ofDigitChars_toDigits (by decide) (by decide)
  simp [Text.decimal?, hdigits, hempty, hvalue]

/-- The digits of a number of 64 bits are read back. -/
theorem readSeconds?_repr (seconds : UInt64) : readSeconds? seconds.toNat.repr = some seconds := by
  have hpositive : Text.positive? (Nat.toDigits 10 seconds.toNat) = some seconds.toNat := by
    unfold Text.positive?
    split
    · rename_i rest heq
      have hplus : '+'.isDigit = true :=
        Nat.isDigit_of_mem_toDigits (by decide) (by decide) (heq ▸ List.mem_cons_self)
      cases hplus
    · exact decimal?_toDigits _
  have hfits : seconds.toNat < Nat.pow 2 64 := seconds.toNat_lt
  rw [readSeconds?, Nat.toList_repr, hpositive]
  simp only [hfits, if_true, UInt64.ofNat_toNat]

/-- An item that was not given before is set. -/
theorem give_of_pair? {draft : Draft} {item : Item} {parameter : Parameter} {value : String}
    (h : item.pair? = some (parameter, value)) (hnamed : item.IsNamed)
    (hfree : draft.holds item.key = false) :
    draft.give parameter value = .ok (draft.put item) := by
  have hhas : draft.has parameter = false := by
    rw [Item.key_of_pair? h] at hfree
    exact hfree
  rw [Draft.give, hhas]
  cases item with
  | manifest path =>
    cases h
    exact if_neg hnamed
  | config path =>
    cases h
    exact if_neg hnamed
  | output path =>
    cases h
    exact if_neg hnamed
  | format wanted =>
    cases h
    cases wanted <;> rfl
  | timeout seconds =>
    cases h
    simp only [Bool.false_eq_true, if_false, Draft.set, readSeconds?_repr]
    rfl
  | title text =>
    cases h
    rfl
  | shownPath path =>
    cases h
    rfl
  | switch which => cases h

/-! ### Items one after the other -/

/-- What was read so far comes to a draft, once that is settled which is pending. -/
structure ComesTo (draft : Draft) (pending : Draft.Pending) (settled : Draft) : Prop where
  settle : draft.settle pending = .ok settled
  importPath : draft.importPath = settled.importPath

theorem ComesTo.self (draft : Draft) : ComesTo draft none draft :=
  ⟨rfl, rfl⟩

theorem readAll_cons {draft next : Draft} {pending waiting : Draft.Pending} {text : String}
    {argument : Argument} (htext : Argument.ofText text = argument) (hescape : argument ≠ .escape)
    (h : readArgument draft pending argument = .ok (next, waiting)) (rest : List String) :
    readAll draft pending (text :: rest) = readAll next waiting rest := by
  rw [readAll, htext, if_neg hescape, h]

theorem ofLong?_parameter (parameter : Parameter) :
    Key.ofLong? parameter.long.toList = some (.parameter parameter) := by
  cases parameter <;> decide

theorem ofLong?_switch (switch : Switch) :
    Key.ofLong? switch.long.toList = some (.switch switch) := by
  cases switch <;> decide

theorem ofShort?_of_short? {parameter : Parameter} {letter : Char}
    (h : parameter.short? = some letter) :
    letter ≠ '-' ∧ Key.ofShort? letter = some (.parameter parameter) := by
  cases parameter <;> cases h <;> decide

section
variable {draft settled : Draft} {pending : Draft.Pending}

/-- A value behind an equals sign is set at once. -/
theorem readAll_long {parameter : Parameter} {value : String} {next : Draft}
    (h : ComesTo draft pending settled) (hgive : settled.give parameter value = .ok next)
    (rest : List String) :
    readAll draft pending (("--" ++ parameter.long ++ "=" ++ value) :: rest) =
      readAll next none rest := by
  have hname : '=' ∉ parameter.long.toList := by
    cases parameter <;> decide
  have htext : Argument.ofText ("--" ++ parameter.long ++ "=" ++ value) =
      .long parameter.long.toList (some value.toList) :=
    ofText_long hname (by simp [String.toList_append])
  refine readAll_cons htext (fun heq => nomatch heq) ?_ rest
  simp only [readArgument, readLong, ofLong?_parameter, h.settle, String.ofList_toList, hgive]
  rfl

theorem readAll_switch {switch : Switch} {next : Draft} (h : ComesTo draft pending settled)
    (hturn : settled.turnOn switch = .ok next) (rest : List String) :
    readAll draft pending (("--" ++ switch.long) :: rest) = readAll next none rest := by
  have hname : switch.long.toList ≠ [] ∧ '=' ∉ switch.long.toList := by
    cases switch <;> decide
  have htext : Argument.ofText ("--" ++ switch.long) = .long switch.long.toList none :=
    ofText_switch hname.1 hname.2 (by simp [String.toList_append])
  refine readAll_cons htext (fun heq => nomatch heq) ?_ rest
  simp only [readArgument, readLong, ofLong?_switch, h.settle, readKey, hturn]
  rfl

/-- A value in an argument of its own stays pending. -/
theorem readAll_apart {parameter : Parameter} {value : String} {letter : Char}
    (h : ComesTo draft pending settled) (hshort : parameter.short? = some letter)
    (hbare : IsBare value) (rest : List String) :
    readAll draft pending (("-" ++ String.singleton letter) :: value :: rest) =
      readAll settled (some (parameter, some value)) rest := by
  obtain ⟨hletter, hkey⟩ := ofShort?_of_short? hshort
  have htext : Argument.ofText ("-" ++ String.singleton letter) = .short [letter] :=
    ofText_short hletter (by simp)
  rw [readAll_cons htext (fun heq => nomatch heq)
    (by simp only [readArgument, readLetters, hkey, h.settle, readKey]; rfl)]
  exact readAll_cons (ofText_plain hbare.1) (fun heq => nomatch heq) rfl rest

/-- A value right behind its letter is set at once. -/
theorem readAll_joined {parameter : Parameter} {value : String} {letter : Char} {next : Draft}
    (h : ComesTo draft pending settled) (hshort : parameter.short? = some letter)
    (hbare : IsBare value) (hne : value ≠ "") (hgive : settled.give parameter value = .ok next)
    (rest : List String) :
    readAll draft pending (("-" ++ String.singleton letter ++ value) :: rest) =
      readAll next none rest := by
  obtain ⟨hletter, hkey⟩ := ofShort?_of_short? hshort
  have htext : Argument.ofText ("-" ++ String.singleton letter ++ value) =
      .short (letter :: value.toList) :=
    ofText_short hletter (by simp [String.toList_append])
  refine readAll_cons htext (fun heq => nomatch heq) ?_ rest
  have hvalue : String.ofList value.toList = value := String.ofList_toList
  cases hcons : value.toList with
  | nil => exact absurd (String.toList_eq_nil_iff.1 hcons) hne
  | cons c cs =>
    have hc : c ≠ '=' := by
      intro heq
      exact hbare.2 (by rw [hcons, heq]; rfl)
    rw [hcons] at hvalue
    simp only [readArgument, readLetters, hkey, h.settle, hvalue, hgive]
    rfl

/-- A value behind its letter and an equals sign is set at once. -/
theorem readAll_equated {parameter : Parameter} {value : String} {letter : Char} {next : Draft}
    (h : ComesTo draft pending settled) (hshort : parameter.short? = some letter)
    (hgive : settled.give parameter value = .ok next) (rest : List String) :
    readAll draft pending (("-" ++ String.singleton letter ++ "=" ++ value) :: rest) =
      readAll next none rest := by
  obtain ⟨hletter, hkey⟩ := ofShort?_of_short? hshort
  have htext : Argument.ofText ("-" ++ String.singleton letter ++ "=" ++ value) =
      .short (letter :: '=' :: value.toList) :=
    ofText_short hletter (by simp [String.toList_append])
  refine readAll_cons htext (fun heq => nomatch heq) ?_ rest
  simp only [readArgument, readLetters, hkey, h.settle, String.ofList_toList, hgive]
  rfl

/-- **An item that is read goes into its place**, however it is spelled. -/
theorem readAll_spelled {item : Item} {words : List String} (hspells : Spells item words)
    (hnamed : item.IsNamed) (h : ComesTo draft pending settled)
    (hfree : settled.holds item.key = false) (rest : List String) :
    ∃ next waiting, ComesTo next waiting (settled.put item) ∧
      readAll draft pending (words ++ rest) = readAll next waiting rest := by
  cases hspells with
  | long hpair =>
    exact ⟨_, none, .self _, readAll_long h (give_of_pair? hpair hnamed hfree) rest⟩
  | switch which =>
    have hturn : settled.turnOn which = .ok (settled.put (.switch which)) := by
      have hoff : settled.isOn which = false := hfree
      rw [Draft.turnOn, hoff]
      rfl
    exact ⟨_, none, .self _, readAll_switch h hturn rest⟩
  | @apart _ parameter value _ hpair hshort hbare =>
    have hsettle : settled.settle (some (parameter, some value)) = .ok (settled.put item) :=
      give_of_pair? hpair hnamed hfree
    exact ⟨settled, _, ⟨hsettle, (settled.importPath_put item).symm⟩,
      readAll_apart h hshort hbare rest⟩
  | joined hpair hshort hbare =>
    have hne := Item.ne_empty_of_short? hpair hshort hnamed
    exact ⟨_, none, .self _, readAll_joined h hshort hbare hne
      (give_of_pair? hpair hnamed hfree) rest⟩
  | equated hpair hshort =>
    exact ⟨_, none, .self _, readAll_equated h hshort (give_of_pair? hpair hnamed hfree) rest⟩

/-- The items of a command line for different keys all go into their places. -/
theorem readAll_items {items : List Item} {words : List (List String)}
    (hspells : List.Forall₂ Spells items words) (hnamed : ∀ item ∈ items, item.IsNamed)
    (hkeys : (items.map Item.key).Nodup) (h : ComesTo draft pending settled)
    (hfree : ∀ item ∈ items, settled.holds item.key = false) (rest : List String) :
    ∃ next waiting, ComesTo next waiting (items.foldl Draft.put settled) ∧
      readAll draft pending (words.flatten ++ rest) = readAll next waiting rest := by
  induction hspells generalizing draft settled pending with
  | nil => exact ⟨draft, pending, h, rfl⟩
  | @cons item first items words hfirst _ ih =>
    rw [List.map_cons, List.nodup_cons] at hkeys
    obtain ⟨next, waiting, hnext, hread⟩ := readAll_spelled hfirst (hnamed item (.head _)) h
      (hfree item (.head _)) (words.flatten ++ rest)
    have hstillFree : ∀ other ∈ items, (settled.put item).holds other.key = false := by
      intro other hother
      have hne : other.key ≠ item.key := fun heq => hkeys.1 (heq ▸ List.mem_map_of_mem hother)
      rw [Draft.holds_put, decide_eq_false hne, hfree other (.tail _ hother)]
      rfl
    obtain ⟨last, left, hlast, hrest⟩ :=
      ih (fun other hother => hnamed other (.tail _ hother)) hkeys.2 hnext hstillFree
    refine ⟨last, left, hlast, ?_⟩
    rw [List.flatten_cons, List.append_assoc, hread, hrest]

/-- After two dashes comes the import path. -/
theorem readAll_path (h : ComesTo draft pending settled) (hnone : settled.importPath = none)
    (path : String) :
    readAll draft pending ["--", path] = .ok { settled with importPath := some path } := by
  have hescape : Argument.ofText "--" = .escape := by
    decide
  have hfree : draft.importPath.isSome = false := by
    rw [h.importPath, hnone]
    rfl
  rw [readAll, if_pos hescape, readPaths, Draft.putPath, hfree, h.settle]
  rfl

end

/-! ### Whole command lines -/

theorem mem_all (switch : Switch) : switch ∈ Switch.all := by
  cases switch <;> decide

theorem foldl_put_switches (switches : List Switch) (draft : Draft) :
    (switches.map Item.switch).foldl Draft.put draft =
      { draft with isOn := fun s => decide (s ∈ switches) || draft.isOn s } := by
  induction switches generalizing draft with
  | nil => simp
  | cons first rest ih =>
    rw [List.map_cons, List.foldl_cons, ih]
    have hon : (fun s => decide (s ∈ rest) || (decide (s = first) || draft.isOn s)) =
        fun s => decide (s ∈ first :: rest) || draft.isOn s := by
      funext s
      rw [← Bool.or_assoc, Bool.or_comm (decide (s ∈ rest)), ← Bool.decide_or]
      simp only [List.mem_cons]
    simp only [Draft.put, hon]

/-- An item that may be there goes into a place that is free. -/
theorem foldl_put_option {α : Type} (item : α → Item) (place : Option α → Draft → Draft)
    (hsome : ∀ value draft, draft.put (item value) = place (some value) draft) {draft : Draft}
    (hnone : place none draft = draft) (value : Option α) :
    (value.map item).toList.foldl Draft.put draft = place value draft := by
  cases value with
  | none => exact hnone.symm
  | some value => exact hsome value draft

/-- What the items of an invocation come to. -/
def draftOf (invocation : Invocation) (namesFormat : Bool) : Draft where
  manifest := some invocation.manifest
  config := invocation.config
  output := invocation.output
  format := if namesFormat || invocation.format ≠ .markdown then some invocation.format else none
  timeout := invocation.timeout
  title := invocation.title
  shownPath := invocation.shownPath
  isOn := invocation.isOn

theorem foldl_put_items (invocation : Invocation) (namesFormat : Bool) :
    (items invocation namesFormat).foldl Draft.put {} = draftOf invocation namesFormat := by
  have hformat (shown : Bool) (draft : Draft) (hnone : { draft with format := none } = draft) :
      (if shown then [Item.format invocation.format] else []).foldl Draft.put draft =
        { draft with format := if shown then some invocation.format else none } := by
    split
    · rfl
    · exact hnone.symm
  have hon : (fun s => decide (s ∈ Switch.all.filter invocation.isOn) || false) =
      invocation.isOn := by
    funext s
    simp [mem_all]
  simp only [items, List.foldl_append]
  rw [foldl_put_option Item.config (fun config draft => { draft with config }) (fun _ _ => rfl) rfl,
    foldl_put_option Item.output (fun output draft => { draft with output }) (fun _ _ => rfl) rfl,
    hformat _ _ rfl,
    foldl_put_option Item.timeout (fun timeout draft => { draft with timeout }) (fun _ _ => rfl)
      rfl,
    foldl_put_option Item.title (fun title draft => { draft with title }) (fun _ _ => rfl) rfl,
    foldl_put_option Item.shownPath (fun shownPath draft => { draft with shownPath })
      (fun _ _ => rfl) rfl,
    foldl_put_switches]
  exact congrArg (fun isOn => { draftOf invocation namesFormat with isOn }) hon

theorem map_key_option {α : Type} (item : α → Item) {key : Key}
    (h : ∀ value, (item value).key = key) (value : Option α) :
    ((value.map item).toList.map Item.key).Sublist [key] := by
  cases value with
  | none => exact List.nil_sublist _
  | some value =>
    rw [Option.map_some, Option.toList_some, List.map_singleton, h]

/-- No two items of an invocation are for the same key. -/
theorem nodup_keys_items (invocation : Invocation) (namesFormat : Bool) :
    ((items invocation namesFormat).map Item.key).Nodup := by
  have hmanifest : ([Item.manifest invocation.manifest].map Item.key).Sublist
      [.parameter .manifest] :=
    List.Sublist.refl _
  have hconfig : ((invocation.config.map Item.config).toList.map Item.key).Sublist
      [.parameter .config] :=
    map_key_option Item.config (fun _ => rfl) _
  have houtput : ((invocation.output.map Item.output).toList.map Item.key).Sublist
      [.parameter .output] :=
    map_key_option Item.output (fun _ => rfl) _
  have hformat (shown : Bool) :
      ((if shown then [Item.format invocation.format] else []).map Item.key).Sublist
        [.parameter .format] := by
    cases shown with
    | true => exact List.Sublist.refl _
    | false => exact List.nil_sublist _
  have htimeout : ((invocation.timeout.map Item.timeout).toList.map Item.key).Sublist
      [.parameter .timeout] :=
    map_key_option Item.timeout (fun _ => rfl) _
  have htitle : ((invocation.title.map Item.title).toList.map Item.key).Sublist
      [.parameter .title] :=
    map_key_option Item.title (fun _ => rfl) _
  have hshownPath :
      ((invocation.shownPath.map Item.shownPath).toList.map Item.key).Sublist
        [.parameter .importPath] :=
    map_key_option Item.shownPath (fun _ => rfl) _
  have hswitches : (((Switch.all.filter invocation.isOn).map Item.switch).map Item.key).Sublist
      (Switch.all.map Key.switch) := by
    rw [List.map_map]
    exact List.Sublist.map _ List.filter_sublist
  have hall := ((((((hmanifest.append hconfig).append houtput).append
    (hformat (namesFormat || invocation.format ≠ .markdown))).append htimeout).append htitle).append
    hshownPath).append hswitches
  rw [items, List.map_append, List.map_append, List.map_append, List.map_append, List.map_append,
    List.map_append, List.map_append]
  exact hall.nodup (by decide)

/-- Items for different keys come to the same in any order. -/
theorem foldl_put_perm {some others : List Item} (h : some.Perm others)
    (hkeys : (some.map Item.key).Nodup) (draft : Draft) :
    some.foldl Draft.put draft = others.foldl Draft.put draft := by
  refine h.foldl_eq' (fun a ha b hb draft => ?_) draft
  by_cases hsame : a = b
  · rw [hsame]
  · exact Draft.put_comm (fun heq => hsame (List.inj_on_of_nodup_map hkeys ha hb heq)) draft

theorem finish_draftOf {invocation : Invocation}
    (hloud : (invocation.isOn .verbose && invocation.isOn .quiet) = false) (namesFormat : Bool) :
    Draft.finish { draftOf invocation namesFormat with importPath := some invocation.importPath } =
      .ok invocation := by
  have hformat : (draftOf invocation namesFormat).format.getD .markdown = invocation.format := by
    simp only [draftOf]
    split
    · rfl
    · rename_i hunnamed
      simp only [Bool.or_eq_true, decide_eq_true_eq, not_or, not_not] at hunnamed
      exact hunnamed.2.symm
  have hquiet : ((draftOf invocation namesFormat).isOn .verbose &&
      (draftOf invocation namesFormat).isOn .quiet) =
      false :=
    hloud
  simp only [Draft.finish, hquiet, hformat]
  rfl

theorem isNamed_items {invocation : Invocation} (hmanifest : invocation.manifest ≠ "")
    (hconfig : invocation.config ≠ some "") (houtput : invocation.output ≠ some "")
    (namesFormat : Bool) :
    ∀ item ∈ items invocation namesFormat, item.IsNamed := by
  intro item hitem
  cases item with
  | manifest path =>
    have hpath : path = invocation.manifest := by
      simpa [items] using hitem
    exact hpath ▸ hmanifest
  | config path =>
    have hpath : invocation.config = some path := by
      simpa [items] using hitem
    exact fun hempty => hconfig (hempty ▸ hpath)
  | output path =>
    have hpath : invocation.output = some path := by
      simpa [items] using hitem
    exact fun hempty => houtput (hempty ▸ hpath)
  | _ => trivial

/-- **Reading arguments undoes spelling them.** The items of an invocation, each spelled in any of
its ways and all in any order, and after two dashes the import path, are read as that invocation. -/
theorem parse_spelled {invocation : Invocation} (hmanifest : invocation.manifest ≠ "")
    (hconfig : invocation.config ≠ some "") (houtput : invocation.output ≠ some "")
    (hloud : (invocation.isOn .verbose && invocation.isOn .quiet) = false) {namesFormat : Bool}
    {asked : List Item} (hasked : asked.Perm (items invocation namesFormat))
    {words : List (List String)} (hspells : List.Forall₂ Spells asked words) :
    parse (words.flatten ++ ["--", invocation.importPath]) = .ok invocation := by
  have hnamed : ∀ item ∈ asked, item.IsNamed := fun item hitem =>
    isNamed_items hmanifest hconfig houtput namesFormat item (hasked.mem_iff.1 hitem)
  have hkeys : (asked.map Item.key).Nodup :=
    (hasked.map Item.key).nodup_iff.2 (nodup_keys_items invocation namesFormat)
  have hfree : ∀ item ∈ asked, Draft.holds {} item.key = false := by
    intro item _
    cases item <;> rfl
  obtain ⟨next, waiting, hnext, hread⟩ :=
    readAll_items hspells hnamed hkeys (.self {}) hfree ["--", invocation.importPath]
  rw [foldl_put_perm hasked hkeys, foldl_put_items] at hnext
  rw [parse, hread, readAll_path hnext rfl]
  exact finish_draftOf hloud namesFormat

/-- Values that hold equals signs, start with dashes or are empty, and all ways of spelling. -/
theorem parse_spelled_mixed :
    let invocation : Invocation :=
      { importPath := "-v", manifest := "a=b.json", config := some "c.json",
        output := some "README.md"
        format := .json, timeout := some 30, title := some "", shownPath := some "--types=1"
        isOn := fun switch => switch = .types || switch = .verbose }
    invocation.manifest ≠ "" ∧ invocation.config ≠ some "" ∧ invocation.output ≠ some "" ∧
      parse ["--verbose", "-o", "README.md", "--title=", "-ma=b.json", "--timeout=30",
        "--import-path=--types=1", "--format=json", "--types", "-c=c.json", "--", "-v"] =
          .ok invocation := by
  intro invocation
  have hmanifest : invocation.manifest ≠ "" := by
    decide
  have hconfig : invocation.config ≠ some "" := by
    decide
  have houtput : invocation.output ≠ some "" := by
    decide
  have hasked : [.switch .verbose, .output "README.md", .title "", .manifest "a=b.json",
      .timeout 30, .shownPath "--types=1", .format .json, .switch .types, .config "c.json"].Perm
        (items invocation false) := by
    decide +kernel +zetaReduce
  have hspelled := parse_spelled hmanifest hconfig houtput (by decide) hasked <|
    .cons (.switch .verbose) <| .cons (.apart rfl rfl (by decide)) <| .cons (.long rfl) <|
    .cons (.joined rfl rfl (by decide)) <| .cons (.long rfl) <| .cons (.long rfl) <|
    .cons (.long rfl) <| .cons (.switch .types) <| .cons (.equated rfl rfl (by decide)) .nil
  exact ⟨hmanifest, hconfig, houtput, hspelled⟩

end PackageReadme.Arguments
