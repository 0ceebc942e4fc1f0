import PackageReadme.Emphasis.Piece
import PackageReadme.Proofs.Text.Start

/-! The grammar of links, and that the readers keep to it.

`IsLink` says which texts are links, with which title and target, apart from any text around them. A
target that is read is one of the grammar and stands at the front of the text (`ReadsTarget`); so
does a link (`ReadsLink`). -/
namespace PackageReadme.Emphasis
open Text

/-! ### Targets -/

/-- A protocol and what parts it from the host. -/
def IsOpening (s : List Char) : Prop :=
  ∃ protocol ∈ protocols, s = protocol ++ [':', '/', '/']

structure IsHost (s : List Char) : Prop where
  nonempty : s ≠ []
  chars : ∀ c ∈ s, isHostChar c = true

/-- Characters of a path, each after any punctuation. -/
inductive IsPath : List Char → Prop
  | nil : IsPath []
  | cons {marks rest : List Char} {c : Char} :
    (∀ mark ∈ marks, isPunctuation mark = true) → isPathChar c = true →
    IsPath rest → IsPath (marks ++ c :: rest)

def IsUrl (s : List Char) : Prop :=
  ∃ opening host path, IsOpening opening ∧ IsHost host ∧ IsPath path ∧ s = opening ++ host ++ path

def IsLocal (s : List Char) : Prop :=
  ∃ rest, (∀ c ∈ rest, isLocalChar c = true) ∧ s = '.' :: '/' :: rest

def IsTarget (s : List Char) : Prop :=
  IsUrl s ∨ IsLocal s

/-! ### Links -/

/-- A title, and the character that parts it from the target. -/
structure Title.IsTitle (title : Title) : Prop where
  nonempty : title.text ≠ []
  noClosing : ')' ∉ title.text
  separator : (isAsciiAlphanumeric title.separator || title.separator == '_') = false

/-- The text of a link with its title, if it has one, and its target. -/
inductive IsLink : List Char → Option (List Char) → List Char → Prop
  | bare {target : List Char} : IsTarget target → IsLink target none target
  | titled {title target : List Char} {separator : Char} :
    Title.IsTitle ⟨title, separator⟩ → IsTarget target →
    IsLink (['('] ++ title ++ [')', separator] ++ target) (some title) target

/-! ### Paths -/

theorem IsPath.cons_mark {s : List Char} (h : IsPath s) (hne : s ≠ []) {mark : Char}
    (hmark : isPunctuation mark = true) : IsPath (mark :: s) := by
  cases h with
  | nil => exact absurd rfl hne
  | cons hmarks hc hrest => exact .cons (List.forall_mem_cons.mpr ⟨hmark, hmarks⟩) hc hrest

/-- Path characters and punctuation are a path if they do not end in punctuation. -/
theorem isPath_of_forall {s : List Char}
    (hchars : ∀ c ∈ s, isPathChar c = true ∨ isPunctuation c = true)
    (hlast : ∀ front c, s = front ++ [c] → isPunctuation c = false) : IsPath s := by
  induction s with
  | nil => exact .nil
  | cons c s ih =>
    obtain ⟨hc, hs⟩ := List.forall_mem_cons.mp hchars
    have hrest : IsPath s :=
      ih hs fun front d h => hlast (c :: front) d (by rw [h, List.cons_append])
    rcases hc with hc | hc
    · exact .cons (List.forall_mem_nil fun mark => isPunctuation mark = true) hc hrest
    · by_cases hne : s = []
      · rw [hlast [] c (by rw [hne, List.nil_append])] at hc
        cases hc
      · exact hrest.cons_mark hne hc

/-- A path takes all characters that a path may have, but for punctuation at their end. -/
theorem exists_path_append (s : List Char) :
    ∃ marks, s.takeWhile (fun c => isPathChar c || isPunctuation c) = path s ++ marks ∧
      (∀ mark ∈ marks, isPunctuation mark = true) ∧ IsPath (path s) := by
  obtain ⟨marks, hmarks, hall, hlast⟩ :=
    exists_dropTail_append isPunctuation (s.takeWhile fun c => isPathChar c || isPunctuation c)
  refine ⟨marks, hmarks, hall, isPath_of_forall (fun c hc => ?_) hlast⟩
  simpa using List.mem_takeWhile_imp ((dropTail_isPrefix _ _).subset hc)

theorem isPath_path (s : List Char) : IsPath (path s) :=
  (exists_path_append s).choose_spec.2.2

theorem path_isPrefix (s : List Char) : path s <+: s :=
  (dropTail_isPrefix _ _).trans (List.takeWhile_prefix _)

theorem isPathChar_of_mem_path {s : List Char} {c : Char} (h : c ∈ path s) :
    isPathChar c = true ∨ isPunctuation c = true := by
  simpa using List.mem_takeWhile_imp ((dropTail_isPrefix _ _).subset h)

/-! ### Reading a target -/

theorem hostAndPath?_eq_some_iff {s t : List Char} :
    hostAndPath? s = some t ↔
      ∃ host rest, IsHost host ∧ Stops isHostChar rest ∧ s = host ++ rest ∧
      t = host ++ path rest := by
  constructor
  · intro h
    simp only [hostAndPath?] at h
    generalize hrun : s.takeWhile isHostChar = host at h
    obtain ⟨rest, rfl, hhost, hstops⟩ := takeWhile_eq_iff.mp hrun
    split at h
    · cases h
    · rename_i hne
      rw [List.drop_left] at h
      exact ⟨host, rest, ⟨by simpa using hne, hhost⟩, hstops, rfl, (Option.some.inj h).symm⟩
  · rintro ⟨host, rest, hhost, hstops, rfl, rfl⟩
    have hrun : (host ++ rest).takeWhile isHostChar = host :=
      takeWhile_eq_iff.mpr ⟨rest, rfl, hhost.chars, hstops⟩
    simp [hostAndPath?, hrun, hhost.nonempty]

/-- Where the opening of one protocol stands, no other one does. -/
theorem protocol_eq_of_append_eq {p q : List Char} (hp : p ∈ protocols) (hq : q ∈ protocols)
    {a b : List Char} (h : p ++ [':', '/', '/'] ++ a = q ++ [':', '/', '/'] ++ b) : p = q := by
  have hcolon : (protocols.all fun protocol => protocol.all (· != ':')) = true := by
    decide
  simp only [List.all_eq_true] at hcolon
  have hrun (protocol rest : List Char) (hprotocol : protocol ∈ protocols) :
      (protocol ++ [':', '/', '/'] ++ rest).takeWhile (· != ':') = protocol := by
    refine takeWhile_eq_iff.mpr ⟨[':', '/', '/'] ++
      rest, by rw [List.append_assoc], hcolon protocol hprotocol, ?_⟩
    rintro c after hafter
    cases hafter
    rfl
  rw [← hrun p a hp, h, hrun q b hq]

theorem IsOpening.append_ne_cons_of_period {opening after rest : List Char}
    (h : IsOpening opening) :
    opening ++ after ≠ '.' :: rest := by
  obtain ⟨protocol, hprotocol, rfl⟩ := h
  have hhead : ∀ protocol ∈ protocols, protocol.head?.any (· != '.') = true := by
    decide
  have hfirst := hhead protocol hprotocol
  cases protocol with
  | nil => cases hfirst
  | cons c cs =>
    intro heq
    rw [(List.cons.inj heq).1] at hfirst
    cases hfirst

theorem IsUrl.not_isLocal {target : List Char} (h : IsUrl target) : ¬ IsLocal target := by
  rintro ⟨rest, -, rfl⟩
  obtain ⟨opening, host, path, hopening, -, -, hs⟩ := h
  rw [List.append_assoc] at hs
  exact hopening.append_ne_cons_of_period hs.symm

theorem url?_eq_some_iff {s t : List Char} :
    url? s = some t ↔ ∃ opening host rest, IsOpening opening ∧ IsHost host ∧ Stops isHostChar rest ∧
      s = opening ++ host ++ rest ∧ t = opening ++ host ++ path rest := by
  rw [url?, List.findSome?_eq_some_iff]
  constructor
  · rintro ⟨before, protocol, after, hprotocols, hfound, -⟩
    simp only at hfound
    split at hfound
    · rename_i rest hrest
      obtain ⟨found, hread, rfl⟩ := Option.map_eq_some_iff.mp hfound
      obtain ⟨host, rest, hhost, hstops, rfl, rfl⟩ := hostAndPath?_eq_some_iff.mp hread
      rw [after?_eq_some_iff] at hrest
      refine ⟨_, host, rest, ⟨protocol, by simp [hprotocols], rfl⟩, hhost, hstops, ?_, ?_⟩
      · rw [hrest, ← List.append_assoc]
      · rw [← List.append_assoc]
    · cases hfound
  · rintro ⟨opening, host, rest, ⟨protocol, hprotocol, rfl⟩, hhost, hstops, rfl, rfl⟩
    obtain ⟨before, after, hprotocols, hnot⟩ := List.eq_append_cons_of_mem hprotocol
    refine ⟨before, protocol, after, hprotocols, ?_, fun other hother => ?_⟩
    · simp only [List.append_assoc _ host, after?_append]
      rw [hostAndPath?_eq_some_iff.mpr ⟨host, rest, hhost, hstops, rfl, rfl⟩]
      rfl
    · simp only
      split
      · rename_i rest' hrest
        rw [after?_eq_some_iff, List.append_assoc _ host] at hrest
        have hsame := protocol_eq_of_append_eq hprotocol (by simp [hprotocols, hother]) hrest
        exact absurd (hsame ▸ hother) hnot
      · rfl

theorem local?_eq_some_iff {s t : List Char} :
    local? s = some t ↔ ∃ rest, s = '.' :: '/' :: rest ∧
      t = '.' :: '/' :: rest.takeWhile isLocalChar := by
  unfold local?
  split
  · rename_i rest
    constructor
    · intro h
      exact ⟨rest, rfl, (Option.some.inj h).symm⟩
    · rintro ⟨rest', hrest, rfl⟩
      cases hrest
      rfl
  · rename_i hne
    constructor
    · intro h
      cases h
    · rintro ⟨rest, rfl, -⟩
      exact absurd rfl (hne rest)

/-- How a target stands at the front of a text, and whether it is a local path. -/
inductive ReadsTarget : (s target : List Char) → (isLocal : Bool) → Prop
  | url {opening host rest : List Char} : IsOpening opening → IsHost host → Stops isHostChar rest →
    ReadsTarget (opening ++ host ++ rest) (opening ++ host ++ path rest) false
  | localPath {name rest : List Char} :
    (∀ c ∈ name, isLocalChar c = true) → Stops isLocalChar rest →
    ReadsTarget ('.' :: '/' :: name ++ rest) ('.' :: '/' :: name) true

theorem url?_cons_of_period (rest : List Char) : url? ('.' :: rest) = none := by
  rw [Option.eq_none_iff_forall_ne_some]
  intro t h
  obtain ⟨opening, host, after, hopening, -, -, hs, -⟩ := url?_eq_some_iff.mp h
  rw [List.append_assoc] at hs
  exact hopening.append_ne_cons_of_period hs.symm

theorem target?_eq_some_iff {title : Option Title} {s : List Char} {link : Link} :
    target? title s = some link ↔
      ∃ target isLocal, ReadsTarget s target isLocal ∧ link = ⟨title, target, isLocal⟩ := by
  constructor
  · intro h
    unfold target? at h
    split at h
    · rename_i target hurl
      obtain ⟨opening, host, rest, hopening, hhost, hstops, rfl, rfl⟩ := url?_eq_some_iff.mp hurl
      exact ⟨_, false, .url hopening hhost hstops, (Option.some.inj h).symm⟩
    · obtain ⟨target, hlocal, rfl⟩ := Option.map_eq_some_iff.mp h
      obtain ⟨text, rfl, rfl⟩ := local?_eq_some_iff.mp hlocal
      generalize hrun : text.takeWhile isLocalChar = name
      obtain ⟨rest, rfl, hname, hstops⟩ := takeWhile_eq_iff.mp hrun
      exact ⟨_, true, .localPath hname hstops, rfl⟩
  · rintro ⟨target, isLocal, hreads, rfl⟩
    cases hreads with
    | @url opening host rest hopening hhost hstops =>
      rw [target?, url?_eq_some_iff.mpr ⟨opening, host, rest, hopening, hhost, hstops, rfl, rfl⟩]
    | @localPath name rest hname hstops =>
      have hrun : (name ++ rest).takeWhile isLocalChar = name :=
        takeWhile_eq_iff.mpr ⟨rest, rfl, hname, hstops⟩
      simp [target?, url?_cons_of_period, local?, hrun]

theorem ReadsTarget.isPrefix {s target : List Char} {isLocal : Bool}
    (h : ReadsTarget s target isLocal) :
    target <+: s := by
  cases h with
  | url => exact (List.prefix_append_right_inj _).mpr (path_isPrefix _)
  | localPath => exact List.prefix_append ..

theorem ReadsTarget.isTarget_of_isLocal {s target : List Char} {isLocal : Bool}
    (h : ReadsTarget s target isLocal) :
    if isLocal then IsLocal target else IsUrl target := by
  cases h with
  | url hopening hhost => exact ⟨_, _, _, hopening, hhost, isPath_path _, rfl⟩
  | localPath hname => exact ⟨_, hname, rfl⟩

theorem ReadsTarget.isTarget {s target : List Char} {isLocal : Bool}
    (h : ReadsTarget s target isLocal) :
    IsTarget target := by
  cases isLocal with
  | false => exact .inl h.isTarget_of_isLocal
  | true => exact .inr h.isTarget_of_isLocal

/-! ### Where targets start -/

/-- What every target has at its front; whether a target stands somewhere hangs on no more than
that. -/
inductive IsStart : List Char → Prop
  | url {opening host : List Char} : IsOpening opening → IsHost host → IsStart (opening ++ host)
  | localPath : IsStart ['.', '/']

theorem IsTarget.exists_isStart {target : List Char} (h : IsTarget target) :
    ∃ start, IsStart start ∧ start <+: target := by
  rcases h with ⟨opening, host, path, hopening, hhost, -, rfl⟩ | ⟨rest, -, rfl⟩
  · exact ⟨opening ++ host, .url hopening hhost, List.prefix_append ..⟩
  · exact ⟨['.', '/'], .localPath, List.prefix_append ['.', '/'] rest⟩

theorem IsStart.exists_readsTarget {start s : List Char} (h : IsStart start) (hs : start <+: s) :
    ∃ target isLocal, ReadsTarget s target isLocal := by
  obtain ⟨after, rfl⟩ := hs
  cases h with
  | @url opening host hopening hhost =>
    -- the host goes on as far as the text has characters of a host
    obtain ⟨rest, hafter, hmore, hstops⟩ :=
      takeWhile_eq_iff.mp (rfl : after.takeWhile isHostChar = _)
    generalize after.takeWhile isHostChar = more at hafter hmore
    subst hafter
    have hlong : IsHost (host ++ more) :=
      ⟨by simp [hhost.nonempty], List.forall_mem_append.mpr ⟨hhost.chars, hmore⟩⟩
    have hreads : ReadsTarget (opening ++ (host ++ more) ++ rest) _ false :=
      .url hopening hlong hstops
    simp only [List.append_assoc] at hreads ⊢
    exact ⟨_, false, hreads⟩
  | localPath =>
    obtain ⟨rest, hafter, hname, hstops⟩ :=
      takeWhile_eq_iff.mp (rfl : after.takeWhile isLocalChar = _)
    generalize after.takeWhile isLocalChar = name at hafter hname
    subst hafter
    exact ⟨'.' :: '/' :: name, true, .localPath hname hstops⟩

theorem ReadsTarget.exists_isStart {s target : List Char} {isLocal : Bool}
    (h : ReadsTarget s target isLocal) :
    ∃ start, IsStart start ∧ start <+: target :=
  h.isTarget.exists_isStart

/-- Neither parentheses nor backticks stand where a target starts. -/
theorem IsStart.forall_ne {start : List Char} (h : IsStart start) :
    ∀ c ∈ start, c ≠ '(' ∧ c ≠ ')' ∧ c ≠ '\x60' := by
  cases h with
  | @url opening host hopening hhost =>
    obtain ⟨protocol, hprotocol, rfl⟩ := hopening
    have hprotocols : (protocols.all fun protocol =>
        (protocol ++ [':', '/', '/']).all fun c =>
          c != '(' && (c != ')' && c != '\x60')) = true := by
      decide
    simp only [List.all_eq_true, Bool.and_eq_true, bne_iff_ne] at hprotocols
    refine List.forall_mem_append.mpr ⟨hprotocols protocol hprotocol, fun c hc => ?_⟩
    have hchar := hhost.chars c hc
    exact ⟨ne_of_class hchar rfl, ne_of_class hchar rfl, ne_of_class hchar rfl⟩
  | localPath => simp

theorem IsStart.forall_ne_paren {start : List Char} (h : IsStart start) :
    ∀ c ∈ start, c ≠ '(' ∧ c ≠ ')' :=
  fun c hc => (h.forall_ne c hc).imp_right And.left

theorem IsStart.ne_nil {start : List Char} (h : IsStart start) : start ≠ [] := by
  cases h with
  | url _ hhost => simp [hhost.nonempty]
  | localPath => exact List.cons_ne_nil _ _

theorem IsStart.head_ne {start s : List Char} {c : Char} (h : IsStart start)
    (hs : start <+: c :: s) :
    c ≠ '(' ∧ c ≠ ')' ∧ c ≠ '\x60' := by
  obtain ⟨d, start, rfl⟩ := List.exists_cons_of_ne_nil h.ne_nil
  rw [List.cons_prefix_cons] at hs
  exact hs.1 ▸ h.forall_ne d (List.mem_cons_self ..)

/-! ### Reading a link -/

theorem titled?_eq_some_iff {s : List Char} {link : Link} :
    titled? s = some link ↔ ∃ title target isLocal after, title.IsTitle ∧
      ReadsTarget after target isLocal ∧
      s = ['('] ++ title.text ++ [')', title.separator] ++ after ∧
      link = ⟨some title, target, isLocal⟩ := by
  constructor
  · intro h
    unfold titled? at h
    split at h
    · rename_i rest
      simp only at h
      generalize hrun : rest.takeWhile (· != ')') = text at h
      obtain ⟨rest, rfl, htext, hstops⟩ := takeWhile_eq_iff.mp hrun
      rw [List.drop_left] at h
      split at h
      · cases h
      · rename_i hne
        split at h
        · rename_i separator after
          split at h
          · cases h
          · rename_i hseparator
            obtain ⟨target, isLocal, hreads, rfl⟩ := target?_eq_some_iff.mp h
            have hclosing : ')' ∉ text := fun hmem => by simpa using htext _ hmem
            exact ⟨⟨text, separator⟩, target, isLocal, after,
              ⟨by simpa using hne, hclosing, by simpa using hseparator⟩, hreads, by simp, rfl⟩
        · cases h
    · cases h
  · rintro ⟨title, target, isLocal, after, htitle, hreads, rfl, rfl⟩
    have hrun : (title.text ++ ')' :: title.separator :: after).takeWhile
        (· != ')') = title.text := by
      refine takeWhile_eq_iff.mpr ⟨_, rfl, fun c hc => ?_, fun c rest h => ?_⟩
      · exact bne_iff_ne.mpr fun heq => htitle.noClosing (heq ▸ hc)
      · cases h
        rfl
    have htarget : target? (some title) after = some ⟨some title, target, isLocal⟩ :=
      target?_eq_some_iff.mpr ⟨target, isLocal, hreads, rfl⟩
    simp only [List.append_assoc, List.cons_append, List.nil_append, titled?, hrun, List.drop_left,
      List.isEmpty_iff, htitle.nonempty, if_false, htitle.separator, Bool.false_eq_true, htarget]

/-- How a link stands at the front of a text. -/
inductive ReadsLink : List Char → Link → Prop
  | bare {s target : List Char} {isLocal : Bool} :
      ReadsTarget s target isLocal → ReadsLink s ⟨none, target, isLocal⟩
  | titled {after target : List Char} {isLocal : Bool} {title : Title} : title.IsTitle →
    ReadsTarget after target isLocal →
    ReadsLink (['('] ++ title.text ++ [')', title.separator] ++ after) ⟨some title, target, isLocal⟩

/-- No title stands where a target does. -/
theorem ReadsTarget.titled?_eq_none {s target : List Char} {isLocal : Bool}
    (h : ReadsTarget s target isLocal) :
    titled? s = none := by
  rw [Option.eq_none_iff_forall_ne_some]
  intro link hlink
  obtain ⟨title, -, -, after, -, -, rfl, -⟩ := titled?_eq_some_iff.mp hlink
  obtain ⟨start, hstart, hfront⟩ := h.exists_isStart
  exact (hstart.head_ne (hfront.trans h.isPrefix)).1 rfl

theorem link?_eq_some_iff {s : List Char} {link : Link} :
    link? s = some link ↔ ReadsLink s link := by
  constructor
  · intro h
    unfold link? at h
    split at h
    · rename_i found hfound
      obtain ⟨title, target, isLocal, after, htitle, hreads, rfl, rfl⟩ :=
        titled?_eq_some_iff.mp hfound
      exact Option.some.inj h ▸ .titled htitle hreads
    · obtain ⟨target, isLocal, hreads, rfl⟩ := target?_eq_some_iff.mp h
      exact .bare hreads
  · intro h
    cases h with
    | bare hreads => rw [link?, hreads.titled?_eq_none, target?_eq_some_iff.mpr ⟨_, _, hreads, rfl⟩]
    | titled htitle hreads =>
      rw [link?, titled?_eq_some_iff.mpr ⟨_, _, _, _, htitle, hreads, rfl, rfl⟩]

theorem ReadsLink.isPrefix {s : List Char} {link : Link} (h : ReadsLink s link) :
    link.source <+: s := by
  cases h with
  | bare hreads => exact hreads.isPrefix
  | titled _ hreads => exact (List.prefix_append_right_inj _).mpr hreads.isPrefix

theorem ReadsLink.isTarget_of_isLocal {s : List Char} {link : Link} (h : ReadsLink s link) :
    if link.isLocal then IsLocal link.target else IsUrl link.target := by
  cases h with
  | bare hreads => exact hreads.isTarget_of_isLocal
  | titled _ hreads => exact hreads.isTarget_of_isLocal

/-- A link that is read is one of the grammar. -/
theorem ReadsLink.isLink {s : List Char} {link : Link} (h : ReadsLink s link) :
    IsLink link.source (link.title.map Title.text) link.target := by
  cases h with
  | bare hreads => exact .bare hreads.isTarget
  | titled htitle hreads => exact .titled htitle hreads.isTarget

theorem IsTarget.ne_nil {target : List Char} (h : IsTarget target) : target ≠ [] := by
  rintro rfl
  obtain ⟨start, hstart, hfront⟩ := h.exists_isStart
  exact hstart.ne_nil (List.prefix_nil.mp hfront)

theorem IsLink.ne_nil {s target : List Char} {title : Option (List Char)}
    (h : IsLink s title target) : s ≠ [] := by
  cases h with
  | bare htarget => exact htarget.ne_nil
  | titled => simp

end PackageReadme.Emphasis
