import MeshConsole.Proofs.Json.Spelling
import MeshConsole.Proofs.Json.Value
import MeshConsole.Proofs.Url.Authority

/-!
# The parts of a URL

A URL that names a host, without query and fragment, is a scheme, an authority
and a path (`exists_parts`), and any such parts are read as a URL
(`Parts.parse?`). It is shown with its parts escaped anew (`text_of_host`), and
read back as it was (`Parts.shown`).
-/

namespace MeshConsole.Url

open Json (span_append_stops span_split)

/-- A byte that a URL may hold before its query. -/
def IsPlain (b : UInt8) : Prop :=
  Ascii.blank ≤ b ∧ b ≠ 0x7F ∧ b ≠ Ascii.hash ∧ b ≠ Ascii.question

instance : DecidablePred IsPlain := fun _ => inferInstanceAs (Decidable (_ ∧ _))

def isSchemeByte (b : UInt8) : Bool :=
  isAlphanumeric b || b == Ascii.plus || b == Ascii.minus || b == Ascii.dot

/-- The text with a scheme, an authority and a path. -/
def joined (scheme authority path : Text) : Text := scheme ++ "://" ++ authority ++ path

theorem joined_eq (scheme authority path : Text) :
    joined scheme authority path =
      scheme ++ Ascii.colon :: (Text.ofString "//" ++ (authority ++ path)) := by
  have hmark : Text.ofString "://" = Ascii.colon :: Text.ofString "//" := rfl
  simp [joined, hmark]

/-- The parts that a URL is read from. -/
structure Parts (scheme authority path : Text) (url : Url) : Prop where
  starts : ∃ first more, scheme = first :: more ∧ Ascii.isLetter first = true
  schemeBytes : ∀ b ∈ scheme, isSchemeByte b = true
  plain : ∀ b ∈ authority ++ path, IsPlain b
  authorityEnds : Ascii.slash ∉ authority
  pathStarts : path = [] ∨ ∃ rest, path = Ascii.slash :: rest
  reads : readAuthority? authority = some (url.user, url.host)
  unescapes : unescape? .path path = some url.path
  eq : url = {
    scheme := Text.lowerAscii scheme, user := url.user, host := url.host, path := url.path
    rawPath := if escape .path url.path == path then [] else path }

-- ---------------------------------------------------------------------------
-- Schemes
-- ---------------------------------------------------------------------------

theorem plain_alphanumeric (h : isAlphanumeric b = true) : IsPlain b ∧ b ≠ Ascii.slash := by
  have hall : ∀ b : UInt8, isAlphanumeric b = true → IsPlain b ∧ b ≠ Ascii.slash :=
    forall_byte (by decide +kernel)
  exact hall b h

theorem plain_schemeByte (h : isSchemeByte b = true) : IsPlain b := by
  simp only [isSchemeByte, Bool.or_eq_true, beq_iff_eq] at h
  rcases h with ((hword | rfl) | rfl) | rfl
  · exact (plain_alphanumeric hword).1
  all_goals decide

theorem splitScheme_append {scheme : Text}
    (hstarts : ∃ first more, scheme = first :: more ∧ Ascii.isLetter first = true)
    (hbytes : ∀ b ∈ scheme, isSchemeByte b = true) (rest : Text) :
    splitScheme (scheme ++ Ascii.colon :: rest) = some (scheme, rest) := by
  have hspan : (scheme ++ Ascii.colon :: rest).span (fun b =>
      isAlphanumeric b || b == Ascii.plus || b == Ascii.minus || b == Ascii.dot) =
        (scheme, Ascii.colon :: rest) := span_append_stops hbytes (by rintro b ⟨⟩; decide)
  obtain ⟨first, more, rfl, hletter⟩ := hstarts
  rw [splitScheme, hspan]
  exact if_pos hletter

theorem splitScheme_eq_some {scheme : Text} (h : splitScheme t = some (scheme, rest)) :
    (scheme = [] ∧ rest = t) ∨
      t = scheme ++ Ascii.colon :: rest ∧ (∀ b ∈ scheme, isSchemeByte b = true) ∧
        ∃ first more, scheme = first :: more ∧ Ascii.isLetter first = true := by
  unfold splitScheme at h
  dsimp only at h
  split at h
  · cases h
  · rename_i first more after hspan
    obtain ⟨hbytes, rfl⟩ := span_split hspan
    split at h
    · cases h
      exact .inr ⟨rfl, hbytes, _, _, rfl, ‹_›⟩
    · cases h
      exact .inl ⟨rfl, rfl⟩
  · cases h
    exact .inl ⟨rfl, rfl⟩

-- ---------------------------------------------------------------------------
-- Reading the parts
-- ---------------------------------------------------------------------------

theorem splitQuery_eq (h : Ascii.question ∉ t) : splitQuery t = (t, [], false) := by
  rw [splitQuery, Text.cut?_eq_none h]

theorem withPath?_eq_some_iff {u : Url} : withPath? u written = some url ↔
    ∃ path, unescape? .path written = some path ∧
      url = { u with path, rawPath := if escape .path path == written then [] else written } := by
  constructor
  · intro h
    obtain ⟨path, hpath, heq⟩ := Option.bind_eq_some_iff.mp h
    cases heq
    exact ⟨path, hpath, rfl⟩
  · rintro ⟨path, hpath, rfl⟩
    simp [withPath?, hpath]

section
variable {scheme authority path : Text} {url : Url}

theorem Parts.plain_joined (h : Parts scheme authority path url) :
    ∀ b ∈ joined scheme authority path, IsPlain b := by
  have hmark : ∀ b ∈ ("://" : Text), IsPlain b := by decide
  intro b hb
  rw [joined, List.append_assoc, List.append_assoc] at hb
  rcases List.mem_append.mp hb with hb | hb
  · exact plain_schemeByte (h.schemeBytes b hb)
  rcases List.mem_append.mp hb with hb | hb
  · exact hmark b hb
  · exact h.plain b hb

theorem Parts.readHierarchy? (h : Parts scheme authority path url) :
    readHierarchy? { scheme := Text.lowerAscii scheme } ("//" ++ (authority ++ path)) =
      some url := by
  have hspan : (authority ++ path).span (· != Ascii.slash) = (authority, path) := by
    rcases h.pathStarts with rfl | ⟨rest, rfl⟩
    · rw [List.append_nil, Text.span_whole h.authorityEnds]
    · rw [Text.span_before h.authorityEnds]
  have hne : (Text.lowerAscii scheme).isEmpty = false := by
    obtain ⟨first, more, rfl, -⟩ := h.starts
    rfl
  have hdrop : (Text.ofString "//" ++ (authority ++ path)).drop 2 = authority ++ path := rfl
  rw [Url.readHierarchy?, if_pos (by simp [hne]; rfl)]
  simp only [hdrop, hspan, h.reads, Option.bind_eq_bind, Option.bind_some]
  exact withPath?_eq_some_iff.mpr ⟨url.path, h.unescapes, h.eq⟩

theorem Parts.parse? (h : Parts scheme authority path url) :
    parse? (joined scheme authority path) = some url := by
  have hplain := h.plain_joined
  have htext := joined_eq scheme authority path
  have hhash := Text.cut?_eq_none fun hmem => (hplain _ hmem).2.2.1 rfl
  have hquery : splitQuery (Text.ofString "//" ++ (authority ++ path)) =
      (Text.ofString "//" ++ (authority ++ path), [], false) := by
    refine splitQuery_eq fun hmem => (hplain Ascii.question ?_).2.2.2 rfl
    rw [htext]
    exact List.mem_append_right _ (List.mem_cons_of_mem _ hmem)
  have hcontrol : (joined scheme authority path).any (fun b => b < Ascii.blank || b == 0x7F) =
      false := by
    rw [List.any_eq_false]
    intro b hb
    obtain ⟨hblank, hdelete, -⟩ := hplain b hb
    simpa [hdelete] using hblank
  have hstar : (joined scheme authority path == Text.ofString "*") = false := by
    refine beq_eq_false_iff_ne.mpr fun heq => ?_
    have hcolon : Ascii.colon ∈ Text.ofString "*" := heq ▸ by simp [htext]
    exact absurd hcolon (by decide)
  have hsplit := splitScheme_append h.starts h.schemeBytes
    (Text.ofString "//" ++ (authority ++ path))
  rw [← htext] at hsplit
  rw [Url.parse?, hhash, readUnfragmented?, hcontrol, hstar, hsplit]
  simp only [Option.bind_eq_bind, Option.bind_some, hquery]
  exact h.readHierarchy?

/-- A host is read only behind two slashes. -/
theorem readHierarchy?_host {u : Url} (h : Url.readHierarchy? u rest = some url) (hu : u.host = [])
    (hhost : url.host ≠ []) :
    ∃ authority path, rest = ("//" : Text) ++ (authority ++ path) ∧ Ascii.slash ∉ authority ∧
      (path = [] ∨ ∃ more, path = Ascii.slash :: more) ∧
      ∃ user host, readAuthority? authority = some (user, host) ∧
        withPath? { u with user, host } path = some url := by
  have hlost {u : Url} (hu : u.host = []) (h : withPath? u rest = some url) : False := by
    obtain ⟨_, -, rfl⟩ := withPath?_eq_some_iff.mp h
    exact hhost hu
  unfold Url.readHierarchy? at h
  split at h
  · rename_i hslashes
    obtain ⟨after, hafter⟩ := Option.isSome_iff_exists.mp (Bool.and_eq_true_iff.mp hslashes).1
    obtain rfl := Json.after?_sound hafter
    have hdrop : (Text.ofString "//" ++ after).drop 2 = after := rfl
    cases hspan : after.span (· != Ascii.slash) with
    | mk authority path =>
      simp only [hdrop, hspan, Option.bind_eq_bind, Option.bind_eq_some_iff] at h
      obtain ⟨⟨user, host⟩, hread, hpath⟩ := h
      obtain ⟨hgoes, rfl⟩ := span_split hspan
      refine ⟨authority, path, rfl, ?_, ?_, user, host, hread, hpath⟩
      · exact fun hmem => absurd (hgoes _ hmem) (by decide)
      · have hstop := List.head?_dropWhile_not (· != Ascii.slash) (authority ++ path)
        rw [List.span_eq_takeWhile_dropWhile, Prod.mk.injEq] at hspan
        rw [hspan.2] at hstop
        cases path with
        | nil => exact .inl rfl
        | cons b more =>
          have hb : b = Ascii.slash := by simpa using hstop
          exact .inr ⟨more, hb ▸ rfl⟩
  · split at h
    · exact (hlost (u := { u with omitHost := true }) hu h).elim
    · exact (hlost hu h).elim

/-- Before its query and fragment a URL with a host is read behind its scheme. -/
theorem readUnfragmented?_host (h : readUnfragmented? t = some url) (hhost : url.host ≠ [])
    (hquery : Ascii.question ∉ t) :
    t.any (fun b => b < Ascii.blank || b == 0x7F) = false ∧
      ∃ scheme rest, splitScheme t = some (scheme, rest) ∧
        Url.readHierarchy? { scheme := Text.lowerAscii scheme } rest = some url := by
  unfold readUnfragmented? at h
  rw [Option.ite_none_left_eq_some, Bool.not_eq_true] at h
  obtain ⟨hcontrol, h⟩ := h
  refine ⟨hcontrol, ?_⟩
  by_cases hstar : (t == Text.ofString "*") = true
  · rw [if_pos hstar, Option.some.injEq] at h
    exact absurd (h ▸ rfl) hhost
  rw [if_neg hstar] at h
  obtain ⟨⟨scheme, rest⟩, hsplit, h⟩ := Option.bind_eq_some_iff.mp h
  refine ⟨scheme, rest, hsplit, ?_⟩
  have hrest : Ascii.question ∉ rest := by
    rcases splitScheme_eq_some hsplit with ⟨-, rfl⟩ | ⟨rfl, -⟩
    · exact hquery
    · exact fun hmem => hquery (by simp [hmem])
  simp only [splitQuery_eq hrest] at h
  split at h
  · exact h
  · split at h
    · cases h
      exact absurd rfl hhost
    · rw [Option.ite_none_left_eq_some] at h
      exact h.2

/-- A URL with a scheme and a host, and neither query nor fragment, has parts. -/
theorem exists_parts (h : Url.parse? t = some url) (hscheme : url.scheme ≠ []) (hhost : url.host ≠ [])
    (hquery : Ascii.question ∉ t) (hfragment : Ascii.hash ∉ t) :
    ∃ scheme authority path, t = joined scheme authority path ∧
      Parts scheme authority path url := by
  rw [Url.parse?, Text.cut?_eq_none hfragment] at h
  obtain ⟨hcontrol, scheme, rest, hsplit, hread⟩ := readUnfragmented?_host h hhost hquery
  have hplain : ∀ b ∈ t, IsPlain b := by
    intro b hb
    have hvisible := List.any_eq_false.mp hcontrol b hb
    simp only [Bool.or_eq_true, decide_eq_true_eq, beq_iff_eq, not_or, UInt8.not_lt] at hvisible
    exact ⟨hvisible.1, hvisible.2, fun heq => hfragment (heq ▸ hb), fun heq => hquery (heq ▸ hb)⟩
  obtain ⟨authority, path, rfl, hslash, hstarts, user, host, hreads, hpath⟩ :=
    readHierarchy?_host hread rfl hhost
  obtain ⟨decoded, hunescape, rfl⟩ := withPath?_eq_some_iff.mp hpath
  rcases splitScheme_eq_some hsplit with ⟨rfl, -⟩ | ⟨rfl, hbytes, hletter⟩
  · exact absurd rfl hscheme
  refine ⟨scheme, authority, path, (joined_eq scheme authority path).symm, hletter, hbytes,
    fun b hb => hplain b ?_, hslash, hstarts, hreads, hunescape, rfl⟩
  exact List.mem_append_right _ (List.mem_cons_of_mem _ (List.mem_append_right _ hb))

theorem Parts.path_starts (h : Parts scheme authority path url) :
    url.path = [] ∨ ∃ rest, url.path = Ascii.slash :: rest := by
  have hunescapes := unescape?_eq_some_iff.mp h.unescapes
  rcases h.pathStarts with rfl | ⟨rest, rfl⟩
  · generalize url.path = decoded at hunescapes
    cases hunescapes
    exact .inl rfl
  · generalize url.path = decoded at hunescapes
    cases hunescapes with
    | plain => exact .inr ⟨_, rfl⟩

/-- Slashes behind a URL are slashes behind its path. -/
theorem Parts.append_slashes (h : Parts scheme authority path url) (k : Nat) :
    ∃ more, Parts scheme authority (path ++ List.replicate k Ascii.slash) more ∧
      more.scheme = url.scheme ∧ more.user = url.user ∧ more.host = url.host ∧
      more.path = url.path ++ List.replicate k Ascii.slash := by
  have hslash : ∀ b ∈ List.replicate k Ascii.slash, b = Ascii.slash := fun b hb =>
    (List.mem_replicate.mp hb).2
  have hunescapes : Unescapes .path (path ++ List.replicate k Ascii.slash)
      (url.path ++ List.replicate k Ascii.slash) :=
    (unescape?_eq_some_iff.mp h.unescapes).append
      (.of_plain fun b hb => hslash b hb ▸ ⟨by decide, rfl⟩)
  let slashed := path ++ List.replicate k Ascii.slash
  let decoded := url.path ++ List.replicate k Ascii.slash
  refine ⟨{
    scheme := Text.lowerAscii scheme, user := url.user, host := url.host, path := decoded
    rawPath := if escape .path decoded == slashed then [] else slashed }, {
      starts := h.starts
      schemeBytes := h.schemeBytes
      plain := ?_
      authorityEnds := h.authorityEnds
      pathStarts := ?_
      reads := h.reads
      unescapes := unescape?_eq_some_iff.mpr hunescapes
      eq := rfl }, by rw [h.eq], rfl, rfl, rfl⟩
  · intro b hb
    rw [← List.append_assoc] at hb
    rcases List.mem_append.mp hb with hb | hb
    · exact h.plain b hb
    · exact hslash b hb ▸ by decide
  · rcases h.pathStarts with rfl | ⟨rest, rfl⟩
    · cases k with
      | zero => exact .inl rfl
      | succ k => exact .inr ⟨_, rfl⟩
    · exact .inr ⟨_, rfl⟩

end

-- ---------------------------------------------------------------------------
-- Showing the parts
-- ---------------------------------------------------------------------------

theorem shown_of_ne (h : written = [] ∨ unescape? part written ≠ some t) :
    shown part t written = escape part t := by
  rcases h with rfl | h
  · rfl
  · simp [shown, h]

theorem escape_slash (t : Text) :
    escape .path (Ascii.slash :: t) = Ascii.slash :: escape .path t := rfl

/-- A URL with a host and a path from the root shows nothing but its parts. -/
theorem text_of_host {u : Url} (hscheme : u.scheme ≠ []) (hhost : u.host ≠ [])
    (hrootless : u.rootless = []) (hquery : u.query = [] ∧ u.forceQuery = false)
    (hfragment : u.fragment = []) (hpath : ∃ rest, u.escapedPath = Ascii.slash :: rest) :
    u.text = joined u.scheme (userText u.user ++ escape .host u.host) u.escapedPath := by
  obtain ⟨rest, hrest⟩ := hpath
  have hguard : u.hasNoAuthority = false := by simp [hasNoAuthority, hhost]
  have hauthority : u.authorityText =
      Text.ofString "//" ++ (userText u.user ++ escape .host u.host) := by
    unfold authorityText
    cases u.user <;> simp [hscheme, hhost, hguard, userText]
  have hstarts : startsWith (Text.ofString "/") (Ascii.slash :: rest) = true := rfl
  have hnothing : Text.ofString "" = [] := rfl
  simp [text, hierarchyText, hrootless, hquery, hfragment, hguard, hauthority, hrest, hstarts,
    hscheme, hnothing, joined_eq]

section
variable {written authority scheme shownScheme path : Text} {url : Url}

/-- With another path nothing is left of the one it was read with. -/
theorem Parts.text_with_path (h : Parts scheme authority written url) (hhost : url.host ≠ [])
    (hshown : shownScheme ≠ []) (hpath : Ascii.slash :: path ≠ url.path) :
    { url with scheme := shownScheme, path := Ascii.slash :: path }.text =
      joined shownScheme (userText url.user ++ escape .host url.host)
        (escape .path (Ascii.slash :: path)) := by
  -- The path as it was written still stands for the old path, so it is not shown.
  have hraw : url.rawPath = [] ∨ unescape? .path url.rawPath ≠ some (Ascii.slash :: path) := by
    have hunescapes := h.unescapes
    rw [h.eq]
    dsimp only
    split
    · exact .inl rfl
    · rw [hunescapes]
      exact .inr fun heq => hpath (Option.some.inj heq).symm
  have hescaped : escapedPath { url with scheme := shownScheme, path := Ascii.slash :: path } =
      escape .path (Ascii.slash :: path) := by
    have hstar : (Ascii.slash :: path == Text.ofString "*") = false := rfl
    simp [escapedPath, hstar, shown_of_ne hraw]
  rw [← hescaped]
  refine text_of_host hshown hhost ?_ ?_ ?_ ⟨_, hescaped.trans (escape_slash path)⟩
  · rw [h.eq]
  · rw [h.eq]
    exact ⟨rfl, rfl⟩
  · rw [h.eq]

theorem plain_userText (user : Option UserInfo) :
    ∀ b ∈ userText user, IsPlain b ∧ b ≠ Ascii.slash := by
  cases user with
  | none => simp [userText]
  | some user =>
    have hmarks : ∀ b ∈ Text.ofString "-._:~!$&'()*+,;=%@", IsPlain b ∧ b ≠ Ascii.slash := by decide
    intro b hb
    rcases List.mem_append.mp hb with hb | hb
    · rcases Bool.or_eq_true_iff.mp (isUserByte_text user b hb) with hword | hmark
      · exact plain_alphanumeric hword
      · exact hmarks b (List.contains_iff_mem.mp hmark)
    · rw [List.mem_singleton.mp hb]
      decide

theorem plain_escape (hpart : part = .host ∨ part = .path) (t : Text) :
    ∀ b ∈ escape part t, IsPlain b := by
  have hescape : ∀ b ∈ escapeBytes, IsPlain b := by decide
  intro b hb
  rcases mem_escape hb with ⟨-, hshown⟩ | hb
  · unfold mustEscape at hshown
    split at hshown
    · rename_i hcommon
      rcases Bool.or_eq_true_iff.mp hcommon with hword | hmark
      · exact (plain_alphanumeric hword).1
      · exact of_among (P := IsPlain) (by decide) hmark
    · rcases hpart with rfl | rfl
      all_goals
        rw [Bool.not_eq_false'] at hshown
        exact of_among (P := IsPlain) (by decide) hshown
  · exact hescape b hb

theorem slash_not_mem_shown (user : Option UserInfo) (host : Text) :
    Ascii.slash ∉ userText user ++ escape .host host := by
  intro hmem
  rcases List.mem_append.mp hmem with hmem | hmem
  · exact (plain_userText _ _ hmem).2 rfl
  · exact not_mem_escape (by decide) rfl hmem

/-- What is shown of a URL with a host that is legible has the parts that were read. -/
theorem Parts.shown (h : Parts scheme authority written url) (hlegible : Legible url.host)
    (hstarts : ∃ first more, shownScheme = first :: more ∧ Ascii.isLetter first = true)
    (hbytes : ∀ b ∈ shownScheme, isSchemeByte b = true)
    (hlower : Text.lowerAscii shownScheme = shownScheme) :
    Parts shownScheme (userText url.user ++ escape .host url.host)
      (escape .path (Ascii.slash :: path))
      { scheme := shownScheme, user := url.user, host := url.host, path := Ascii.slash :: path } where
  starts := hstarts
  schemeBytes := hbytes
  plain b hb := by
    rw [List.append_assoc] at hb
    rcases List.mem_append.mp hb with hb | hb
    · exact (plain_userText _ b hb).1
    · rcases List.mem_append.mp hb with hb | hb
      · exact plain_escape (.inl rfl) _ b hb
      · exact plain_escape (.inr rfl) _ b hb
  authorityEnds := slash_not_mem_shown url.user url.host
  pathStarts := .inr ⟨_, escape_slash path⟩
  reads := readAuthority?_shown h.reads hlegible
  unescapes := unescape?_escape_nil fun b _ => passes_path .path b
  eq := by simp [hlower]

end

end MeshConsole.Url
