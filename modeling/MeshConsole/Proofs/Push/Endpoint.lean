import Mathlib.Data.List.DropRight
import MeshConsole.Proofs.Url.Parts
import MeshConsole.Push.Endpoint

/-!
# The join of the push endpoint

Slashes behind a gateway address and before a path make no difference to the
push endpoint: it shows the authority of the gateway, and its path with one
slash before the other (`endpoint_at_join`).
-/

namespace MeshConsole.Push

open Url (Parts joined userText escape unescape? Legible)

-- ---------------------------------------------------------------------------
-- Slashes at the join
-- ---------------------------------------------------------------------------

theorem joinPath_slashes (base path : Text) (k m : Nat) :
    joinPath (base ++ List.replicate k Ascii.slash) (List.replicate m Ascii.slash ++ path) =
      joinPath base path := by
  simp [joinPath, Text.trimRight_append_replicate, Text.trimLeft_replicate_append]

/-- A path that is more than slashes leads away from where it is joined. -/
theorem joinPath_ne {path : Text} (h : ∃ b ∈ path, b ≠ Ascii.slash) (base : Text) :
    joinPath base path ≠ base := by
  obtain ⟨b, hb, hne⟩ := h
  intro heq
  have hbase : Text.trimRight Ascii.slash base ++ base.rtakeWhile (· == Ascii.slash) = base :=
    List.rdropWhile_append_rtakeWhile
  have htail : Ascii.slash :: Text.trimLeft Ascii.slash path = base.rtakeWhile (· == Ascii.slash) :=
    List.append_cancel_left (heq.trans hbase.symm)
  have hmem : b ∈ base.rtakeWhile (· == Ascii.slash) :=
    htail ▸ List.mem_cons_of_mem _ (Text.mem_trimLeft hb hne)
  exact hne (by simpa using List.mem_rtakeWhile_imp hmem)

theorem joinPath_starts {base : Text} (h : base = [] ∨ ∃ rest, base = Ascii.slash :: rest)
    (path : Text) : ∃ rest, joinPath base path = Ascii.slash :: rest := by
  have hstart : Text.trimRight Ascii.slash base <+: base :=
    List.rdropWhile_prefix (· == Ascii.slash) base
  unfold joinPath
  cases htrim : Text.trimRight Ascii.slash base with
  | nil => exact ⟨_, rfl⟩
  | cons b more =>
    rw [htrim] at hstart
    rcases h with rfl | ⟨rest, rfl⟩
    · simp at hstart
    · rw [(List.cons_prefix_cons.mp hstart).1]
      exact ⟨_, rfl⟩

-- ---------------------------------------------------------------------------
-- Schemes
-- ---------------------------------------------------------------------------

/-- The scheme of a gateway and that of its push channel. -/
inductive Beside : Text → Text → Prop
  | http : Beside "http" "ws"
  | ws : Beside "ws" "ws"
  | https : Beside "https" "wss"
  | wss : Beside "wss" "wss"

theorem pushScheme?_eq_some_iff : pushScheme? scheme = some shown ↔ Beside scheme shown := by
  constructor
  · intro h
    simp only [pushScheme?, Bool.or_eq_true, beq_iff_eq] at h
    split at h
    · rename_i hplain
      cases h
      rcases hplain with rfl | rfl
      · exact .http
      · exact .ws
    · rw [Option.ite_none_right_eq_some] at h
      obtain ⟨hsecure, heq⟩ := h
      cases heq
      rcases hsecure with rfl | rfl
      · exact .https
      · exact .wss
  · rintro (_ | _ | _ | _) <;> rfl

theorem Beside.ne_nil (h : Beside scheme shown) : scheme ≠ [] ∧ shown ≠ [] := by
  cases h <;> decide

theorem Beside.reads (h : Beside scheme shown) :
    (∃ first more, shown = first :: more ∧ Ascii.isLetter first = true) ∧
      (∀ b ∈ shown, Url.isSchemeByte b = true) ∧ Text.lowerAscii shown = shown := by
  cases h <;> exact ⟨⟨_, _, rfl, by decide⟩, by decide, by decide⟩

-- ---------------------------------------------------------------------------
-- Endpoints
-- ---------------------------------------------------------------------------

/-- A URL text in which these parts stand, and from which they are read. The
brackets of a host that is not legible are not read back. -/
structure Shows (url scheme : Text) (user : Option UserInfo) (host path : Text) : Prop where
  text : url = joined scheme (userText user ++ escape .host host) (escape .path path)
  authorityEnds : Ascii.slash ∉ userText user ++ escape .host host
  pathStarts : ∃ rest, escape .path path = Ascii.slash :: rest
  decoded : unescape? .path (escape .path path) = some path
  reads : Legible host → Url.parse? url = some { scheme, user, host, path }

section
variable {scheme authority written shown path : Text} {root : Url}

theorem endpoint_of_parts (h : Parts scheme authority written root) (hhost : root.host ≠ [])
    (hscheme : Beside root.scheme shown) (hpath : ∃ b ∈ path, b ≠ Ascii.slash) :
    endpoint (joined scheme authority written) path =
      .ok (joined shown (userText root.user ++ escape .host root.host)
        (escape .path (joinPath root.path path))) := by
  obtain ⟨rest, hrest⟩ := joinPath_starts h.path_starts path
  have htext := h.text_with_path hhost hscheme.ne_nil.2 (hrest ▸ joinPath_ne hpath root.path)
  simp only [endpoint, h.parse?, pushScheme?_eq_some_iff.mpr hscheme, hrest]
  rw [htext]

theorem shows_of_parts (h : Parts scheme authority written root) (hscheme : Beside root.scheme shown)
    (path : Text) :
    Shows (joined shown (userText root.user ++ escape .host root.host)
      (escape .path (joinPath root.path path))) shown root.user root.host
      (joinPath root.path path) := by
  obtain ⟨rest, hrest⟩ := joinPath_starts h.path_starts path
  rw [hrest]
  exact {
    text := rfl
    authorityEnds := Url.slash_not_mem_shown root.user root.host
    pathStarts := ⟨_, Url.escape_slash rest⟩
    decoded := Url.unescape?_escape_nil fun b _ => Url.passes_path .path b
    reads := fun hlegible => by
      obtain ⟨hstarts, hbytes, hlower⟩ := hscheme.reads
      exact (h.shown hlegible hstarts hbytes hlower).parse? }

end

/-- How many slashes stand at the join makes no difference, and one is shown. -/
theorem endpoint_at_join {gateway path url : Text} {root : Url}
    (hroot : Url.parse? gateway = some root) (hhost : root.host ≠ [])
    (hquery : Ascii.question ∉ gateway) (hfragment : Ascii.hash ∉ gateway)
    (hpath : ∃ b ∈ path, b ≠ Ascii.slash) (h : endpoint gateway path = .ok url) :
    (∀ k m, endpoint (gateway ++ List.replicate k Ascii.slash)
        (List.replicate m Ascii.slash ++ path) = .ok url) ∧
      ∃ scheme, Beside root.scheme scheme ∧
        Shows url scheme root.user root.host
          (root.path.trimRight Ascii.slash ++ Ascii.slash :: path.trimLeft Ascii.slash) := by
  obtain ⟨shown, hshown⟩ : ∃ shown, Beside root.scheme shown := by
    simp only [endpoint, hroot] at h
    cases hscheme : pushScheme? root.scheme with
    | none => simp [hscheme] at h
    | some shown => exact ⟨shown, pushScheme?_eq_some_iff.mp hscheme⟩
  obtain ⟨scheme, authority, written, rfl, hparts⟩ :=
    Url.exists_parts hroot hshown.ne_nil.1 hhost hquery hfragment
  rw [endpoint_of_parts hparts hhost hshown hpath] at h
  cases h
  -- The slashed gateway has parts of its own, which join to the same path.
  refine ⟨fun k m => ?_, shown, hshown, shows_of_parts hparts hshown path⟩
  obtain ⟨more, hmore, hsame, huser, hmoreHost, hmorePath⟩ := hparts.append_slashes k
  have hjoin : ∃ b ∈ List.replicate m Ascii.slash ++ path, b ≠ Ascii.slash := by
    obtain ⟨b, hb, hne⟩ := hpath
    exact ⟨b, List.mem_append_right _ hb, hne⟩
  have heq := endpoint_of_parts hmore (hmoreHost ▸ hhost) (hsame ▸ hshown) hjoin
  rw [huser, hmoreHost, hmorePath, joinPath_slashes] at heq
  rw [← heq, joined, joined, List.append_assoc]

/-- The gateway is named with a user and a port, and its path ends with a slash. -/
theorem endpoint_at_join_of_base :
    ∃ root, Url.parse? "http://me@gw.lab:8080/a%2Fb/" = some root ∧ root.host ≠ [] ∧
      Ascii.question ∉ ("http://me@gw.lab:8080/a%2Fb/" : Text) ∧
      Ascii.hash ∉ ("http://me@gw.lab:8080/a%2Fb/" : Text) ∧
      (∃ b ∈ ("/ws" : Text), b ≠ Ascii.slash) ∧
      endpoint "http://me@gw.lab:8080/a%2Fb/" "/ws" = .ok "ws://me@gw.lab:8080/a/b/ws" ∧
      (∀ k m, endpoint ("http://me@gw.lab:8080/a%2Fb/" ++ List.replicate k Ascii.slash)
          (List.replicate m Ascii.slash ++ "/ws") = .ok "ws://me@gw.lab:8080/a/b/ws") ∧
      ∃ scheme, Beside root.scheme scheme ∧
        Shows "ws://me@gw.lab:8080/a/b/ws" scheme root.user root.host
          (root.path.trimRight Ascii.slash ++
            Ascii.slash :: Text.trimLeft Ascii.slash "/ws") := by
  have hroot : Url.parse? "http://me@gw.lab:8080/a%2Fb/" = some {
      scheme := "http", user := some { name := "me" }, host := "gw.lab:8080"
      path := "/a/b/", rawPath := "/a%2Fb/" } := by decide +kernel
  have hurl : endpoint "http://me@gw.lab:8080/a%2Fb/" "/ws" =
      .ok "ws://me@gw.lab:8080/a/b/ws" := by decide +kernel
  have hpath : ∃ b ∈ ("/ws" : Text), b ≠ Ascii.slash := ⟨0x77, by decide, by decide⟩
  exact ⟨_, hroot, by decide, by decide, by decide, hpath, hurl,
    endpoint_at_join hroot (by decide) (by decide) (by decide) hpath hurl⟩

end MeshConsole.Push
