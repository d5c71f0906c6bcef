import MeshConsole.Proofs.Url.Escapes
import MeshConsole.Url.Basic

/-!
# Authorities

An authority that was read is shown with its parts escaped anew, and read back
as it was (`readAuthority?_shown`). Only the zone of a bracketed address
may hold what is shown in a form that is not read (`Legible`).
-/

namespace MeshConsole.Url

-- ---------------------------------------------------------------------------
-- Separators
-- ---------------------------------------------------------------------------

theorem splitLast_append (h : b ∉ t) (s : Text) : splitLast b (s ++ b :: t) = some (s, b :: t) := by
  have hreverse : (s ++ b :: t).reverse = t.reverse ++ b :: s.reverse := by simp
  rw [splitLast, hreverse, Text.span_before (by simpa using h)]
  simp

theorem splitLast_eq_none (h : b ∉ t) : splitLast b t = none := by
  rw [splitLast, Text.span_whole (by simpa using h)]

theorem exists_last (h : b ∈ t) : ∃ s after, t = s ++ b :: after ∧ b ∉ after := by
  obtain ⟨front, rest, hsplit, hfront⟩ := List.eq_append_cons_of_mem (List.mem_reverse.mpr h)
  refine ⟨rest.reverse, front.reverse, ?_, by simpa using hfront⟩
  rw [← List.reverse_reverse t, hsplit]
  simp

/-- A byte that may not be escaped is in a text only if it was written there. -/
theorem Unescapes.mem_of_bare (h : Unescapes part t u) (hb : mayBeEscaped part b.toNat = false)
    (hmem : b ∈ u) : b ∈ t := by
  rcases h.mem hmem with hmem | hmay
  · exact hmem.1
  · simp [hb] at hmay

-- ---------------------------------------------------------------------------
-- Bytes of a host
-- ---------------------------------------------------------------------------

theorem passes_host {host : Text} (h : Unescapes .host t host) : ∀ b ∈ host, Passes .host .host b := by
  intro b hb
  unfold Passes
  split
  · rename_i hmust
    rcases h.mem hb with ⟨-, hrefuses⟩ | hmay
    · have hlarge : ¬ b < 0x80 := by simpa [refuses, hmust] using hrefuses
      simp only [mayBeEscaped, Bool.or_eq_true, decide_eq_true_eq]
      rw [UInt8.not_lt, UInt8.le_iff_toNat_le] at hlarge
      exact .inl hlarge
    · exact hmay
  · rename_i hmust
    simp [refuses, hmust]

theorem passes_zone {b : UInt8} (hb : b < 0x80)
    (h : refuses .zone b = false ∨ mayBeEscaped .zone b.toNat = true) : Passes .host .zone b := by
  have hsame : mustEscape .zone b = mustEscape .host b := rfl
  unfold Passes
  split
  · rename_i hmust
    rcases h with hrefuses | hmay
    · simp [refuses, hb, hsame, hmust] at hrefuses
    · exact hmay
  · rename_i hmust
    simp [refuses, hsame, hmust]

theorem mayBeEscaped_zone {b : UInt8} (hb : b < 0x80) (h : mayBeEscaped .host b.toNat = true) :
    mayBeEscaped .zone b.toNat = true := by
  rw [UInt8.lt_iff_toNat_lt] at hb
  have hsmall : ¬ 0x80 ≤ b.toNat := Nat.not_le.mpr hb
  simp only [mayBeEscaped, hsmall, decide_false, Bool.false_or] at h
  simp [mayBeEscaped, h]

-- ---------------------------------------------------------------------------
-- Address literals
-- ---------------------------------------------------------------------------

theorem splitZone_cons (h : ∀ rest, b :: t ≠ Ascii.percent :: 0x32 :: 0x35 :: rest) (done : Text) :
    splitZone done (b :: t) = splitZone (b :: done) t := by
  rw [splitZone]
  rintro rest rfl rfl
  exact h rest rfl

theorem splitZone_escape {t : Text} (h : Ascii.percent ∉ t) (done rest : Text) :
    splitZone done (escape .host t ++ rest) = splitZone ((escape .host t).reverse ++ done) rest := by
  have hdigit : ∀ d < 16, escapeDigit d ≠ Ascii.percent := by decide
  have hcode : ∀ b : UInt8, b ≠ Ascii.percent →
      ¬ (escapeDigit (b.toNat / 16) = 0x32 ∧ escapeDigit (b.toNat % 16) = 0x35) :=
    forall_byte (by decide +kernel)
  induction t generalizing done with
  | nil => rfl
  | cons b t ih =>
    rw [List.mem_cons, not_or] at h
    have hb : b ≠ Ascii.percent := Ne.symm h.1
    rw [escape_cons, List.append_assoc]
    -- An escape has a percent sign too, but only that of a percent sign goes on with 25.
    split
    · have hlt := b.toNat_lt
      rw [percentByte_eq]
      show splitZone done (Ascii.percent :: _ :: _ :: (escape .host t ++ rest)) = _
      rw [splitZone_cons, splitZone_cons, splitZone_cons, ih h.2]
      · simp
      · rintro _ heq
        exact hdigit _ (by omega) (List.head_eq_of_cons_eq heq)
      · rintro _ heq
        exact hdigit _ (by omega) (List.head_eq_of_cons_eq heq)
      · rintro _ heq
        simp only [List.cons.injEq, true_and] at heq
        exact hcode b hb ⟨heq.1, heq.2.1⟩
    · rw [List.singleton_append, splitZone_cons, ih h.2]
      · simp
      · exact fun _ heq => hb (List.head_eq_of_cons_eq heq)

theorem splitZone_eq_some {done t : Text} (h : splitZone done t = some (address, zone)) :
    ∃ rest, zone = Ascii.percent :: 0x32 :: 0x35 :: rest := by
  fun_induction splitZone done t with
  | case1 => cases h
  | case2 done rest =>
    cases h
    exact ⟨rest, rfl⟩
  | case3 _ _ _ _ ih => exact ih h

section
variable {literal : Text}

/-- The bytes of an address, before the first percent sign, and those of a zone. -/
theorem readLiteral?_passes (h : readLiteral? t = some literal) :
    (∀ b ∈ literal.takeWhile (· != Ascii.percent), Passes .host .host b) ∧
      ∀ b ∈ literal, b < 0x80 → Passes .host .zone b := by
  have hzone {t u : Text} (hu : Unescapes .host t u) : ∀ b ∈ u, b < 0x80 → Passes .host .zone b := by
    intro b hb hsmall
    exact passes_zone hsmall ((hu.mem hb).imp And.right (mayBeEscaped_zone hsmall))
  unfold readLiteral? at h
  cases hsplit : splitZone [] t with
  | none =>
    rw [hsplit] at h
    have hu := unescape?_eq_some_iff.mp h
    exact ⟨fun b hb => passes_host hu b ((List.takeWhile_sublist _).subset hb), hzone hu⟩
  | some halves =>
    obtain ⟨address, zone⟩ := halves
    obtain ⟨rest, rfl⟩ := splitZone_eq_some hsplit
    simp only [hsplit, Option.bind_eq_bind, Option.bind_eq_some_iff, Option.pure_def,
      Option.some.injEq] at h
    obtain ⟨u, hu, w, hw, rfl⟩ := h
    rw [unescape?_eq_some_iff] at hu hw
    obtain ⟨w, rfl⟩ : ∃ rest, w = Ascii.percent :: rest := by
      cases hw with
      | plain hb _ _ => exact absurd rfl hb
      | escaped ha hb _ _ =>
        cases ha
        cases hb
        exact ⟨_, rfl⟩
    constructor
    · intro b hb
      have hstop : (Ascii.percent :: w).takeWhile (· != Ascii.percent) = [] := rfl
      rw [List.takeWhile_append, hstop, List.append_nil] at hb
      split at hb
      · exact passes_host hu b hb
      · exact passes_host hu b ((List.takeWhile_sublist _).subset hb)
    · intro b hb hsmall
      rcases List.mem_append.mp hb with hb | hb
      · exact hzone hu b hb hsmall
      · exact passes_zone hsmall ((hw.mem hb).imp_left And.right)

theorem readLiteral?_escape
    (haddress : ∀ b ∈ literal.takeWhile (· != Ascii.percent), Passes .host .host b)
    (hzone : ∀ b ∈ literal, Passes .host .zone b) :
    readLiteral? (escape .host literal) = some literal := by
  have hliteral := List.takeWhile_append_dropWhile (p := (· != Ascii.percent)) (l := literal)
  have hhead := List.head?_dropWhile_not (· != Ascii.percent) literal
  have hfront : Ascii.percent ∉ literal.takeWhile (· != Ascii.percent) := fun hmem =>
    absurd (List.all_eq_true.mp List.all_takeWhile _ hmem) (by decide)
  generalize literal.takeWhile (· != Ascii.percent) = address at *
  have hread := unescape?_escape_nil haddress
  cases hrest : literal.dropWhile (· != Ascii.percent) with
  | nil =>
    rw [hrest, List.append_nil] at hliteral
    subst hliteral
    have hsplit : splitZone [] (escape .host address) = none := by
      simpa [splitZone] using splitZone_escape hfront [] []
    rw [readLiteral?, hsplit]
    exact hread
  | cons b zone =>
    have hb : b = Ascii.percent := by simpa [hrest] using hhead
    subst hb
    rw [hrest] at hliteral
    subst hliteral
    have hescape : escape .host (Ascii.percent :: zone) =
        Ascii.percent :: 0x32 :: 0x35 :: escape .host zone := rfl
    have hsplit : splitZone [] (escape .host address ++ escape .host (Ascii.percent :: zone)) =
        some (escape .host address, escape .host (Ascii.percent :: zone)) := by
      rw [splitZone_escape hfront, hescape]
      simp [splitZone]
    have hreadZone : unescape? .zone (escape .host (Ascii.percent :: zone)) =
        some (Ascii.percent :: zone) :=
      unescape?_escape_nil fun b hb => hzone b (List.mem_append_right _ hb)
    rw [readLiteral?, escape_append, hsplit]
    simp [hread, hreadZone]

end

-- ---------------------------------------------------------------------------
-- Hosts
-- ---------------------------------------------------------------------------

/-- A host that is shown in a form that is read: what stands in brackets is ASCII
and opens no other bracket. -/
def Legible (host : Text) : Prop :=
  host.head? = some Ascii.openBracket → ∀ b ∈ host.tail, b < 0x80 ∧ b ≠ Ascii.openBracket

instance (host : Text) : Decidable (Legible host) := inferInstanceAs (Decidable (_ → _))

theorem isOptionalPort_bytes {port : Text} (h : isOptionalPort port = true) :
    ∀ b ∈ port, b = Ascii.colon ∨ Ascii.isDigit b = true := by
  unfold isOptionalPort at h
  intro b hb
  split at h
  · cases hb
  · exact (List.mem_cons.mp hb).imp_right (List.all_eq_true.mp h b)
  · cases h

theorem mustEscape_port {b : UInt8} (h : b = Ascii.colon ∨ Ascii.isDigit b = true) :
    mustEscape .host b = false := by
  have hall : ∀ b : UInt8, b = Ascii.colon ∨ Ascii.isDigit b = true → mustEscape .host b = false :=
    forall_byte (by decide +kernel)
  exact hall b h

theorem escape_port {port : Text} (h : isOptionalPort port = true) : escape .host port = port :=
  escape_of_plain fun b hb => mustEscape_port (isOptionalPort_bytes h b hb)

theorem readHost?_stray (hhead : t.head? ≠ some Ascii.openBracket) (h : Ascii.openBracket ∈ t) :
    readHost? t = none := by
  unfold readHost?
  split
  · exact absurd rfl hhead
  · rw [if_pos (by simpa using h)]

theorem readHost?_unbracketed (h : Ascii.openBracket ∉ t) :
    readHost? t =
      match splitLast Ascii.colon t with
      | some (_, port) => if isOptionalPort port then unescape? .host t else none
      | none => unescape? .host t := by
  unfold readHost?
  split
  · exact absurd (by simp) h
  · exact if_neg (by simpa using h)

section
variable {host : Text}

theorem readHost?_escape_unbracketed (hopen : Ascii.openBracket ∉ t) (h : readHost? t = some host) :
    readHost? (escape .host host) = some host := by
  have hescape {b : UInt8} (hbare : mayBeEscaped .host b.toNat = false) (hb : b ∉ escapeBytes)
      (hu : Unescapes .host t host) (hmem : b ∉ t) : b ∉ escape .host host :=
    not_mem_escape_of_not_mem hb fun hin => hmem (hu.mem_of_bare hbare hin)
  rw [readHost?_unbracketed hopen] at h
  by_cases hcolon : Ascii.colon ∈ t
  · obtain ⟨s, digits, rfl, hdigits⟩ := exists_last hcolon
    rw [splitLast_append hdigits, Option.ite_none_right_eq_some, unescape?_eq_some_iff] at h
    obtain ⟨hport, hu⟩ := h
    rw [readHost?_unbracketed (hescape rfl (by decide) hu hopen)]
    -- A port needs no escape: its colon is the last one of what is shown, too.
    obtain ⟨v, w, -, hw, rfl⟩ := hu.split (by decide) (by decide)
    have hwhole : w = Ascii.colon :: digits := by
      have hplain : Unescapes .host (Ascii.colon :: digits) (Ascii.colon :: digits) :=
        .of_plain fun b hb => by
          have hmust := mustEscape_port (isOptionalPort_bytes hport b hb)
          exact ⟨ne_percent hmust, by simp [refuses, hmust]⟩
      rw [← unescape?_eq_some_iff] at hw hplain
      exact Option.some.inj (hw.symm.trans hplain)
    have hread := unescape?_escape_nil (passes_host hu)
    rw [hwhole, escape_append, escape_port hport] at hread ⊢
    rw [splitLast_append hdigits]
    simp [hport, hread]
  · rw [splitLast_eq_none hcolon] at h
    have hu := unescape?_eq_some_iff.mp h
    rw [readHost?_unbracketed (hescape rfl (by decide) hu hopen),
      splitLast_eq_none (hescape rfl (by decide) hu hcolon)]
    exact unescape?_escape_nil (passes_host hu)

theorem readHost?_opened (inner : Text) :
    readHost? (Ascii.openBracket :: inner) =
      (splitLast Ascii.closeBracket inner).bind fun halves =>
        if inner.contains Ascii.openBracket || !isOptionalPort (halves.2.drop 1) then none
        else (readLiteral? halves.1).bind fun literal =>
          if Ipv6.isZonedAddress literal then
            some (Ascii.openBracket :: literal ++ halves.2)
          else none := by
  unfold readHost?
  split
  · rename_i heq
    obtain rfl := List.tail_eq_of_cons_eq heq
    cases splitLast Ascii.closeBracket inner <;> rfl
  · rename_i hother
    exact absurd rfl (hother inner)

theorem readHost?_bracketed (h : Ascii.closeBracket ∉ port) (inside : Text) :
    readHost? (Ascii.openBracket :: (inside ++ Ascii.closeBracket :: port)) =
      if (inside ++ Ascii.closeBracket :: port).contains Ascii.openBracket || !isOptionalPort port
      then none
      else (readLiteral? inside).bind fun literal =>
        if Ipv6.isZonedAddress literal then
          some (Ascii.openBracket :: literal ++ Ascii.closeBracket :: port)
        else none := by
  rw [readHost?_opened, splitLast_append h]
  rfl

theorem readHost?_unclosed (h : Ascii.closeBracket ∉ t) :
    readHost? (Ascii.openBracket :: t) = none := by
  rw [readHost?_opened, splitLast_eq_none h, Option.bind_none]

theorem readHost?_escape_bracketed (h : readHost? (Ascii.openBracket :: t) = some host)
    (hlegible : Legible host) : readHost? (escape .host host) = some host := by
  by_cases hclose : Ascii.closeBracket ∈ t
  · obtain ⟨inside, port, rfl, hport⟩ := exists_last hclose
    rw [readHost?_bracketed hport] at h
    split at h
    · cases h
    · rename_i hplain
      rw [Bool.not_eq_true, Bool.or_eq_false_iff, Bool.not_eq_false'] at hplain
      obtain ⟨-, hoptional⟩ := hplain
      simp only [Option.bind_eq_some_iff, Option.ite_none_right_eq_some,
        Option.some.injEq] at h
      obtain ⟨literal, hliteral, hzoned, rfl⟩ := h
      obtain ⟨haddress, hzone⟩ := readLiteral?_passes hliteral
      have hascii : ∀ b ∈ literal, b < 0x80 ∧ b ≠ Ascii.openBracket := fun b hb =>
        hlegible rfl b (by simp [hb])
      have hread := readLiteral?_escape haddress fun b hb => hzone b hb (hascii b hb).1
      have hescape : escape .host (Ascii.openBracket :: literal ++ Ascii.closeBracket :: port) =
          Ascii.openBracket :: (escape .host literal ++ Ascii.closeBracket :: port) := by
        rw [List.cons_append, escape_cons, escape_append, escape_cons, escape_port hoptional]
        rfl
      have hopen : Ascii.openBracket ∉ escape .host literal ++ Ascii.closeBracket :: port := by
        have hdigits : Ascii.openBracket ∉ port := fun hmem =>
          absurd (isOptionalPort_bytes hoptional _ hmem) (by decide)
        have hfront : Ascii.openBracket ∉ escape .host literal :=
          not_mem_escape_of_not_mem (by decide) fun hmem => (hascii _ hmem).2 rfl
        have hclose : Ascii.openBracket ≠ Ascii.closeBracket := by decide
        simp [hfront, hdigits, hclose]
      rw [hescape, readHost?_bracketed hport, if_neg (by simpa [hoptional] using hopen)]
      simp [hread, hzoned]
  · rw [readHost?_unclosed hclose] at h
    cases h

theorem readHost?_escape (h : readHost? t = some host) (hlegible : Legible host) :
    readHost? (escape .host host) = some host := by
  by_cases hhead : t.head? = some Ascii.openBracket
  · obtain ⟨inner, rfl⟩ := List.head?_eq_some_iff.mp hhead
    exact readHost?_escape_bracketed h hlegible
  · refine readHost?_escape_unbracketed (fun hmem => ?_) h
    rw [readHost?_stray hhead hmem] at h
    cases h

end

-- ---------------------------------------------------------------------------
-- Users
-- ---------------------------------------------------------------------------

theorem isUserByte_escape {t : Text} : ∀ b ∈ escape .user t, isUserByte b = true := by
  have hescape : ∀ b ∈ escapeBytes, isUserByte b = true := by decide
  intro b hb
  rcases mem_escape hb with ⟨-, hshown⟩ | hb
  · unfold mustEscape at hshown
    split at hshown
    · rename_i hcommon
      rcases Bool.or_eq_true_iff.mp hcommon with hword | hmark
      · simp [isUserByte, hword]
      · exact of_among (P := (isUserByte · = true)) (by decide) hmark
    · rw [Bool.not_eq_false'] at hshown
      exact of_among (P := (isUserByte · = true)) (by decide) hshown
  · exact hescape b hb

theorem isUserByte_text (user : UserInfo) : ∀ b ∈ UserInfo.text user, isUserByte b = true := by
  obtain ⟨name, _ | password⟩ := user
  · simpa [UserInfo.text] using isUserByte_escape
  · intro b hb
    rcases List.mem_append.mp hb with hb | hb
    · exact isUserByte_escape b hb
    · rcases List.mem_cons.mp hb with rfl | hb
      · decide
      · exact isUserByte_escape b hb

/-- A name is shown without a colon, so the first one stands before the password. -/
theorem readUser?_text (user : UserInfo) : readUser? (UserInfo.text user) = some user := by
  have hread (t : Text) : unescape? .user (escape .user t) = some t :=
    unescape?_escape_nil fun b _ => passes_user .user b
  have hcolon (t : Text) : Ascii.colon ∉ escape .user t := not_mem_escape (by decide) rfl
  have hall : (UserInfo.text user).all isUserByte = true :=
    List.all_eq_true.mpr (isUserByte_text user)
  rw [readUser?, if_neg (by simp [hall])]
  obtain ⟨name, _ | password⟩ := user
  · simp [UserInfo.text, Text.cut?_eq_none (hcolon name), hread]
  · simp [UserInfo.text, Text.cut?_append (hcolon name), hread]

-- ---------------------------------------------------------------------------
-- Authorities
-- ---------------------------------------------------------------------------

/-- A user as shown before a host. -/
def userText : Option UserInfo → Text
  | none => []
  | some user => UserInfo.text user ++ [Ascii.atSign]

section
variable {user : Option UserInfo} {host : Text}

theorem readHost?_of_readAuthority? (h : readAuthority? t = some (user, host)) :
    ∃ t, readHost? t = some host := by
  unfold readAuthority? at h
  split at h
  · obtain ⟨_, hhost, heq⟩ := Option.bind_eq_some_iff.mp h
    cases heq
    exact ⟨_, hhost⟩
  · obtain ⟨_, hhost, h⟩ := Option.bind_eq_some_iff.mp h
    obtain ⟨_, -, heq⟩ := Option.bind_eq_some_iff.mp h
    cases heq
    exact ⟨_, hhost⟩

/-- A host is shown without an at sign, so the last one stands behind the user. -/
theorem readAuthority?_shown (h : readAuthority? t = some (user, host))
    (hlegible : Legible host) :
    readAuthority? (userText user ++ escape .host host) = some (user, host) := by
  obtain ⟨_, hhost⟩ := readHost?_of_readAuthority? h
  have hread := readHost?_escape hhost hlegible
  have hat : Ascii.atSign ∉ escape .host host := not_mem_escape (by decide) rfl
  cases user with
  | none => simp [readAuthority?, userText, splitLast_eq_none hat, hread]
  | some user =>
    have hsplit : splitLast Ascii.atSign (userText (some user) ++ escape .host host) =
        some (UserInfo.text user, Ascii.atSign :: escape .host host) := by
      simpa [userText] using splitLast_append hat (UserInfo.text user)
    simp [readAuthority?, hsplit, hread, readUser?_text]

end

end MeshConsole.Url
