import Mathlib.Data.List.TakeDrop
import MeshConsole.Json.Peek
import MeshConsole.Json.Tree
import MeshConsole.Proofs.Json.Scalar

/-!
# Spelling of strings

Two readers look at payloads: one peeks at a member, the other reads the
whole text into a tree. `Spelled` says which strings the second one accepts
and what text each stands for. The first one ends such a string at the same
quote (`Shut`), and takes it for the same text or for one that is likewise
not ASCII (`Spelled.bodyText`).
-/

namespace MeshConsole.Json

open Peek

/-- What stands between the quotes of a string that is read into a tree, and
the text it stands for. -/
inductive Spelled : Text → Text → Prop
  | nil : Spelled [] []
  | plain {b body text} : b ≠ Ascii.quote → b ≠ Ascii.backslash → Spelled body text →
      Spelled (b :: body) (b :: text)
  | escape {letter byte body text} : simpleEscape? letter = some byte → Spelled body text →
      Spelled (Ascii.backslash :: letter :: body) (byte :: text)
  | code {a b c d code body text} : hex4? a b c d = some code → isSurrogate code = false →
      Spelled body text →
      Spelled (Ascii.backslash :: Ascii.lowerU :: a :: b :: c :: d :: body)
        (Text.encodeCode code ++ text)
  | pair {a b c d e f g h high low code body text} : hex4? a b c d = some high →
      isSurrogate high = true → hex4? e f g h = some low → pair? high low = some code →
      Spelled body text →
      Spelled (Ascii.backslash :: Ascii.lowerU :: a :: b :: c :: d ::
        Ascii.backslash :: Ascii.lowerU :: e :: f :: g :: h :: body) (Text.encodeCode code ++ text)
  | broken {a b c d e f g h high low body text} : hex4? a b c d = some high →
      isSurrogate high = true → hex4? e f g h = some low → pair? high low = none →
      Spelled body text →
      Spelled (Ascii.backslash :: Ascii.lowerU :: a :: b :: c :: d ::
        Ascii.backslash :: Ascii.lowerU :: e :: f :: g :: h :: body)
        (Text.encodeCode high ++ (Text.encodeCode low ++ text))
  | lone {a b c d high body text} : hex4? a b c d = some high → isSurrogate high = true →
      (∀ e f g h rest, body ≠ Ascii.backslash :: Ascii.lowerU :: e :: f :: g :: h :: rest) →
      Spelled body text →
      Spelled (Ascii.backslash :: Ascii.lowerU :: a :: b :: c :: d :: body)
        (Text.encodeCode high ++ text)

theorem escapedBody_spelled (h : Tree.escapedBody done t = some (text, rest)) :
    ∃ body more, Spelled body more ∧ text = done.reverse ++ more ∧
      t = body ++ Ascii.quote :: rest := by
  fun_induction Tree.escapedBody done t with
  | case1 => cases h
  | case2 =>
    cases h
    exact ⟨[], [], .nil, by simp, rfl⟩
  | case3 => cases h
  | case4 => cases h
  | case5 done a b c d high hhigh hsurrogate e f g h' t low hlow both ih =>
    obtain ⟨body, more, hbody, rfl, rfl⟩ := ih h
    cases hpair : pair? high low with
    | some code =>
      exact ⟨_, _, .pair hhigh hsurrogate hlow hpair hbody, by simp [both, hpair], rfl⟩
    | none => exact ⟨_, _, .broken hhigh hsurrogate hlow hpair hbody, by simp [both, hpair], rfl⟩
  | case6 done a b c d high hhigh hsurrogate t hlone ih =>
    obtain ⟨body, more, hbody, rfl, rfl⟩ := ih h
    refine ⟨_, _, .lone hhigh hsurrogate ?_ hbody, by simp, rfl⟩
    rintro e f g x rest rfl
    exact hlone e f g x _ rfl
  | case7 done a b c d t code hcode hsurrogate ih =>
    obtain ⟨body, more, hbody, rfl, rfl⟩ := ih h
    exact ⟨_, _, .code hcode (by simpa using hsurrogate) hbody, by simp, rfl⟩
  | case8 done letter t _ byte hbyte ih =>
    obtain ⟨body, more, hbody, rfl, rfl⟩ := ih h
    exact ⟨_, _, .escape hbyte hbody, by simp, rfl⟩
  | case9 => cases h
  | case10 => cases h
  | case11 done b t hquote _ _ hbackslash ih =>
    obtain ⟨body, more, hbody, rfl, rfl⟩ := ih h
    exact ⟨_, _, .plain hquote (by simpa using hbackslash) hbody, by simp, rfl⟩

theorem Spelled.append_plain
    (hplain : ∀ b ∈ front, (b == Ascii.quote || b == Ascii.backslash) = false)
    (h : Spelled body text) : Spelled (front ++ body) (front ++ text) := by
  induction front with
  | nil => exact h
  | cons b front ih =>
    obtain ⟨hb, hfront⟩ := List.forall_mem_cons.mp hplain
    simp only [Bool.or_eq_false_iff, beq_eq_false_iff_ne] at hb
    exact .plain hb.1 hb.2 (ih hfront)

theorem span_split {p : UInt8 → Bool} {t : Text} (h : t.span p = (front, rest)) :
    (∀ b ∈ front, p b = true) ∧ t = front ++ rest := by
  rw [List.span_eq_takeWhile_dropWhile] at h
  obtain ⟨rfl, rfl⟩ := Prod.mk.inj h
  exact ⟨fun b hb => List.all_eq_true.mp List.all_takeWhile b hb,
    List.takeWhile_append_dropWhile.symm⟩

theorem span_append_stops {p : UInt8 → Bool} (h : ∀ b ∈ t, p b = true) (hrest : Stops p rest) :
    (t ++ rest).span p = (t, rest) := by
  have hsplit := List.takeWhile_append_dropWhile (p := p) (l := t ++ rest)
  rw [dropWhile_append_stops h hrest] at hsplit
  rw [List.span_eq_takeWhile_dropWhile, dropWhile_append_stops h hrest,
    List.append_cancel_right hsplit]

theorem stringBody_spelled (h : Tree.stringBody ahead t = some (text, clean, rest)) :
    ∃ body, Spelled body text ∧ t = body ++ Ascii.quote :: rest := by
  unfold Tree.stringBody at h
  cases hspan : t.span fun b => !(b == Ascii.quote || b == Ascii.backslash) with
  | mk front after =>
    obtain ⟨hplain, rfl⟩ := span_split hspan
    simp only [Bool.not_eq_true'] at hplain
    rw [hspan] at h
    simp only at h
    split at h
    next => cases h
    next after =>
      cases h
      have hspelled := Spelled.append_plain hplain .nil
      rw [List.append_nil] at hspelled
      exact ⟨_, hspelled, rfl⟩
    next =>
      obtain ⟨⟨text', rest'⟩, hbody, heq⟩ := Option.map_eq_some_iff.mp h
      cases heq
      obtain ⟨body, more, hmore, rfl, rfl⟩ := escapedBody_spelled hbody
      rw [List.reverse_reverse, ← List.append_assoc]
      exact ⟨_, hmore.append_plain hplain, rfl⟩

-- ---------------------------------------------------------------------------
-- Where a string ends
-- ---------------------------------------------------------------------------

/-- No quote stands here but after a backslash. -/
inductive Shut : Text → Prop
  | nil : Shut []
  | plain {b body} : b ≠ Ascii.quote → b ≠ Ascii.backslash → Shut body → Shut (b :: body)
  | escape {b body} : Shut body → Shut (Ascii.backslash :: b :: body)

theorem hexValue?_plain (h : Ascii.hexValue? b = some n) :
    b ≠ Ascii.quote ∧ b ≠ Ascii.backslash := by
  constructor
  · rintro rfl
    cases h
  · rintro rfl
    cases h

theorem Shut.code {code : Nat} (h : hex4? a b c d = some code) (hbody : Shut body) :
    Shut (Ascii.backslash :: Ascii.lowerU :: a :: b :: c :: d :: body) := by
  simp only [hex4?, Option.bind_eq_bind, Option.bind_eq_some_iff] at h
  obtain ⟨w, hw, x, hx, y, hy, z, hz, -⟩ := h
  have ha := hexValue?_plain hw
  have hb := hexValue?_plain hx
  have hc := hexValue?_plain hy
  have hd := hexValue?_plain hz
  exact .escape (.plain ha.1 ha.2 (.plain hb.1 hb.2 (.plain hc.1 hc.2 (.plain hd.1 hd.2 hbody))))

theorem Spelled.shut (h : Spelled body text) : Shut body := by
  induction h with
  | nil => exact .nil
  | plain hquote hbackslash _ ih => exact .plain hquote hbackslash ih
  | escape _ _ ih => exact .escape ih
  | code hcode _ _ ih => exact .code hcode ih
  | pair hhigh _ hlow _ _ ih => exact .code hhigh (.code hlow ih)
  | broken hhigh _ hlow _ _ ih => exact .code hhigh (.code hlow ih)
  | lone hhigh _ _ _ ih => exact .code hhigh ih

theorem Shut.quotedBody (h : Shut body) (done rest : Text) :
    quotedBody done (body ++ Ascii.quote :: rest) = some (done.reverse ++ body, rest) := by
  induction h generalizing done with
  | nil => rw [List.append_nil]; rfl
  | @plain b body hquote hbackslash _ ih =>
    have hstep : Peek.quotedBody done (b :: (body ++ Ascii.quote :: rest)) =
        Peek.quotedBody (b :: done) (body ++ Ascii.quote :: rest) := by
      rw [Peek.quotedBody]
      · exact hquote
      · exact fun _ _ h => absurd h hbackslash
    rw [List.cons_append, hstep, ih]
    simp
  | @escape b body _ ih =>
    show Peek.quotedBody (b :: Ascii.backslash :: done) (body ++ Ascii.quote :: rest) = _
    rw [ih]
    simp

theorem Shut.squash (h : Shut body) (depth : Nat) (rest : Text) :
    squash depth true (body ++ Ascii.quote :: rest) = squash depth false rest := by
  induction h with
  | nil => rfl
  | @plain b body hquote hbackslash _ ih =>
    rw [List.cons_append, Peek.squash, ← ih]
    · rw [bne_iff_ne.mpr hquote]
    · exact fun _ _ h => absurd h hbackslash
  | escape _ ih => exact ih

-- ---------------------------------------------------------------------------
-- What a string stands for
-- ---------------------------------------------------------------------------

/-- There is a byte outside of ASCII. -/
def HasHigh (t : Text) : Prop := ∃ b ∈ t, 0x80 ≤ b

theorem HasHigh.append_left (h : HasHigh t) (rest : Text) : HasHigh (t ++ rest) := by
  obtain ⟨b, hb, hhigh⟩ := h
  exact ⟨b, List.mem_append_left rest hb, hhigh⟩

theorem HasHigh.append_right (h : HasHigh t) (front : Text) : HasHigh (front ++ t) := by
  obtain ⟨b, hb, hhigh⟩ := h
  exact ⟨b, List.mem_append_right front hb, hhigh⟩

theorem hasHigh_surrogate (h : isSurrogate code = true) : HasHigh (Text.encodeCode code) := by
  have hcode : Text.encodeCode code = [0xEF, 0xBF, 0xBD] := by
    simp only [isSurrogate, Bool.and_eq_true, decide_eq_true_eq] at h
    rw [Text.encodeCode, if_neg (by omega), if_neg (by omega), if_pos (by simp [h])]
  exact hcode ▸ ⟨0xEF, by simp, by decide⟩

theorem mem_unescape_go (h : b ∈ done) : b ∈ unescape.go done body := by
  fun_induction unescape.go done body with
  | case1 => exact List.mem_reverse.mpr h
  | case2 _ _ _ _ _ _ _ _ _ _ _ _ _ ih => exact ih (List.mem_append_right _ h)
  | case3 _ _ _ _ _ _ _ _ _ _ _ _ ih => exact ih (List.mem_append_right _ h)
  | case4 _ _ _ _ _ _ _ ih => exact ih (List.mem_append_right _ h)
  | case5 _ _ _ _ _ _ _ ih => exact ih (List.mem_cons_of_mem _ h)
  | case6 => exact List.mem_reverse.mpr h
  | case7 => exact List.mem_reverse.mpr h
  | case8 _ _ _ _ _ _ _ ih => exact ih (List.mem_cons_of_mem _ h)

section
variable {a b c d : UInt8} {code : Nat} (hcode : hex4? a b c d = some code) (done : Text)
include hcode

theorem unescape_lone
    (hlone : ∀ e f g h rest, body ≠ Ascii.backslash :: Ascii.lowerU :: e :: f :: g :: h :: rest) :
    unescape.go done (Ascii.backslash :: Ascii.lowerU :: a :: b :: c :: d :: body) =
      unescape.go ((Text.encodeCode code).reverse ++ done) body := by
  conv => lhs; unfold unescape.go
  split
  next heq => cases heq
  next heq =>
    cases heq
    exact absurd rfl (hlone _ _ _ _ _)
  next heq =>
    cases heq
    rw [hcode]
    rfl
  next hnot heq =>
    cases heq
    exact (hnot _ _ _ _ _ rfl rfl).elim
  next hnot heq =>
    cases heq
    exact (hnot _ _ rfl rfl).elim

theorem unescape_pair (hsurrogate : isSurrogate code = true) (hlow : hex4? e f g h = some low)
    (body : Text) :
    unescape.go done (Ascii.backslash :: Ascii.lowerU :: a :: b :: c :: d ::
        Ascii.backslash :: Ascii.lowerU :: e :: f :: g :: h :: body) =
      unescape.go ((Text.encodeCode ((pair? code low).getD 0xFFFD)).reverse ++ done) body := by
  show (if isSurrogate ((hex4? a b c d).getD 0) then unescape.go ((Text.encodeCode
    ((pair? ((hex4? a b c d).getD 0) ((hex4? e f g h).getD 0)).getD 0xFFFD)).reverse ++ done) body
    else _) = _
  rw [hcode, hlow]
  exact if_pos hsurrogate

theorem unescape_code (hscalar : isSurrogate code = false) (body : Text) :
    unescape.go done (Ascii.backslash :: Ascii.lowerU :: a :: b :: c :: d :: body) =
      unescape.go ((Text.encodeCode code).reverse ++ done) body := by
  by_cases hnext : ∃ e f g h rest,
      body = Ascii.backslash :: Ascii.lowerU :: e :: f :: g :: h :: rest
  · obtain ⟨e, f, g, h, rest, rfl⟩ := hnext
    show (if isSurrogate ((hex4? a b c d).getD 0) then _ else
      unescape.go ((Text.encodeCode ((hex4? a b c d).getD 0)).reverse ++ done) _) = _
    rw [hcode]
    exact if_neg (by simp [hscalar])
  · refine unescape_lone hcode done fun e f g h rest heq => ?_
    exact hnext ⟨e, f, g, h, rest, heq⟩

end

theorem unescape_escape (h : simpleEscape? letter = some byte) (done body : Text) :
    unescape.go done (Ascii.backslash :: letter :: body) = unescape.go (byte :: done) body := by
  have hletter : letter ≠ Ascii.lowerU := by
    rintro rfl
    cases h
  conv => lhs; unfold unescape.go
  split
  next heq => cases heq
  next heq => exact absurd (List.head_eq_of_cons_eq (List.tail_eq_of_cons_eq heq)) hletter
  next heq => exact absurd (List.head_eq_of_cons_eq (List.tail_eq_of_cons_eq heq)) hletter
  next heq =>
    cases heq
    rw [h]
  next hnot heq =>
    cases heq
    exact (hnot _ _ rfl rfl).elim

theorem unescape_plain (hblank : Ascii.blank ≤ b) (hbackslash : b ≠ Ascii.backslash)
    (done body : Text) : unescape.go done (b :: body) = unescape.go (b :: done) body := by
  rw [unescape.go]
  · exact if_neg (by simpa [hbackslash] using hblank)
  · exact fun _ _ _ _ _ _ _ _ _ h => absurd h hbackslash
  · exact fun _ _ _ _ _ h => absurd h hbackslash
  · exact fun _ _ h => absurd h hbackslash

/-- The same text, or two that are both not ASCII. -/
def Agrees (got text : Text) : Prop := got = text ∨ HasHigh got ∧ HasHigh text

/-- Both readers take a string for the same text unless its surrogates are
paired wrongly; then neither text is ASCII. -/
theorem Spelled.unescape (h : Spelled body text) (hplain : ∀ b ∈ text, Ascii.blank ≤ b)
    (done : Text) : Agrees (unescape.go done body) (done.reverse ++ text) := by
  induction h generalizing done with
  | nil =>
    rw [List.append_nil]
    exact .inl rfl
  | @plain b body text _ hbackslash _ ih =>
    obtain ⟨hb, hrest⟩ := List.forall_mem_cons.mp hplain
    have hread := ih hrest (b :: done)
    rw [List.reverse_cons, List.append_assoc] at hread
    rwa [unescape_plain hb hbackslash]
  | @escape letter byte body text hbyte _ ih =>
    have hread := ih (List.forall_mem_cons.mp hplain).2 (byte :: done)
    rw [List.reverse_cons, List.append_assoc] at hread
    rwa [unescape_escape hbyte]
  | @code a b c d code body text hcode hscalar _ ih =>
    have hread := ih (List.forall_mem_append.mp hplain).2 ((Text.encodeCode code).reverse ++ done)
    rw [List.reverse_append, List.reverse_reverse, List.append_assoc] at hread
    rwa [unescape_code hcode done hscalar]
  | @pair a b c d e f g h high low code body text hhigh hsurrogate hlow hpair _ ih =>
    have hread := ih (List.forall_mem_append.mp hplain).2 ((Text.encodeCode code).reverse ++ done)
    rw [List.reverse_append, List.reverse_reverse, List.append_assoc] at hread
    rwa [unescape_pair hhigh done hsurrogate hlow, hpair]
  | @broken a b c d e f g h high low body text hhigh hsurrogate hlow hpair _ _ =>
    rw [unescape_pair hhigh done hsurrogate hlow, hpair]
    refine .inr ⟨⟨0xEF, mem_unescape_go ?_, by decide⟩, ?_⟩
    · exact List.mem_append_left done (by decide)
    · exact ((hasHigh_surrogate hsurrogate).append_left _).append_right _
  | @lone a b c d high body text hhigh _ hlone _ ih =>
    have hread := ih (List.forall_mem_append.mp hplain).2 ((Text.encodeCode high).reverse ++ done)
    rw [List.reverse_append, List.reverse_reverse, List.append_assoc] at hread
    rwa [unescape_lone hhigh done hlone]

theorem Agrees.eq_iff (h : Agrees got text) (hkey : ∀ b ∈ key, b < 0x80) :
    got = key ↔ text = key := by
  rcases h with rfl | ⟨hgot, htext⟩
  · exact Iff.rfl
  · constructor
    · rintro rfl
      obtain ⟨b, hb, hhigh⟩ := hgot
      exact absurd (hkey b hb) (UInt8.not_lt.mpr hhigh)
    · rintro rfl
      obtain ⟨b, hb, hhigh⟩ := htext
      exact absurd (hkey b hb) (UInt8.not_lt.mpr hhigh)

theorem Spelled.eq_of_not_mem (h : Spelled body text) (hbody : Ascii.backslash ∉ body) :
    text = body := by
  induction h with
  | nil => rfl
  | plain _ _ _ ih => rw [ih (fun hmem => hbody (List.mem_cons_of_mem _ hmem))]
  | _ => exact absurd List.mem_cons_self hbody

theorem Spelled.bodyText (h : Spelled body text) (hplain : ∀ b ∈ text, Ascii.blank ≤ b) :
    Agrees (bodyText body) text := by
  rw [Peek.bodyText]
  split
  next => exact h.unescape hplain []
  next hcontains =>
    exact .inl (h.eq_of_not_mem (by simpa using hcontains)).symm

end MeshConsole.Json
