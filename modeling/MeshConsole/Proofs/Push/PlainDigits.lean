import MeshConsole.Proofs.Push.Classification
import MeshConsole.Proofs.Push.Gate
import MeshConsole.Proofs.Push.WholeNumbers

/-!
# Plain digits on the wire

A 64-bit integer that a frame writes in plain digits is in the message as it
was written (`digits_exact`), on either side of the greatest magnitude a
binary64 number can tell apart. So the gate orders two such sequence numbers
as the integers are ordered.
-/

namespace MeshConsole.Push

open Json Json.Document

-- ---------------------------------------------------------------------------
-- What a message takes over
-- ---------------------------------------------------------------------------

/-- The first member of this name is a number in plain digits. -/
def Holds (members : List (Quoted × Document)) (name : Text) (i : Int) : Prop :=
  ∃ numeral, lookup name members = some (.number numeral) ∧ Denotes numeral.text i

/-- What the members hold in plain digits and within 64 bits, the message
has. -/
structure Exact (members : List (Quoted × Document)) (m : Message) : Prop where
  seq : ∀ n : UInt64, Holds members "seq" n.toNat → m.seq = some n
  version : ∀ i : Int64, Holds members "version" i.toInt → m.version = some i
  ts : ∀ i : Int64, Holds members "ts" i.toInt → m.ts = i

theorem Holds.literal (h : Holds members name i) :
    ∃ t, Denotes t i ∧ lookup name members >>= literal? = some t := by
  obtain ⟨numeral, hlookup, hdenotes⟩ := h
  refine ⟨numeral.text, hdenotes, ?_⟩
  rw [hlookup]
  rfl

theorem Holds.sequence {n : UInt64} (h : Holds members name n.toNat) :
    lookup name members >>= literal? >>= sequence? = some n := by
  obtain ⟨t, hdenotes, ht⟩ := h.literal
  rw [ht]
  exact sequence?_denotes n hdenotes

theorem Holds.signed {i : Int64} (h : Holds members name i.toInt) :
    lookup name members >>= literal? >>= signed? = some i := by
  obtain ⟨t, hdenotes, ht⟩ := h.literal
  rw [ht]
  exact signed?_denotes i hdenotes

theorem exact_of_heading {m : Message} (h : m.heading = Heading.ofMembers members) :
    Exact members m where
  seq _ hn := (congrArg Heading.seq h).trans hn.sequence
  version _ hi := (congrArg Heading.version h).trans hi.signed
  ts _ hi := (congrArg Heading.ts h).trans (congrArg (·.getD 0) hi.signed)

theorem decode_exact (h : Framed d.tokens frame) (hroot : root? d = .ok members) :
    ∃ message, decode frame = .ok message ∧ Exact members message := by
  have hheading := decode_heading h
  rw [hroot] at hheading
  cases hdecode : decode frame with
  | error => rw [hdecode] at hheading; cases hheading
  | ok message =>
    rw [hdecode] at hheading
    exact ⟨message, rfl, exact_of_heading (Except.ok.inj hheading)⟩

-- ---------------------------------------------------------------------------
-- What the gate makes of it
-- ---------------------------------------------------------------------------

/-- The frame writes an object whose sequence number is `n`, in plain
digits. -/
def Numbered (frame : Text) (n : UInt64) : Prop :=
  ∃ d members, Framed (Document.tokens d) frame ∧ root? d = .ok members ∧
    Holds members "seq" n.toNat

theorem Numbered.sequenceOf? (h : Numbered frame n) : sequenceOf? frame = some n := by
  obtain ⟨d, members, hframe, hroot, hholds⟩ := h
  obtain ⟨message, hdecode, hexact⟩ := decode_exact hframe hroot
  exact (sequenceOf?_ok hdecode).trans (hexact.seq n hholds)

/-- The link after some frames of one connection. -/
abbrev Link.afterFrames (handler : Handler) (l : Link) (frames : List Text) : Link :=
  l.after handler (frames.map .frame)

theorem le_receive_iff (l : Link) (handler : Handler) (frame : Text) (n : UInt64) :
    n ≤ (l.receive handler frame).1.lastSeq ↔
      n ≤ l.lastSeq ∨ ∃ seq, sequenceOf? frame = some seq ∧ n ≤ seq := by
  rw [receive_lastSeq]
  cases sequenceOf? frame with
  | none => simp
  | some seq =>
    simp only [Option.elim_some, Option.some.injEq, exists_eq_left']
    by_cases hle : l.lastSeq ≤ seq
    · rw [max_of_le hle]
      exact (or_iff_right_of_imp fun hn => UInt64.le_trans hn hle).symm
    · have hge := UInt64.le_of_lt (UInt64.not_le.mp hle)
      rw [max_of_ge hge]
      exact (or_iff_left_of_imp fun hn => UInt64.le_trans hn hge).symm

/-- Only numbers that were received are behind the watermark. -/
theorem le_afterFrames_iff (l : Link) (handler : Handler) (frames : List Text) (n : UInt64) :
    n ≤ (l.afterFrames handler frames).lastSeq ↔
      n ≤ l.lastSeq ∨ ∃ frame ∈ frames, ∃ seq, sequenceOf? frame = some seq ∧ n ≤ seq := by
  induction frames generalizing l with
  | nil => simp [Link.afterFrames, Link.after]
  | cons frame rest ih =>
    have hrest := ih (l.receive handler frame).1
    rw [le_receive_iff, or_assoc] at hrest
    rw [List.exists_mem_cons_iff]
    exact hrest

/-- Of two frames the gate takes `early` for the earlier one: when `late` has
been received, `early` is a duplicate from then on; and that `early` has been
received at any time makes no difference to `late`. -/
structure Precedes (handler : Handler) (l : Link) (early late : Text) : Prop where
  early_dropped : ∀ frames, late ∈ frames →
    (l.afterFrames handler frames).dropsDuplicate handler early = true
  late_unaffected : ∀ front rest,
    (l.afterFrames handler (front ++ early :: rest)).dropsDuplicate handler late =
      (l.afterFrames handler (front ++ rest)).dropsDuplicate handler late

theorem precedes_of_lt (ha : sequenceOf? early = some a) (hb : sequenceOf? late = some b)
    (hlt : a < b) (handler : Handler) (l : Link) : Precedes handler l early late where
  early_dropped frames hmem := by
    rw [dropsDuplicate_iff ha, le_afterFrames_iff]
    exact .inr ⟨late, hmem, b, hb, UInt64.le_of_lt hlt⟩
  late_unaffected front rest := by
    have hnot : ¬ ∃ seq, sequenceOf? early = some seq ∧ b ≤ seq := by
      rintro ⟨seq, hseq, hle⟩
      obtain rfl : a = seq := Option.some.inj (ha.symm.trans hseq)
      exact UInt64.not_le.mpr hlt hle
    rw [Bool.eq_iff_iff, dropsDuplicate_iff hb, dropsDuplicate_iff hb, le_afterFrames_iff,
      le_afterFrames_iff]
    simp only [List.mem_append, List.mem_cons, or_and_right, exists_or, exists_eq_left, hnot,
      false_or]

/-- Integers in plain digits lose nothing on the way: whatever frame writes an
object, or an envelope around one, is decoded with the sequence number, the
version and the time that the object holds; and sequence numbers that are
less than one another are so for the gate. -/
theorem digits_exact :
    (∀ d frame members, Framed (Document.tokens d) frame → root? d = .ok members →
      ∃ message, decode frame = .ok message ∧ Exact members message) ∧
    ∀ early late a b, Numbered early a → Numbered late b → a < b →
      ∀ handler l, Precedes handler l early late :=
  ⟨fun _ _ _ => decode_exact,
    fun _ _ _ _ ha hb hlt => precedes_of_lt ha.sequenceOf? hb.sequenceOf? hlt⟩

def versionKey : Quoted := ⟨"version", by decide⟩

def tsKey : Quoted := ⟨"ts", by decide⟩

def coarseMembers : List (Quoted × Document) :=
  [(seqKey, .number ⟨"9007199254740993", by decide⟩),
    (versionKey, .number ⟨"-9223372036854775808", by decide⟩),
    (tsKey, .number ⟨"9223372036854775807", by decide⟩)]

def lastMembers : List (Quoted × Document) :=
  [(seqKey, .number ⟨"18446744073709551615", by decide⟩)]

def coarseFrame : Text := Text.join [] (Document.object coarseMembers).tokens

def lastFrame : Text :=
  Text.join [] (Document.object [(statusKey, .null), (dataKey, .object lastMembers)]).tokens

/-- The least integer that is not a binary64 number, the bounds of 64 bits, and
an envelope. -/
theorem digits_coarse :
    (∃ message, decode coarseFrame = .ok message ∧ message.seq = some 9007199254740993 ∧
      message.version = some (-9223372036854775808) ∧ message.ts = 9223372036854775807) ∧
    (∃ message, decode lastFrame = .ok message ∧ message.seq = some 18446744073709551615) ∧
    Precedes .plain (Link.new "ws://gw/ws" {}) coarseFrame lastFrame := by
  have hcoarse : Framed (Document.object coarseMembers).tokens coarseFrame :=
    (joined_join (by simp [Gap]) (Document.tokens_ne_nil _)).framed
  have hlast : Framed (Document.object [(statusKey, .null), (dataKey, .object lastMembers)]).tokens
      lastFrame :=
    (joined_join (by simp [Gap]) (Document.tokens_ne_nil _)).framed
  have hseq : Holds coarseMembers "seq" (9007199254740993 : UInt64).toNat :=
    ⟨_, rfl, .digits (by decide)⟩
  have hversion : Holds coarseMembers "version" (-9223372036854775808 : Int64).toInt :=
    ⟨_, rfl, .negated (by decide)⟩
  have hts : Holds coarseMembers "ts" (9223372036854775807 : Int64).toInt :=
    ⟨_, rfl, .digits (by decide)⟩
  have hgreatest : Holds lastMembers "seq" (18446744073709551615 : UInt64).toNat :=
    ⟨_, rfl, .digits (by decide)⟩
  obtain ⟨hread, hgate⟩ := digits_exact
  obtain ⟨coarse, hdecode, hexact⟩ := hread _ _ coarseMembers hcoarse rfl
  obtain ⟨last, hdecode', hexact'⟩ := hread _ _ lastMembers hlast rfl
  refine ⟨⟨coarse, hdecode, hexact.seq _ hseq, hexact.version _ hversion, hexact.ts _ hts⟩,
    ⟨last, hdecode', hexact'.seq _ hgreatest⟩, ?_⟩
  exact hgate _ _ _ _ ⟨_, _, hcoarse, rfl, hseq⟩ ⟨_, _, hlast, rfl, hgreatest⟩ (by decide) _ _

end MeshConsole.Push
