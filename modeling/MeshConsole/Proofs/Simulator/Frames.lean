import MeshConsole.Proofs.Json.Fields
import MeshConsole.Proofs.Json.Written
import MeshConsole.Proofs.Push.Envelope
import MeshConsole.Proofs.Push.WholeNumbers
import MeshConsole.Simulator.State

/-!
# Frames of the simulator

A frame that the simulator pushes can be decoded (`decode_frame?`): its
sequence number comes out as it was stamped, and the payload as it was
written, whatever the type and the data are.
-/

namespace MeshConsole

namespace Push

open Json

-- ---------------------------------------------------------------------------
-- Members by name
-- ---------------------------------------------------------------------------

section
variable {members written : Members} (hclean : ∀ m ∈ members, m.1.scrub = m.1)
  (hperm : written.Perm members)
include hclean hperm

theorem firstValue_eq_filter (name : Text) :
    firstValue name (written.map Entry.of) =
      ((written.filter fun m => m.1 == name).head?).map fun m => m.2.render := by
  have hname : written.filter (fun m => (Entry.of m).key.name == name) =
      written.filter fun m => m.1 == name := by
    refine List.filter_congr fun m hm => ?_
    rw [Entry.of, Quoted.name_of, hclean m (hperm.mem_iff.mp hm)]
  rw [firstValue, List.find?_map, Option.map_map, ← hname, List.head?_filter]
  rfl

theorem firstValue_written (hnodup : (members.map Prod.fst).Nodup)
    (hmem : (name, value) ∈ members) :
    firstValue name (written.map Entry.of) = some value.render := by
  have hfound : (written.filter fun m => m.1 == name).Perm [(name, value)] :=
    (hperm.filter _).trans (.of_eq (filter_key id (by rwa [List.map_id]) hmem))
  rw [List.perm_singleton] at hfound
  rw [firstValue_eq_filter hclean hperm, hfound]
  rfl

theorem firstValue_unwritten (hnot : name ∉ members.map Prod.fst) :
    firstValue name (written.map Entry.of) = none := by
  have hnone : (written.filter fun m => m.1 == name) = [] := by
    refine List.filter_eq_nil_iff.mpr fun m hm heq => hnot ?_
    exact List.mem_map.mpr ⟨m, hperm.mem_iff.mp hm, eq_of_beq heq⟩
  rw [firstValue_eq_filter hclean hperm, hnone]
  rfl

end

theorem string?_quotedText (t : Text) : Strict.string? (Value.quotedText t) = some t.scrub := by
  have hbody := stringBody_append (escaped_glyphs t).isBody [] []
  have hname : unescape (t.glyphs.flatMap Value.glyphText) = t.scrub := Quoted.name_of t
  show (Strict.stringBody [] (t.glyphs.flatMap Value.glyphText ++ [Ascii.quote])).map
    (fun body => unescape body.1) = _
  rw [hbody, Option.map_some, List.reverse_nil, List.nil_append, hname]

end Push

namespace Simulator

open Json Push

variable {s : Simulator} {now : Instant} {seq : UInt64} {type frame : Text} {data : Value}

/-- What a frame says. -/
def announcement (s : Simulator) (now : Instant) (seq : UInt64) (type : Text) (data : Value) :
    Message where
  kind := (Kind.ofType? type.scrub).getD .unknown
  type := type.scrub
  seq := some seq
  version := signed? (Text.ofInt s.version)
  ts := (signed? (Text.ofInt now.unixSeconds)).getD 0
  data := (Kind.ofType? type.scrub).map fun _ => data.render

theorem decode_frame? (h : s.frame? now seq type data = some frame) :
    decode frame = .ok (s.announcement now seq type data) := by
  let members : Members := [("version", .int s.version), ("seq", .int seq.toNat),
    ("ts", .int now.unixSeconds), ("type", .text type), ("data", data)]
  let keys : List Text := ["version", "seq", "ts", "type", "data"]
  have hclean : ∀ m ∈ members, m.1.scrub = m.1 := by
    have hkeys : ∀ key ∈ keys, key.scrub = key := by decide
    exact fun m hm => hkeys m.1 (List.mem_map_of_mem hm)
  have hnodup : (members.map Prod.fst).Nodup := (by decide : keys.Nodup)
  obtain ⟨written, hwritten, hperm⟩ := map_perm members
  have hrender : (Value.object written).render? = some frame := hwritten ▸ h
  have hobject := object?_of_render? hrender
  have hunwritten : ∀ {name}, name ∉ keys → firstValue name (written.map Entry.of) = none :=
    firstValue_unwritten hclean hperm
  have hfound : ∀ {name value}, (name, value) ∈ members →
      firstValue name (written.map Entry.of) = some value.render :=
    firstValue_written hclean hperm hnodup
  have hbare := unwrap_bare hobject fun e he heq => by
    have hsome := isSome_firstValue.mpr ⟨e, he, heq⟩
    rw [hunwritten (by decide)] at hsome
    cases hsome
  have hlegacy : isLegacy { text := frame, members := (written.map Entry.of).map Entry.member } =
      false := by
    have hkeys : ∀ key ∈ legacyKeys, key ∉ keys := by decide
    refine List.any_eq_false.mpr fun key hkey => ?_
    rw [Strict.Object.has, get?_entries, hunwritten (hkeys key hkey)]
    exact Bool.false_ne_true
  have hseq := hfound (.tail _ (.head _))
  have hversion := hfound (.head _)
  have hts := hfound (.tail _ (.tail _ (.head _)))
  have htype := hfound (.tail _ (.tail _ (.tail _ (.head _))))
  have hdata := hfound (.tail _ (.tail _ (.tail _ (.tail _ (.head _)))))
  have hname : Strict.string? (Value.text type).render = some type.scrub := string?_quotedText type
  have hint : ∀ i : Int, (Value.int i).render = Text.ofInt i := fun _ => rfl
  rw [decode, hbare]
  refine congrArg Except.ok ?_
  unfold Message.ofObject
  simp only [get?_entries, hseq, hversion, hts, htype, hdata, hlegacy, Option.bind_eq_bind,
    Option.bind_some, hname, hint, sequence?_ofNat, Option.getD_some]
  unfold announcement
  cases Kind.ofType? type.scrub with
  | none => rfl
  | some kind => rfl

/-- With a version and a time of 64 bits, both come out as they were
stamped. -/
theorem announcement_stamps {version ts : Int64} (hversion : s.version = version.toInt)
    (hts : now.unixSeconds = ts.toInt) (seq : UInt64) (type : Text) (data : Value) :
    (s.announcement now seq type data).version = some version ∧
      (s.announcement now seq type data).ts = ts := by
  rw [announcement, hversion, hts, signed?_ofInt, signed?_ofInt]
  exact ⟨rfl, rfl⟩

/-- Data without fractions can always be sent. -/
theorem broadcast_plain (hplain : Value.Plain n data) (s : Simulator) (now : Instant)
    (type : Text) :
    ∃ frame, s.frame? now (s.seq + 1) type data = some frame ∧
      s.broadcast now type data = ({ s with seq := s.seq + 1 }, [.push frame]) := by
  have hmembers : Value.Plain (n + 1) (.map [("version", .int s.version),
      ("seq", .int (s.seq + 1).toNat), ("ts", .int now.unixSeconds), ("type", .text type),
      ("data", data)]) := by
    refine .map ?_
    simp only [List.forall_mem_cons]
    exact ⟨.int, .int, .int, .text, hplain, List.forall_mem_nil _⟩
  have hframe : s.frame? now (s.seq + 1) type data = some _ := hmembers.render?
  refine ⟨_, hframe, ?_⟩
  rw [broadcast]
  simp only [hframe]

end Simulator

end MeshConsole
