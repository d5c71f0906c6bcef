import MeshConsole.Proofs.Push.DevicesPayload
import MeshConsole.Proofs.Simulator.Consulting
import MeshConsole.Proofs.Simulator.Frames

/-!
# Link tables on their way

A link table reaches the console in two ways: the simulator pushes it, and
answers with it when asked. `linkTable_survives`: both ways it comes out as it
went in.
-/

namespace MeshConsole.Simulator

open Json
open Json.Value (Plain)
open Push (decode decodePayload_eq_ok)

theorem decode_scrubbed {table : LinkTable} {rows : List Neighbor}
    (hrows : table.neighbors = some rows) :
    Push.decodeLinkTable table.toJson.render = .ok table.scrubbed := by
  obtain ⟨tree, hparse, hread⟩ := Option.bind_eq_some_iff.mp (read_scrubbed hrows)
  exact (decodePayload_eq_ok _ _ _).mpr ⟨tree, hparse, hread⟩

theorem decode_table {s : Simulator} (hutf8 : s.linkTable.isUtf8 = true) :
    Push.decodeLinkTable s.linkTable.toJson.render = .ok s.linkTable := by
  rw [decode_scrubbed rfl, scrubbed_table hutf8]

/-- A message that brings a table. -/
structure Brings (m : Push.Message) (table : LinkTable) (seq : UInt64) (version ts : Int64) :
    Prop where
  kind : m.kind = .linkUpdate
  seq : m.seq = some seq
  version : m.version = some version
  ts : m.ts = ts
  table : ∃ data, m.data = some data ∧ Push.decodeLinkTable data = .ok table

/-- A table whose texts are UTF-8 is read from the frame that the simulator
pushes, under the next sequence number, and by a client that asks for it. -/
theorem linkTable_survives {s : Simulator} {now : Instant} {version ts : Int64}
    (hutf8 : s.linkTable.isUtf8 = true) (hversion : s.version = version.toInt)
    (hts : now.unixSeconds = ts.toInt) {authority : Text} (hauthority : Url.IsAuthority authority)
    (timeout : Duration) :
    (∃ frame m, s.pushTable now = ({ s with seq := s.seq + 1 }, [.push frame]) ∧
      decode frame = .ok m ∧ Brings m s.linkTable (s.seq + 1) version ts) ∧
    s.consult now (clientAt authority timeout) .links = .ok s.linkTable := by
  let type : Text := "lqi_update"
  have hplain : Plain 3 s.linkTable.toJson := plain_table rfl
  obtain ⟨frame, hframe, hpush⟩ := broadcast_plain hplain s now type
  obtain ⟨hversion, hts⟩ :=
    announcement_stamps hversion hts (s.seq + 1) type s.linkTable.toJson
  have hkind : Push.Kind.ofType? type.scrub = some .linkUpdate := by decide
  have hbrings : Brings (s.announcement now (s.seq + 1) type s.linkTable.toJson) s.linkTable
      (s.seq + 1) version ts := by
    refine ⟨?_, rfl, hversion, hts, s.linkTable.toJson.render, ?_, decode_table hutf8⟩
    · rw [announcement, hkind]
      rfl
    · rw [announcement, hkind]
      rfl
  have hpull := consult_links hauthority timeout now hutf8
  exact ⟨⟨frame, _, hpush, decode_frame? hframe, hbrings⟩, hpull⟩

/-- A table with all that is hard to write: no name, names that must be
escaped, signals that are missing or at their limits, the greatest number. -/
def cornerTable : Simulator where
  neighbors := [
    { addr := 0xFFFF, lqi := some Int64.minValue, rssi := some Int64.maxValue, direct := true
      updatedMs := 0xFFFFFFFFFFFFFFFF },
    { name := "<Küche>\u2028\"&\n", rssi := some (-1), quality := "\u0000", source := "\\" }]
  source := "neighbor_table"
  tableMs := 0xFFFFFFFFFFFFFFFF
  version := Int64.minValue.toInt
  seq := 0xFFFFFFFFFFFFFFFE

theorem cornerTable_survives :
    (∃ frame m, cornerTable.pushTable 0 =
        ({ cornerTable with seq := 0xFFFFFFFFFFFFFFFF }, [.push frame]) ∧
      decode frame = .ok m ∧
      Brings m cornerTable.linkTable 0xFFFFFFFFFFFFFFFF Int64.minValue 946684800) ∧
    cornerTable.consult 0 (clientAt "gateway.lab" 0) .links = .ok cornerTable.linkTable :=
  linkTable_survives (by decide) rfl rfl ⟨by decide, by decide, by decide⟩ 0

end MeshConsole.Simulator
