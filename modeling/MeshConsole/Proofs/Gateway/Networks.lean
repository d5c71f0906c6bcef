import Mathlib.Data.List.Basic
import MeshConsole.Gateway.Job
import MeshConsole.Proofs.Json.Fields

/-!
# Networks of a scan

The networks in the result of a scan are read back as they were written there
(`read_networks`), and ranked without losing one (`ranks_strongestFirst`).
-/

namespace MeshConsole

open Json
open Json.Value (Plain Shows)

variable {tree : Tree} {networks : List Network}

-- ---------------------------------------------------------------------------
-- Reading
-- ---------------------------------------------------------------------------

/-- The result of a scan, as it is sent. -/
def scanResult (networks : List Network) : Value :=
  .map [("networks", .list (networks.map Network.toJson))]

theorem read_network {n : Network} (hutf8 : n.ssid.isUtf8 = true) (h : Shows n.toJson tree) :
    Network.reader {} tree = some n := by
  have hkeys : PlainKeys (["ssid", "rssi", "auth"] : List Text) := by decide
  obtain ⟨trees, rfl, hwrote⟩ := h.wrote hkeys
  refine (record_wrote hwrote (fun _ hkey => hkey) _).trans ?_
  simp only [hwrote.text (.head _), hwrote.int64 (.tail _ (.head _)),
    hwrote.int64 (.tail _ (.tail _ (.head _))), Text.scrub_of_isUtf8 hutf8]
  rfl

theorem plain_networks (networks : List Network) :
    Plain 2 (.list (networks.map Network.toJson)) := by
  refine .listOf fun n _ => .object ?_
  simp only [List.forall_mem_cons]
  exact ⟨.text, .int, .int, List.forall_mem_nil _⟩

theorem plain_scanResult (networks : List Network) : Plain 3 (scanResult networks) :=
  .map (List.forall_mem_cons.mpr ⟨plain_networks networks, List.forall_mem_nil _⟩)

theorem read_networks (hutf8 : ∀ n ∈ networks, n.ssid.isUtf8 = true) :
    Tree.parse? (scanResult networks).render >>= Network.listReader none =
      some (some networks) := by
  have hkeys : PlainKeys (["networks"] : List Text) := by decide
  have hplain : ∀ m ∈ ([("networks", .list (networks.map Network.toJson))] : Members),
      Plain 2 m.2 :=
    List.forall_mem_cons.mpr ⟨plain_networks networks, List.forall_mem_nil _⟩
  obtain ⟨written, hwritten, hperm⟩ := map_perm [("networks", .list (networks.map Network.toJson))]
  obtain ⟨trees, hparse, hwrote, -⟩ := parse?_wrote_alone hperm hkeys hplain (by decide)
  have hlist : Reader.listField "networks" {} Network.reader none trees = some (some networks) :=
    hwrote.list (.head _) fun n hn _ htree => read_network (hutf8 n hn) htree
  rw [scanResult, hwritten, hparse]
  exact (record_wrote hwrote (fun _ hkey => hkey) _).trans hlist

-- ---------------------------------------------------------------------------
-- Ranking
-- ---------------------------------------------------------------------------

/-- The same networks, the strongest first; those of equal strength in the
order in which they were. -/
structure Network.Ranks (networks found : List Network) : Prop where
  perm : found.Perm networks
  strongest : found.Pairwise fun a b => b.rssi ≤ a.rssi
  ties : ∀ rssi, found.filter (·.rssi == rssi) = networks.filter (·.rssi == rssi)

theorem ranks_strongestFirst (networks : List Network) :
    Network.Ranks networks (Network.strongestFirst networks) := by
  have htrans (a b c : Network) (hab : decide (b.rssi ≤ a.rssi) = true)
      (hbc : decide (c.rssi ≤ b.rssi) = true) : decide (c.rssi ≤ a.rssi) = true :=
    decide_eq_true (Int64.le_trans (of_decide_eq_true hbc) (of_decide_eq_true hab))
  have htotal (a b : Network) : (decide (b.rssi ≤ a.rssi) || decide (a.rssi ≤ b.rssi)) = true := by
    simpa using Int64.le_total b.rssi a.rssi
  have hperm : (Network.strongestFirst networks).Perm networks := List.mergeSort_perm _ _
  refine ⟨hperm, ?_, fun rssi => ?_⟩
  · exact (List.pairwise_mergeSort htrans htotal networks).imp of_decide_eq_true
  · -- Networks of one strength are in order already, so the sort keeps them as they are.
    let level := networks.filter (·.rssi == rssi)
    have hlevel : level.Pairwise fun a b => decide (b.rssi ≤ a.rssi) = true := by
      refine List.pairwise_of_forall_mem_list fun a ha b hb => decide_eq_true ?_
      have hequal {n : Network} (hn : n ∈ level) : n.rssi = rssi :=
        eq_of_beq (List.mem_filter.mp hn).2
      rw [hequal ha, hequal hb]
      exact Int64.le_refl rssi
    have hsub : level.Sublist (Network.strongestFirst networks) :=
      List.sublist_mergeSort htrans htotal hlevel List.filter_sublist
    have hkept : level.filter (·.rssi == rssi) = level :=
      List.filter_eq_self.mpr fun n hn => (List.mem_filter.mp hn).2
    have hsame : level.Sublist ((Network.strongestFirst networks).filter (·.rssi == rssi)) :=
      hkept ▸ hsub.filter _
    exact (hsame.eq_of_length (hperm.filter _).length_eq.symm).symm

end MeshConsole
