import MeshConsole.Proofs.Json.Fields
import MeshConsole.Proofs.Numeral.Decimal
import MeshConsole.Simulator.Handler

/-!
# Serving jobs

How the simulator serves the two calls of a job: the submission queues a job of
the type asked for (`serve_submission`), and a poll moves the job on
(`serve_poll`).
-/

namespace MeshConsole

-- ---------------------------------------------------------------------------
-- Paths
-- ---------------------------------------------------------------------------

namespace Text

theorem splitOnByte_cons (b c : UInt8) (t : Text) :
    splitOnByte b (c :: t) = if c == b then [] :: splitOnByte b t
      else (c :: (splitOnByte b t).headD []) :: (splitOnByte b t).tail := by
  simp only [splitOnByte, List.foldr_cons]
  split <;> rfl

theorem splitOnByte_append (b : UInt8) (s t : Text) :
    splitOnByte b (s ++ b :: t) = splitOnByte b s ++ splitOnByte b t := by
  induction s with
  | nil => simp [splitOnByte_cons]; rfl
  | cons c s ih =>
    rw [List.cons_append, splitOnByte_cons, splitOnByte_cons, ih]
    split
    · rfl
    · rfl

theorem splitOnByte_of_not_mem (h : b ∉ t) : splitOnByte b t = [t] := by
  induction t with
  | nil => rfl
  | cons c t ih =>
    rw [List.mem_cons, not_or] at h
    rw [splitOnByte_cons, ih h.2, if_neg (by simpa using Ne.symm h.1)]
    rfl

theorem join_append (separator piece : Text) (h : parts ≠ []) :
    join separator (parts ++ [piece]) = join separator parts ++ separator ++ piece := by
  induction parts with
  | nil => exact absurd rfl h
  | cons part parts ih =>
    cases parts with
    | nil => rfl
    | cons next parts =>
      show part ++ separator ++ join separator ((next :: parts) ++ [piece]) = _
      rw [ih (by simp)]
      simp [join]

end Text

namespace Path

theorem fold_append (done parts rest : List Text) :
    fold done (parts ++ rest) = fold (fold done parts).reverse rest := by
  induction parts generalizing done with
  | nil => simp [fold]
  | cons part parts ih =>
    simp only [List.cons_append, fold]
    split
    · exact ih done
    · split
      · exact ih _
      · exact ih _

/-- A segment that stays where it stands. -/
structure IsSegment (t : Text) : Prop where
  ne_nil : t ≠ []
  no_dot : t ≠ "."
  no_dots : t ≠ ".."
  no_slash : Ascii.slash ∉ t

theorem segments_below (path : Text) {segment : Text} (h : IsSegment segment) :
    segments (path ++ Ascii.slash :: segment) = segments path ++ [segment] := by
  obtain ⟨hne, hdot, hdots, hslash⟩ := h
  rw [segments, Text.splitOnByte_append, fold_append, Text.splitOnByte_of_not_mem hslash]
  simp [fold, hne, hdot, hdots, segments]

theorem clean_eq (hparts : segments path ≠ []) (hlast : path.getLast? ≠ some Ascii.slash) :
    clean path = Ascii.slash :: Text.join "/" (segments path) := by
  have hend : (path.getLast? == some Ascii.slash) = false := beq_eq_false_iff_ne.mpr hlast
  unfold clean
  split
  next heq => exact absurd heq hparts
  next => simp [hend]

/-- Below a path in its shortest spelling, so is a segment. -/
theorem clean_below {segment : Text} (hclean : clean path = path)
    (hlast : path.getLast? ≠ some Ascii.slash) (h : IsSegment segment) :
    clean (path ++ Ascii.slash :: segment) = path ++ Ascii.slash :: segment := by
  have hend : (path ++ Ascii.slash :: segment).getLast? ≠ some Ascii.slash := by
    obtain ⟨first, more, rfl⟩ := List.exists_cons_of_ne_nil h.ne_nil
    intro heq
    rw [List.getLast?_append_cons, List.getLast?_cons_cons] at heq
    exact h.no_slash (List.mem_of_getLast? heq)
  have hparts : segments path ≠ [] := by
    intro hnil
    have hroot : path = "/" := by
      rw [← hclean, clean, hnil]
    rw [hroot] at hlast
    exact hlast rfl
  rw [clean_eq hparts hlast] at hclean
  rw [clean_eq (by simp [segments_below path h]) hend, segments_below path h,
    Text.join_append _ _ hparts, ← List.cons_append, ← List.cons_append, hclean, List.append_assoc]
  rfl

end Path

namespace Simulator

open Json
open Json.Value (Plain)

-- ---------------------------------------------------------------------------
-- Routes
-- ---------------------------------------------------------------------------

/-- The path of jobs. -/
def jobsPath : Text := "/api/v1/jobs"

theorem clean_jobsPath : Path.clean jobsPath = jobsPath := by decide

theorem ofPath?_jobsPath : Route.ofPath? jobsPath = some .submitJob := by decide

theorem ofPath?_job {id : Text} (hne : id ≠ []) (hslash : Ascii.slash ∉ id) :
    Route.ofPath? (jobsPath ++ Ascii.slash :: id) = some (.job id) := by
  show (if id.isEmpty || id.contains Ascii.slash then none else some (Route.job id)) = _
  simp [hne, hslash]

theorem serve_route {r : Incoming} (hclean : Path.clean r.url.path = r.url.path)
    (hroute : Route.ofPath? r.url.path = some route) (hmethod : r.method = route.method)
    (s : Simulator) (now : Instant) : serve s now r = serveRoute s now r route := by
  simp [serve, hclean, hroute, hmethod]

-- ---------------------------------------------------------------------------
-- Submissions
-- ---------------------------------------------------------------------------

/-- What the console sends along with a job: nothing, or the delay of a
restart. -/
def payload (delay : Option Int64) : Members :=
  delay.toList.map fun d => ("reboot_delay_ms", .int d.toInt)

theorem scrub_jobType (h : type ∈ jobTypes) : type.scrub = type := by
  have hall : ∀ type ∈ jobTypes, type.scrub = type := by decide
  exact hall type h

theorem plainKeys_payload (type : Text) (delay : Option Int64) :
    PlainKeys (List.map Prod.fst ((("type" : Text), Value.text type) :: payload delay)) := by
  have hnone : PlainKeys [Text.ofString "type"] := by decide
  have hsome : PlainKeys [Text.ofString "type", Text.ofString "reboot_delay_ms"] := by decide
  cases delay with
  | none => exact hnone
  | some => exact hsome

theorem toJson_request (type requestId : Text) (delay : Option Int64) :
    JobRequest.toJson { type, payload := payload delay, requestId } =
      .map (("type", .text type) :: payload delay) := by
  cases delay <;> rfl

theorem isField_payload (type : Text) (delay : Option Int64) :
    ∀ key ∈ List.map Prod.fst ((("type" : Text), Value.text type) :: payload delay),
      key ∈ [Text.ofString "type", Text.ofString "reboot_delay_ms"] := by
  intro key hkey
  cases delay with
  | none => exact List.mem_cons.mpr (.inl (List.mem_singleton.mp hkey))
  | some => exact hkey

theorem field_delay (h : Wrote (("type", .text type) :: payload delay) trees) :
    Reader.field "reboot_delay_ms" Reader.int64 0 trees = some (delay.getD 0) := by
  cases delay with
  | none =>
    have hnot : Key.hashBytes "reboot_delay_ms" ∉ [Key.hashBytes "type"] := by decide
    exact h.absent hnot _ _
  | some => exact h.int64 (.tail _ (.head _)) _

theorem readBody?_request (htype : type ∈ jobTypes) (delay : Option Int64) (requestId : Text) :
    readBody? JobOrder.reader {}
      (JobRequest.toJson { type, payload := payload delay, requestId }).render =
        some { type, delayMs := delay.getD 0 } := by
  have hplain : ∀ m ∈ (("type", .text type) :: payload delay : Members), Plain 0 m.2 := by
    refine List.forall_mem_cons.mpr ⟨.text, fun m hm => ?_⟩
    obtain ⟨d, -, rfl⟩ := List.mem_map.mp hm
    exact .int
  obtain ⟨written, hwritten, hperm⟩ := map_perm (("type", .text type) :: payload delay)
  obtain ⟨trees, hfirst, hwrote⟩ :=
    first?_wrote hperm (plainKeys_payload type delay) hplain (by decide) bodyPortion
  have hread : JobOrder.reader {} (.object trees) = some { type, delayMs := delay.getD 0 } := by
    refine (record_wrote hwrote (isField_payload type delay) _).trans ?_
    simp only [hwrote.text (.head _), scrub_jobType htype, field_delay hwrote]
    rfl
  rw [toJson_request, hwritten, readBody?, hfirst]
  exact hread

theorem serve_submission {r : Incoming} (hpath : r.url.path = jobsPath)
    (hmethod : r.method = "POST") (htype : type ∈ jobTypes) (delay : Option Int64) (requestId : Text)
    (hbody : r.body = (JobRequest.toJson { type, payload := payload delay, requestId }).render)
    (s : Simulator) (now : Instant) :
    (serve s now r).simulator = (s.queueJob now type (delay.getD 0)).1 ∧
      (serve s now r).response = okResponse (JobReceipt.toJson {
        id := s.lastJobId + 1, type, state := "queued" }) := by
  have hroute : Route.ofPath? r.url.path = some .submitJob := hpath ▸ ofPath?_jobsPath
  have hserve := serve_route (hpath ▸ clean_jobsPath) hroute hmethod s now
  have hknown : jobTypes.contains type = true := by simpa using htype
  have hread := readBody?_request htype delay requestId
  rw [← hbody] at hread
  rw [hserve, serveRoute, serveSubmit, hread]
  simp only [hknown, Bool.not_true]
  exact ⟨rfl, rfl⟩

-- ---------------------------------------------------------------------------
-- Polls
-- ---------------------------------------------------------------------------

/-- The numeral of a positive number has no sign. -/
theorem ofInt_of_pos {id : Int64} (hpos : 0 < id) : ∃ n : Nat, id.toInt = n ∧ 0 < n ∧
    n < Numeral.halfWord ∧ Text.ofInt id.toInt = Text.ofNat n := by
  have hlow : 0 < id.toInt := Int64.lt_iff_toInt_lt.mp hpos
  have hhigh : id.toInt < Numeral.halfWord := id.toInt_lt
  refine ⟨id.toInt.natAbs, by omega, by omega, by omega, ?_⟩
  rw [Text.ofInt, if_neg (by omega)]

theorem isSegment_ofNat (n : Nat) : Path.IsSegment (Text.ofNat n) := by
  have hdigits := Text.isDigit_ofNat n
  have hno {b : UInt8} (hb : Ascii.isDigit b = false) : b ∉ Text.ofNat n := fun hmem =>
    absurd (hdigits b hmem) (by simp [hb])
  refine ⟨Text.ofNat_ne_nil n, ?_, ?_, hno rfl⟩
  · intro heq
    exact hno (b := Ascii.dot) rfl (by simp [heq]; decide)
  · intro heq
    exact hno (b := Ascii.dot) rfl (by simp [heq]; decide)

theorem serve_poll {r : Incoming} {id : Int64} (hpos : 0 < id)
    (hpath : r.url.path = jobsPath ++ Ascii.slash :: Text.ofInt id.toInt)
    (hmethod : r.method = "GET") {s : Simulator} (hjob : s.jobs.get? id = some job)
    (now : Instant) :
    (serve s now r).simulator = (s.pollJob now job).1 ∧
      (serve s now r).response = okResponse (s.pollJob now job).2.1.toJson := by
  obtain ⟨n, hn, hnpos, hsmall, htext⟩ := ofInt_of_pos hpos
  have hsegment := isSegment_ofNat n
  have hread : Numeral.readInt (Text.ofNat n) = .ok (n : Int) := Numeral.readInt_ofNat hsmall
  have hid : Int64.ofInt n = id := by rw [← hn, Int64.ofInt_toInt]
  have hserve := serve_route
    (by rw [hpath, htext]; exact Path.clean_below clean_jobsPath (by decide) hsegment)
    (by rw [hpath, htext]; exact ofPath?_job hsegment.ne_nil hsegment.no_slash) hmethod s now
  rw [hserve, serveRoute, serveJob, hread]
  simp only [hid, hjob, if_neg (show ¬ (n : Int) ≤ 0 by omega), and_self]

end Simulator

end MeshConsole
