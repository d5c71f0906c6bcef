import MeshConsole.Push.Link

/-!
# The sequence gate

`sequence_gate`: whatever opens and frames a link goes through, its watermark
is the greatest sequence number of the connection; a frame is dropped as a
duplicate exactly when its number does not exceed the watermark, and then
nothing else happens; the numbers that pass on one connection strictly
increase. Frames are arbitrary bytes, and a frame whose payload turns out
to be broken moves the watermark all the same.
-/

namespace MeshConsole.Push

-- ---------------------------------------------------------------------------
-- The course of a link
-- ---------------------------------------------------------------------------

/-- The frames of a connection after one more occurrence: an open starts a
connection without any. -/
def extend (frames : List Text) : Occurrence → List Text
  | .opened => []
  | .frame bytes => frames ++ [bytes]

/-- The frames of the latest connection of a course. -/
def sinceOpen (course : List Occurrence) : List Text := course.foldl extend []

/-- The maximum of zero and the sequence numbers of all frames. -/
def greatest (frames : List Text) : UInt64 := (frames.filterMap sequenceOf?).foldl max 0

def Signal.isDuplicateDrop : Signal → Bool
  | .publish (.dropped reason _) => reason == .duplicate
  | _ => false

/-- Whether a frame would be reported as a duplicate. -/
def Link.dropsDuplicate (handler : Handler) (l : Link) (frame : Text) : Bool :=
  (l.receive handler frame).2.any Signal.isDuplicateDrop

/-- The sequence numbers with which frames get past the gate, in order. -/
def Link.passing (handler : Handler) : Link → List Text → List UInt64
  | _, [] => []
  | l, frame :: rest =>
    let later := (l.receive handler frame).1.passing handler rest
    match sequenceOf? frame with
    | none => later
    | some seq => if l.dropsDuplicate handler frame then later else seq :: later

-- ---------------------------------------------------------------------------
-- One frame
-- ---------------------------------------------------------------------------

section
variable {l : Link} {handler : Handler} {frame : Text}

/-- All that a frame can do: it cannot be decoded, it carries no number, it
is a duplicate, or it moves the watermark to its number. -/
theorem receive_cases (l : Link) (handler : Handler) (frame : Text) :
    (∃ why, decode frame = .error why ∧ l.receive handler frame =
      (l, [.log (("dropping message: " : Text) ++ why.message),
        .publish (.dropped .malformed 0)])) ∨
    (∃ m, decode frame = .ok m ∧ m.seq = none ∧ l.receive handler frame =
      (l, Link.versionSignals m ++ Link.dispatchSignals handler m)) ∨
    (∃ m seq, decode frame = .ok m ∧ m.seq = some seq ∧ seq ≤ l.lastSeq ∧
      l.receive handler frame = (l, [.publish (.dropped .duplicate seq)])) ∨
    (∃ m seq, decode frame = .ok m ∧ m.seq = some seq ∧ l.lastSeq < seq ∧
      l.receive handler frame = ({ l with lastSeq := seq },
        Link.versionSignals m ++ Link.dispatchSignals handler m)) := by
  unfold Link.receive
  cases hd : decode frame with
  | error why => exact .inl ⟨why, rfl, rfl⟩
  | ok m =>
    cases hs : m.seq with
    | none => exact .inr (.inl ⟨m, rfl, hs, by simp [Link.gate?, hs]⟩)
    | some seq =>
      by_cases hle : seq ≤ l.lastSeq
      · exact .inr (.inr (.inl ⟨m, seq, rfl, hs, hle, by simp [Link.gate?, hs, hle]⟩))
      · exact .inr (.inr (.inr ⟨m, seq, rfl, hs, UInt64.not_le.mp hle,
          by simp [Link.gate?, hs, hle]⟩))

theorem sequenceOf?_error (h : decode frame = .error why) : sequenceOf? frame = none := by
  simp [sequenceOf?, h, Except.toOption]

theorem sequenceOf?_ok (h : decode frame = .ok m) : sequenceOf? frame = m.seq := by
  simp [sequenceOf?, h, Except.toOption]

theorem not_isDuplicateDrop_version (m : Message) :
    (Link.versionSignals m).any Signal.isDuplicateDrop = false := by
  unfold Link.versionSignals
  split
  · rfl
  · split <;> rfl

theorem not_isDuplicateDrop_dispatch (handler : Handler) (m : Message) :
    (Link.dispatchSignals handler m).any Signal.isDuplicateDrop = false := by
  unfold Link.dispatchSignals
  split
  · rfl
  · split
    · rfl
    · split <;> rfl

/-- What passes the gate is not reported as a duplicate later on. -/
theorem not_isDuplicateDrop_passed (handler : Handler) (m : Message) :
    (Link.versionSignals m ++ Link.dispatchSignals handler m).any Signal.isDuplicateDrop =
      false := by
  simp only [List.any_append, not_isDuplicateDrop_version, not_isDuplicateDrop_dispatch,
    Bool.or_self]

theorem max_of_le {a b : UInt64} (h : a ≤ b) : max a b = b := if_pos h

theorem max_of_ge {a b : UInt64} (h : b ≤ a) : max a b = a := by
  by_cases hab : a ≤ b
  · rw [max_of_le hab, UInt64.le_antisymm h hab]
  · exact if_neg hab

/-- A frame moves the watermark at most up to its number and touches nothing
else of the link. -/
theorem receive_link (l : Link) (handler : Handler) (frame : Text) :
    (l.receive handler frame).1 =
      { l with lastSeq := (sequenceOf? frame).elim l.lastSeq (max l.lastSeq) } := by
  rcases receive_cases l handler frame with
    ⟨why, hd, hr⟩ | ⟨m, hd, hs, hr⟩ | ⟨m, seq, hd, hs, hle, hr⟩ | ⟨m, seq, hd, hs, hlt, hr⟩
  · simp [hr, sequenceOf?_error hd]
  · simp [hr, sequenceOf?_ok hd, hs]
  · simp [hr, sequenceOf?_ok hd, hs, max_of_ge hle]
  · simp [hr, sequenceOf?_ok hd, hs, max_of_le (UInt64.le_of_lt hlt)]

theorem receive_lastSeq (l : Link) (handler : Handler) (frame : Text) :
    (l.receive handler frame).1.lastSeq = (sequenceOf? frame).elim l.lastSeq (max l.lastSeq) := by
  rw [receive_link]

/-- What a frame does depends on the watermark alone. -/
theorem Link.receive_congr {l m : Link} (h : l.lastSeq = m.lastSeq) (handler : Handler)
    (frame : Text) : (l.receive handler frame).2 = (m.receive handler frame).2 := by
  have hgate (message : Message) : l.gate? message = m.gate? message := by simp [gate?, h]
  unfold receive
  split
  · rfl
  · rw [hgate]
    split <;> rfl

theorem dropsDuplicate_iff (h : sequenceOf? frame = some seq) :
    l.dropsDuplicate handler frame = true ↔ seq ≤ l.lastSeq := by
  unfold Link.dropsDuplicate
  rcases receive_cases l handler frame with
    ⟨why, hd, hr⟩ | ⟨m, hd, hs, hr⟩ | ⟨m, seq', hd, hs, hle, hr⟩ | ⟨m, seq', hd, hs, hlt, hr⟩
  · simp [sequenceOf?_error hd] at h
  · simp [sequenceOf?_ok hd, hs] at h
  · obtain rfl : seq' = seq := by simpa [sequenceOf?_ok hd, hs] using h
    simp [hr, Signal.isDuplicateDrop, hle]
  · obtain rfl : seq' = seq := by simpa [sequenceOf?_ok hd, hs] using h
    rw [hr, not_isDuplicateDrop_passed]
    simp [UInt64.not_le.mpr hlt]

/-- A frame with a number that is not above the watermark is reported and
goes no further. -/
theorem receive_late (h : sequenceOf? frame = some seq) (hle : seq ≤ l.lastSeq) :
    l.receive handler frame = (l, [.publish (.dropped .duplicate seq)]) := by
  rcases receive_cases l handler frame with
    ⟨why, hd, -⟩ | ⟨m, hd, hs, -⟩ | ⟨m, seq', hd, hs, -, hr⟩ | ⟨m, seq', hd, hs, hlt, -⟩
  · simp [sequenceOf?_error hd] at h
  · simp [sequenceOf?_ok hd, hs] at h
  · obtain rfl : seq' = seq := by simpa [sequenceOf?_ok hd, hs] using h
    exact hr
  · obtain rfl : seq' = seq := by simpa [sequenceOf?_ok hd, hs] using h
    exact absurd hle (UInt64.not_le.mpr hlt)

end

-- ---------------------------------------------------------------------------
-- Whole courses
-- ---------------------------------------------------------------------------

theorem greatest_extend (frames : List Text) (frame : Text) :
    greatest (frames ++ [frame]) =
      (sequenceOf? frame).elim (greatest frames) (max (greatest frames)) := by
  cases hs : sequenceOf? frame <;> simp [greatest, hs]

theorem meet_watermark {l : Link} (h : l.lastSeq = greatest frames) (o : Occurrence) :
    (l.meet handler o).1.lastSeq = greatest (extend frames o) := by
  cases o with
  | opened => rfl
  | frame bytes =>
    show (l.receive handler bytes).1.lastSeq = greatest (frames ++ [bytes])
    rw [receive_lastSeq, greatest_extend, h]

theorem after_watermark {l : Link} (h : l.lastSeq = greatest frames) (course : List Occurrence) :
    (l.after handler course).lastSeq = greatest (course.foldl extend frames) := by
  induction course generalizing l frames with
  | nil => exact h
  | cons o rest ih => exact ih (meet_watermark h o)

/-- Nothing at or below the watermark passes, and what passes increases. -/
theorem passing_increases (handler : Handler) (l : Link) (frames : List Text) :
    (∀ seq ∈ l.passing handler frames, l.lastSeq < seq) ∧
      (l.passing handler frames).Pairwise (· < ·) := by
  -- The bound carries the induction: what passes later is above the next watermark.
  induction frames generalizing l with
  | nil => simp [Link.passing]
  | cons frame rest ih =>
    obtain ⟨habove, hinc⟩ := ih (l.receive handler frame).1
    rw [receive_lastSeq] at habove
    simp only [Link.passing]
    cases hs : sequenceOf? frame with
    | none =>
      rw [hs] at habove
      exact ⟨habove, hinc⟩
    | some seq =>
      rw [hs] at habove
      replace habove : ∀ other ∈ (l.receive handler frame).1.passing handler rest,
          max l.lastSeq seq < other := habove
      by_cases hdrop : l.dropsDuplicate handler frame = true
      · have hle : seq ≤ l.lastSeq := (dropsDuplicate_iff hs).mp hdrop
        simp only [hdrop, if_true]
        rw [max_of_ge hle] at habove
        exact ⟨habove, hinc⟩
      · have hlt : l.lastSeq < seq :=
          UInt64.not_le.mp fun hle => hdrop ((dropsDuplicate_iff hs).mpr hle)
        simp only [hdrop]
        rw [max_of_le (UInt64.le_of_lt hlt)] at habove
        refine ⟨?_, List.pairwise_cons.mpr ⟨habove, hinc⟩⟩
        intro other hmem
        rcases List.mem_cons.mp hmem with rfl | hmem
        · exact hlt
        · exact UInt64.lt_trans hlt (habove other hmem)

/-- What the gate makes of one frame. -/
structure Gated (handler : Handler) (l : Link) (frame : Text) : Prop where
  /-- A frame that cannot be decoded or carries no number leaves the link as
  it was. -/
  unsequenced : sequenceOf? frame = none → (l.receive handler frame).1 = l
  duplicate_iff : ∀ seq, sequenceOf? frame = some seq →
    (l.dropsDuplicate handler frame = true ↔ seq ≤ l.lastSeq)
  /-- A duplicate is reported, and that is all. -/
  duplicate : ∀ seq, sequenceOf? frame = some seq → l.dropsDuplicate handler frame = true →
    l.receive handler frame = (l, [.publish (.dropped .duplicate seq)])
  state : (l.receive handler frame).1.state = l.state
  retryAttempt : (l.receive handler frame).1.retryAttempt = l.retryAttempt

theorem gated (handler : Handler) (l : Link) (frame : Text) : Gated handler l frame where
  unsequenced hs := by rw [receive_link, hs]; rfl
  duplicate_iff seq hs := dropsDuplicate_iff hs
  duplicate seq hs hdrop := receive_late hs ((dropsDuplicate_iff hs).mp hdrop)
  state := by rw [receive_link]
  retryAttempt := by rw [receive_link]

/-- The gate over a whole course of a link, from its making on. The frames
handed to it after the course, with no open between them, are of one
connection. -/
theorem sequence_gate (url : Text) (timing : Timing) (handler : Handler)
    (course : List Occurrence) :
    ((Link.new url timing).after handler course).lastSeq = greatest (sinceOpen course) ∧
    (∀ frame, Gated handler ((Link.new url timing).after handler course) frame) ∧
    ∀ frames,
      (((Link.new url timing).after handler course).passing handler frames).Pairwise (· < ·) ∧
      (((Link.new url timing).after handler course).passing handler frames).Nodup := by
  refine ⟨after_watermark rfl course, gated handler _, fun frames => ?_⟩
  have hinc := (passing_increases handler ((Link.new url timing).after handler course) frames).2
  exact ⟨hinc, hinc.imp UInt64.ne_of_lt⟩

/-- The payload of the second frame is broken, and still the third is late. -/
example :
    (Link.new "ws://gw/ws" {}).passing .plain [
      "\x7b\"seq\":2\x7d", "\x7b\"seq\":5,\"type\":\"devices_delta\",\"data\":[]\x7d",
      "\x7b\"seq\":4\x7d", "no frame", "\x7b\"seq\":6\x7d"] = [2, 5, 6] := by
  decide +kernel

end MeshConsole.Push
