import RoundSync.Ffmpeg.ThumbnailFrames

/-!
# The loops select one frame and bound their work, but for the drain

Each loop looks at a row of frames that the session alone determines, so what a
call selects is read off `delivered`.  The limit on frames is not asked in the
drain: a session that hands out more frames than the limit there has them all
looked at.
-/

namespace RoundSync.Ffmpeg

universe u

variable {α : Type u}

/-- What a loop has done from a progress: it has looked at `frames`, and where none of
them was decisive it leaves the answers `receives`. -/
structure Considered (target : Int64) (frames : List (Delivery α)) (receives : List (Received α))
    (before : Progress α) (after : Int × Decoding α) : Prop where
  result : after.1 = (considerAll target frames before).1
  progress : after.2.progress = (considerAll target frames before).2
  receives : (∀ decoded ∈ frames, decoded.isDecisive target = false) →
    after.2.receives = receives

theorem Considered.nothing (target : Int64) {receives : List (Received α)}
    {progress : Progress α} {after : Decoding α} (same : after.progress = progress)
    (rest : after.receives = receives) :
    Considered target [] receives progress (0, after) :=
  ⟨rfl, same, fun _ => rest⟩

/-- A frame that decides ends the row, whatever would follow. -/
theorem Considered.decides {target : Int64} {decoded : Delivery α}
    (decisive : decoded.isDecisive target = true) (frames : List (Delivery α))
    (receives : List (Received α)) {progress : Progress α} {after : Decoding α}
    (looked : after.progress = (examine target decoded progress).2) :
    Considered target (decoded :: frames) receives progress
      ((examine target decoded progress).1, after) where
  result := by rw [considerAll, if_pos decisive]
  progress := by rw [considerAll, if_pos decisive, looked]
  receives := fun passes => by simp [passes decoded List.mem_cons_self] at decisive

theorem Considered.passes {target : Int64} {decoded : Delivery α}
    (undecided : decoded.isDecisive target = false) {frames : List (Delivery α)}
    {receives : List (Received α)} {progress : Progress α} {after : Int × Decoding α}
    (considered : Considered target frames receives (progress.passing [decoded]) after) :
    Considered target (decoded :: frames) receives progress after where
  result := by rw [considerAll, if_neg (by simp [undecided]), considered.result]
  progress := by rw [considerAll, if_neg (by simp [undecided]), considered.progress]
  receives := fun passes =>
    considered.receives fun other mem => passes other (List.mem_cons_of_mem _ mem)

/-- Rows one after the other, the second only where the first leaves the search
open. -/
theorem Considered.append {target : Int64} {first second : List (Delivery α)}
    {receives : List (Received α)} {progress : Progress α} {after : Int × Decoding α}
    (passes : ∀ decoded ∈ first, decoded.isDecisive target = false)
    (considered : Considered target second receives (progress.passing first) after) :
    Considered target (first ++ second) receives progress after where
  result := by rw [considerAll_append passes, considered.result]
  progress := by rw [considerAll_append passes, considered.progress]
  receives := fun all =>
    considered.receives fun other mem => all other (List.mem_append_right _ mem)

theorem Considered.stops {target : Int64} {first : List (Delivery α)}
    {between : List (Received α)} {progress : Progress α} {after : Int × Decoding α}
    (decides : ∃ decoded ∈ first, decoded.isDecisive target = true)
    (considered : Considered target first between progress after)
    (second : List (Delivery α)) (receives : List (Received α)) :
    Considered target (first ++ second) receives progress after where
  result := by rw [considerAll_append_of_decides decides, considered.result]
  progress := by rw [considerAll_append_of_decides decides, considered.progress]
  receives := fun passes => by
    rcases decides with ⟨decoded, mem, decisive⟩
    simp [passes decoded (List.mem_append_left _ mem)] at decisive

/-! ## The loops over the answers of the decoder -/

theorem examine_result (target : Int64) (decoded : Delivery α) (progress : Progress α) :
    (examine target decoded progress).1 < 0 ∨ (examine target decoded progress).1 = 0 := by
  unfold examine considerDecodedFrame
  split
  · exact Or.inr rfl
  · dsimp only
    split
    · exact Or.inl ‹_›
    · split <;> exact Or.inr rfl

theorem drainLoop_of_passes {target : Int64} {decoded : Delivery α}
    (undecided : decoded.isDecisive target = false) (receives : List (Received α))
    {state : Decoding α} (searching : state.progress.selected = false) :
    drainLoop target (.frame decoded :: receives) state =
      drainLoop target receives
        { state with progress := state.progress.passing [decoded], receives } := by
  simp [drainLoop, examine_of_not_isDecisive undecided, Progress.passing, searching]

theorem drainLoop_of_decides {target : Int64} {decoded : Delivery α}
    (decisive : decoded.isDecisive target = true) (receives : List (Received α))
    {state : Decoding α} (searching : state.progress.selected = false) :
    drainLoop target (.frame decoded :: receives) state =
      ((examine target decoded state.progress).1,
        { state with progress := (examine target decoded state.progress).2, receives }) := by
  rw [drainLoop]
  rcases examine_result target decoded state.progress with fails | goes
  · simp [fails]
  · have selected := (examine_stops_iff decoded searching).mpr decisive
    rw [goes] at selected
    simp [goes, selected.resolve_left (by decide)]

theorem drainLoop_considers (target : Int64) (receives : List (Received α)) {state : Decoding α}
    (searching : state.progress.selected = false) :
    Considered target (burst receives).1 (burst receives).2 state.progress
      (drainLoop target receives state) := by
  induction receives generalizing state with
  | nil => exact Considered.nothing target rfl rfl
  | cons received receives ih =>
      cases received with
      | failure code => exact Considered.nothing target rfl rfl
      | frame decoded =>
          cases decisive : decoded.isDecisive target with
          | true =>
              rw [drainLoop_of_decides decisive receives searching]
              exact Considered.decides decisive _ _ rfl
          | false =>
              rw [drainLoop_of_passes decisive receives searching]
              exact Considered.passes decisive (@ih { state with
                progress := state.progress.passing [decoded], receives } searching)

theorem receiveLoop_of_decides {target : Int64} {decoded : Delivery α}
    (decisive : decoded.isDecisive target = true) (receives : List (Received α))
    {state : Decoding α} (searching : state.progress.selected = false) :
    receiveLoop target (.frame decoded :: receives) state =
      ((examine target decoded state.progress).1,
        { state with
          progress := (examine target decoded state.progress).2
          receives
          decodedFrames := state.decodedFrames + 1 }) := by
  rw [receiveLoop]
  rcases examine_result target decoded state.progress with fails | goes
  · simp [fails]
  · have selected := (examine_stops_iff decoded searching).mpr decisive
    rw [goes] at selected
    simp [goes, selected.resolve_left (by decide)]

theorem receiveLoop_of_passes {target : Int64} {decoded : Delivery α}
    (undecided : decoded.isDecisive target = false) (receives : List (Received α))
    {state : Decoding α} (searching : state.progress.selected = false) :
    receiveLoop target (.frame decoded :: receives) state =
      (fun next : Decoding α =>
        if maxDecodedFrames ≤ next.decodedFrames then (0, next)
        else receiveLoop target receives next)
      { state with
        progress := state.progress.passing [decoded]
        receives
        decodedFrames := state.decodedFrames + 1 } := by
  simp [receiveLoop, examine_of_not_isDecisive undecided, Progress.passing, searching]

/-- The receiving loop takes as many frames as the limit leaves. -/
theorem receiveLoop_considers (target : Int64) (receives : List (Received α))
    {state : Decoding α} (searching : state.progress.selected = false)
    (room : state.decodedFrames < maxDecodedFrames) :
    Considered target (limitedBurst (maxDecodedFrames - state.decodedFrames) receives).1
      (limitedBurst (maxDecodedFrames - state.decodedFrames) receives).2 state.progress
      (receiveLoop target receives state) := by
  obtain ⟨limit, left⟩ := Nat.exists_eq_succ_of_ne_zero (Nat.sub_ne_zero_of_lt room)
  rw [left]
  induction receives generalizing state limit with
  | nil => exact Considered.nothing target rfl rfl
  | cons received receives ih =>
      cases received with
      | failure code => exact Considered.nothing target rfl rfl
      | frame decoded =>
          cases decisive : decoded.isDecisive target with
          | true =>
              rw [receiveLoop_of_decides decisive receives searching]
              exact Considered.decides decisive _ _ rfl
          | false =>
              rw [receiveLoop_of_passes decisive receives searching]
              dsimp only
              split
              · have spent : limit = 0 := by omega
                subst limit
                exact Considered.passes decisive (Considered.nothing target rfl rfl)
              · obtain ⟨later, rfl⟩ : ∃ later, limit = later + 1 :=
                  Nat.exists_eq_succ_of_ne_zero (by omega)
                have roomNext : state.decodedFrames + 1 < maxDecodedFrames := by omega
                have leftNext : maxDecodedFrames - (state.decodedFrames + 1) = later + 1 := by
                  omega
                exact Considered.passes decisive (@ih { state with
                  progress := state.progress.passing [decoded]
                  receives
                  decodedFrames := state.decodedFrames + 1 } searching roomNext later leftNext)

theorem receiveLoop_videoPackets (target : Int64) (receives : List (Received α))
    (state : Decoding α) :
    (receiveLoop target receives state).2.videoPackets = state.videoPackets := by
  induction receives generalizing state with
  | nil => rfl
  | cons received receives ih =>
      cases received with
      | failure code => rfl
      | frame decoded =>
          rw [receiveLoop]
          dsimp only
          split
          · rfl
          · split
            · rfl
            · rw [ih]

theorem receiveLoop_decodedFrames {target : Int64} {receives : List (Received α)}
    {state : Decoding α} (searching : state.progress.selected = false)
    (room : state.decodedFrames < maxDecodedFrames)
    (passes : ∀ decoded ∈ (limitedBurst (maxDecodedFrames - state.decodedFrames) receives).1,
      decoded.isDecisive target = false) :
    (receiveLoop target receives state).2.decodedFrames =
      state.decodedFrames +
        (limitedBurst (maxDecodedFrames - state.decodedFrames) receives).1.length := by
  obtain ⟨limit, left⟩ := Nat.exists_eq_succ_of_ne_zero (Nat.sub_ne_zero_of_lt room)
  rw [left] at passes ⊢
  induction receives generalizing state limit with
  | nil => rfl
  | cons received receives ih =>
      cases received with
      | failure code => rfl
      | frame decoded =>
          have undecided := passes decoded List.mem_cons_self
          rw [receiveLoop_of_passes undecided receives searching]
          dsimp only
          split
          · have spent : limit = 0 := by omega
            subst limit
            rfl
          · obtain ⟨later, rfl⟩ : ∃ later, limit = later + 1 :=
              Nat.exists_eq_succ_of_ne_zero (by omega)
            have goes := fun other mem => passes other (List.mem_cons_of_mem _ mem)
            have roomNext : state.decodedFrames + 1 < maxDecodedFrames := by omega
            have leftNext : maxDecodedFrames - (state.decodedFrames + 1) = later + 1 := by omega
            rw [@ih { state with
                progress := state.progress.passing [decoded]
                receives
                decodedFrames := state.decodedFrames + 1 } searching roomNext later goes leftNext]
            simp only [limitedBurst, List.length_cons, Nat.succ_eq_add_one]
            omega

/-- A row that decides without an error has selected a frame. -/
theorem Considered.selected {target : Int64} {frames : List (Delivery α)}
    {receives : List (Received α)} {progress : Progress α} {after : Int × Decoding α}
    (considered : Considered target frames receives progress after)
    (searching : progress.selected = false)
    (decides : ∃ decoded ∈ frames, decoded.isDecisive target = true)
    (goes : ¬ after.1 < 0) : after.1 = 0 ∧ after.2.progress.selected = true := by
  rcases passes_or_decides target frames with passes | ⟨before, decoded, later, rfl, passes, here⟩
  · rcases decides with ⟨decoded, mem, decisive⟩
    simp [passes decoded mem] at decisive
  · have result := considered.result
    have looked := considered.progress
    rw [considerAll_of_decides passes here] at result looked
    rw [result] at goes ⊢
    rw [looked]
    have stopped := (@examine_stops_iff _ target decoded (progress.passing before)
      searching).mpr here
    exact ⟨(examine_result target decoded _).resolve_left goes, stopped.resolve_left goes⟩

/-! ## The demuxing loop -/

theorem demuxLoop_of_stops {state : Decoding α} (stops : state.goesOn = false) (target : Int64)
    (videoStreamIndex : Int) (turns : List Turn) :
    demuxLoop target videoStreamIndex turns state = (0, state) := by
  cases turns with
  | nil => simp [demuxLoop, stops]
  | cons turn turns => simp [demuxLoop, stops]

theorem stops_iff {state : Decoding α} (searching : state.progress.selected = false)
    (turn : Turn) :
    (!state.goesOn || turn.interrupted) = true ↔
      (maxVideoPackets - state.videoPackets = 0 ∨ maxDecodedFrames - state.decodedFrames = 0 ∨
        turn.interrupted = true) := by
  simp only [Decoding.goesOn, searching, Bool.not_false, Bool.true_and, Bool.or_eq_true,
    Bool.not_eq_true', Bool.and_eq_false_iff, decide_eq_false_iff_not, ← or_assoc]
  refine or_congr ?_ Iff.rfl
  omega

/-- The demuxing loop over these turns looks at what the limits leave of them. -/
def Demuxes (target : Int64) (videoStreamIndex : Int) (turns : List Turn) (state : Decoding α) :
    Prop :=
  Considered target
    (demuxed videoStreamIndex (maxVideoPackets - state.videoPackets)
      (maxDecodedFrames - state.decodedFrames) turns state.receives).1
    (demuxed videoStreamIndex (maxVideoPackets - state.videoPackets)
      (maxDecodedFrames - state.decodedFrames) turns state.receives).2
    state.progress (demuxLoop target videoStreamIndex turns state)

/-- A packet that the decoder takes: its frames, then those of the later turns. -/
theorem packet_considers {target : Int64} {videoStreamIndex : Int} {turns : List Turn}
    (demuxes : ∀ state : Decoding α, state.progress.selected = false →
      Demuxes target videoStreamIndex turns state)
    {state : Decoding α} (searching : state.progress.selected = false)
    (room : state.decodedFrames < maxDecodedFrames) (packets : Nat)
    (counted : packets = maxVideoPackets - state.videoPackets) :
    Considered target
      ((limitedBurst (maxDecodedFrames - state.decodedFrames) state.receives).1 ++
        (demuxed videoStreamIndex packets
          (maxDecodedFrames - state.decodedFrames -
            (limitedBurst (maxDecodedFrames - state.decodedFrames) state.receives).1.length)
          turns (limitedBurst (maxDecodedFrames - state.decodedFrames) state.receives).2).1)
      (demuxed videoStreamIndex packets
        (maxDecodedFrames - state.decodedFrames -
          (limitedBurst (maxDecodedFrames - state.decodedFrames) state.receives).1.length)
        turns (limitedBurst (maxDecodedFrames - state.decodedFrames) state.receives).2).2
      state.progress
      (if (receiveLoop target state.receives state).1 < 0 then
        receiveLoop target state.receives state
      else demuxLoop target videoStreamIndex turns
        (receiveLoop target state.receives state).2) := by
  have first := receiveLoop_considers target state.receives searching room
  have videoPackets := receiveLoop_videoPackets target state.receives state
  rcases passes_or_decides target
    (limitedBurst (maxDecodedFrames - state.decodedFrames) state.receives).1
    with passes | ⟨before, decoded, later, frames, passes, decisive⟩
  · have goes := considerAll_of_passes passes state.progress
    have looked := first.progress
    have decodedFrames := receiveLoop_decodedFrames searching room passes
    rw [goes] at looked
    rw [first.result, goes, if_neg (by simp), ← first.receives passes, Nat.sub_sub,
      ← decodedFrames, counted, ← videoPackets]
    have second := demuxes (receiveLoop target state.receives state).2
      (by rw [looked]; exact searching)
    rw [Demuxes, looked] at second
    exact Considered.append passes second
  · have decides : ∃ other ∈ (limitedBurst (maxDecodedFrames - state.decodedFrames)
        state.receives).1, other.isDecisive target = true :=
      ⟨decoded, by simp [frames], decisive⟩
    have stays : (if (receiveLoop target state.receives state).1 < 0 then
        receiveLoop target state.receives state
      else demuxLoop target videoStreamIndex turns
        (receiveLoop target state.receives state).2) =
          receiveLoop target state.receives state := by
      split
      · rfl
      · have selected := first.selected searching decides ‹_›
        rw [demuxLoop_of_stops (by simp [Decoding.goesOn, selected.2])]
        exact Prod.ext selected.1.symm rfl
    rw [stays]
    exact Considered.stops decides first _ _

theorem demuxLoop_considers (target : Int64) (videoStreamIndex : Int) (turns : List Turn)
    (state : Decoding α) (searching : state.progress.selected = false) :
    Demuxes target videoStreamIndex turns state := by
  induction turns generalizing state with
  | nil =>
      rw [Demuxes, demuxLoop]
      split <;> exact Considered.nothing target rfl rfl
  | cons turn turns ih =>
      rw [Demuxes, demuxLoop, demuxed]
      by_cases stops : (!state.goesOn || turn.interrupted) = true
      · rw [if_pos stops, if_pos ((stops_iff searching turn).mp stops)]
        exact Considered.nothing target rfl rfl
      · have room := (stops_iff searching turn).not.mp stops
        rw [if_neg stops, if_neg room]
        cases turn.read with
        | failure code => exact Considered.nothing target rfl rfl
        | packet streamIndex sendResult =>
            dsimp only
            by_cases other : streamIndex ≠ videoStreamIndex
            · rw [if_pos other, if_pos other]
              exact ih { state with readResult := 0 } searching
            · rw [if_neg other, if_neg other]
              by_cases lost : refused sendResult = true
              · rw [if_pos lost, if_pos lost]
                exact ih { state with readResult := 0, videoPackets := state.videoPackets + 1 }
                  searching
              · rw [if_neg lost, if_neg lost]
                have roomNext : state.decodedFrames < maxDecodedFrames := by omega
                exact @packet_considers _ _ _ _ ih { state with
                  readResult := 0, videoPackets := state.videoPackets + 1 } searching roomNext _
                  (Nat.sub_sub _ _ _)

/-! ## The whole function -/

theorem drain_considers (target : Int64) {session : Session α} {state : Decoding α}
    (searching : state.progress.selected = false) :
    Considered target
      (if session.interruptedAtDrain then [] else (burst state.receives).1)
      (if session.interruptedAtDrain then state.receives else (burst state.receives).2)
      state.progress (drain target session state) := by
  unfold drain
  cases session.interruptedAtDrain with
  | true => simpa using Considered.nothing target rfl rfl
  | false => simpa [searching] using drainLoop_considers target state.receives searching

theorem drain_of_selected {state : Decoding α} (selected : state.progress.selected = true)
    (target : Int64) (session : Session α) : drain target session state = (0, state) := by
  simp [drain, selected]

/-- A call looks at the frames that the session hands out. -/
theorem decodeThumbnailFrame_considers {session : Session α}
    (allocates : session.allocates = true) (videoStreamIndex : Int) (target : Int64) :
    ∃ receives body, Considered target (delivered session videoStreamIndex) receives {} body ∧
      decodeThumbnailFrame session videoStreamIndex target =
        if body.1 < 0 then body else (finish session body.2, body.2) := by
  have first := demuxLoop_considers target videoStreamIndex session.turns
    { receives := session.receives } rfl
  unfold decodeThumbnailFrame delivered
  simp only [allocates, Bool.not_true, Bool.false_eq_true, if_false]
  unfold Demuxes at first
  generalize demuxLoop target videoStreamIndex session.turns { receives := session.receives } =
    loop at first ⊢
  dsimp only [Nat.sub_zero] at first
  generalize demuxed videoStreamIndex maxVideoPackets maxDecodedFrames session.turns
    session.receives = row at first ⊢
  rcases passes_or_decides target row.1 with passes | ⟨before, decoded, later, frames, _, decisive⟩
  · have goes := considerAll_of_passes passes ({} : Progress α)
    have looked := first.progress
    rw [goes] at looked
    have second := @drain_considers _ target session loop.2 (by rw [looked]; rfl)
    rw [first.receives passes, looked] at second
    have both := Considered.append passes second
    refine ⟨if session.interruptedAtDrain then row.2 else (burst row.2).2,
      drain target session loop.2, ?_, ?_⟩
    · cases atDrain : session.interruptedAtDrain <;> simpa [atDrain] using both
    · rw [if_neg (by rw [first.result, goes]; simp)]
  · have decides : ∃ other ∈ row.1, other.isDecisive target = true :=
      ⟨decoded, by simp [frames], decisive⟩
    refine ⟨row.2, loop, ?_, ?_⟩
    · cases session.interruptedAtDrain with
      | true => simpa using first.stops decides [] row.2
      | false => simpa using first.stops decides (burst row.2).1 row.2
    · split
      · rfl
      · have selected := first.selected rfl decides ‹_›
        rw [drain_of_selected selected.2]
        simp

/-! ## Within the limits -/

theorem burst_prefix_outputs (videoStreamIndex : Int) (turns : List Turn)
    (receives : List (Received α)) :
    (burst receives).1 <+: outputs videoStreamIndex turns receives := by
  induction turns generalizing receives with
  | nil => exact List.prefix_rfl
  | cons turn turns ih =>
      rw [outputs]
      cases turn.read with
      | failure code => exact List.prefix_rfl
      | packet streamIndex sendResult =>
          dsimp only
          split
          · exact ih receives
          · exact List.prefix_append _ _

theorem outputs_of_noPackets {videoStreamIndex : Int} {turns : List Turn}
    (none : packetsOf videoStreamIndex turns = 0) (receives : List (Received α)) :
    outputs videoStreamIndex turns receives = (burst receives).1 := by
  induction turns with
  | nil => rfl
  | cons turn turns ih =>
      rw [outputs]
      rw [packetsOf] at none
      cases read : turn.read with
      | failure code => rfl
      | packet streamIndex sendResult =>
          rw [read] at none
          dsimp only at none ⊢
          by_cases video : streamIndex = videoStreamIndex
          · simp [video] at none
          · rw [if_pos (Or.inl video)]
            exact ih (by omega)

theorem limitedBurst_of_lt {limit : Nat} {receives : List (Received α)}
    (room : (burst receives).1.length < limit) : limitedBurst limit receives = burst receives := by
  induction receives generalizing limit with
  | nil =>
      cases limit with
      | zero => simp at room
      | succ limit => rfl
  | cons received receives ih =>
      cases limit with
      | zero => simp at room
      | succ limit =>
          cases received with
          | failure code => rfl
          | frame decoded =>
              rw [limitedBurst, burst, ih (by simpa [burst] using room)]

/-- A burst that just meets the limit leaves its end to be asked for. -/
theorem limitedBurst_of_eq (receives : List (Received α)) :
    (limitedBurst (burst receives).1.length receives).1 = (burst receives).1 ∧
      (burst (limitedBurst (burst receives).1.length receives).2).1 = [] := by
  induction receives with
  | nil => exact ⟨rfl, rfl⟩
  | cons received receives ih =>
      cases received with
      | failure code => exact ⟨rfl, rfl⟩
      | frame decoded =>
          simp only [burst, List.length_cons, limitedBurst, ih, and_self]

theorem demuxed_noFrames (videoStreamIndex : Int) (packets : Nat) (turns : List Turn)
    (receives : List (Received α)) :
    demuxed videoStreamIndex packets 0 turns receives = ([], receives) := by
  cases turns with
  | nil => rfl
  | cons turn turns => simp [demuxed]

/-- Limits that the input does not exceed change nothing. -/
theorem demuxed_eq_outputs {videoStreamIndex : Int} {turns : List Turn}
    (uninterrupted : ∀ turn ∈ turns, turn.interrupted = false) {packets frames : Nat}
    {receives : List (Received α)} (enough : packetsOf videoStreamIndex turns ≤ packets)
    (room : (outputs videoStreamIndex turns receives).length ≤ frames) :
    (demuxed videoStreamIndex packets frames turns receives).1 ++
        (burst (demuxed videoStreamIndex packets frames turns receives).2).1 =
      outputs videoStreamIndex turns receives := by
  induction turns generalizing packets frames receives with
  | nil => rfl
  | cons turn turns ih =>
      have goes := uninterrupted turn List.mem_cons_self
      have later := fun other mem => uninterrupted other (List.mem_cons_of_mem turn mem)
      by_cases noFrames : frames = 0
      · subst frames
        have empty := List.eq_nil_of_length_eq_zero (Nat.le_zero.mp room)
        have nothing := burst_prefix_outputs videoStreamIndex (turn :: turns) receives
        rw [empty] at nothing
        rw [demuxed_noFrames, empty, List.prefix_nil.mp nothing]
        rfl
      · by_cases noPackets : packets = 0
        · subst packets
          rw [outputs_of_noPackets (Nat.le_zero.mp enough), demuxed, if_pos (Or.inl rfl)]
          rfl
        · rw [demuxed, if_neg (by simp [noFrames, noPackets, goes])]
          rw [outputs] at room ⊢
          rw [packetsOf] at enough
          cases read : turn.read with
          | failure code => rfl
          | packet streamIndex sendResult =>
              rw [read] at room enough
              dsimp only at room enough ⊢
              by_cases video : streamIndex = videoStreamIndex
              · rw [if_pos video] at enough
                rw [if_neg (not_not.mpr video)]
                by_cases lost : refused sendResult = true
                · rw [if_pos (Or.inr lost)] at room ⊢
                  rw [if_pos lost]
                  exact ih later (by omega) room
                · have taken : ¬ (streamIndex ≠ videoStreamIndex ∨ refused sendResult = true) := by
                    simp [video, lost]
                  rw [if_neg taken] at room ⊢
                  rw [if_neg lost]
                  rw [List.length_append] at room
                  dsimp only
                  by_cases spent : (burst receives).1.length = frames
                  · subst frames
                    have atLimit := limitedBurst_of_eq receives
                    have nothing := List.eq_nil_of_length_eq_zero
                      (Nat.le_zero.mp (by omega : (outputs videoStreamIndex turns
                        (burst receives).2).length ≤ 0))
                    rw [atLimit.1, Nat.sub_self, demuxed_noFrames, nothing]
                    simp [atLimit.2]
                  · rw [limitedBurst_of_lt (by omega), List.append_assoc,
                      ih later (by omega) (by omega)]
              · rw [if_neg video] at enough
                rw [if_pos (Or.inl video)] at room ⊢
                rw [if_pos video]
                exact ih later (by omega) room

/-- Within the limits the frames handed out are all that the decoder has. -/
theorem delivered_eq_outputs {session : Session α} {videoStreamIndex : Int}
    (within : WithinLimits session videoStreamIndex) :
    delivered session videoStreamIndex =
      outputs videoStreamIndex session.turns session.receives := by
  unfold delivered
  rw [within.allocates, within.drains]
  exact demuxed_eq_outputs within.uninterrupted within.packets within.frames

/-! ## The frame that is selected -/

theorem considerAll_examined_of_decides {target : Int64} {before : List (Delivery α)}
    (passes : ∀ decoded ∈ before, decoded.isDecisive target = false) {decoded : Delivery α}
    (decisive : decoded.isDecisive target = true) (later : List (Delivery α)) :
    (considerAll target (before ++ decoded :: later) {}).2.examined = before ++ [decoded] := by
  rw [considerAll_of_decides passes decisive]
  rcases isDecisive_cases decisive with lost | ⟨usable, kept, reaches⟩
  · rw [examine_of_isLost lost]
    simp [Progress.passing]
  · rw [examine_of_reachesTarget usable kept reaches]
    simp [Progress.passing]

theorem considerAll_examined (target : Int64) (frames : List (Delivery α)) :
    (considerAll target frames {}).2.examined <+: frames ∧
      ((∀ decoded ∈ (considerAll target frames {}).2.examined,
          decoded.isDecisive target = false) →
        (considerAll target frames {}).2.examined = frames) := by
  rcases passes_or_decides target frames with passes | ⟨before, decoded, later, rfl, passes, here⟩
  · rw [considerAll_of_passes passes]
    simp [Progress.passing]
  · rw [considerAll_examined_of_decides passes here]
    constructor
    · exact ⟨later, by simp⟩
    · intro undecided
      have none := undecided decoded (by simp)
      simp [none] at here

/-- No usable frame of a row without a decisive one lies at the target. -/
theorem find?_of_passes {target : Int64} {frames : List (Delivery α)}
    (passes : ∀ decoded ∈ frames, decoded.isDecisive target = false) :
    ((frames.map Delivery.frame).filter isUsableFrame).find? (reachesTarget target) = none := by
  rw [List.find?_eq_none]
  intro frame mem
  rw [List.mem_filter, List.mem_map] at mem
  rcases mem with ⟨⟨decoded, mem, rfl⟩, usable⟩
  have undecided := passes decoded mem
  simp only [Delivery.isDecisive, usable, Bool.true_and, Bool.or_eq_false_iff] at undecided
  simp [undecided.2]

theorem selection_of_passes {target : Int64} {frames : List (Delivery α)}
    (passes : ∀ decoded ∈ frames, decoded.isDecisive target = false) :
    selection target (frames.map Delivery.frame) =
      ((frames.map Delivery.frame).filter isUsableFrame).getLast? := by
  rw [selection, find?_of_passes passes, Option.none_or]

theorem selection_of_decides {target : Int64} {before : List (Delivery α)}
    (passes : ∀ decoded ∈ before, decoded.isDecisive target = false) {decoded : Delivery α}
    (usable : isUsableFrame decoded.frame = true)
    (reaches : reachesTarget target decoded.frame = true) (later : List (Delivery α)) :
    selection target ((before ++ decoded :: later).map Delivery.frame) = some decoded.frame := by
  rw [selection, List.map_append, List.filter_append, List.find?_append, find?_of_passes passes,
    List.map_cons, List.filter_cons_of_pos usable, List.find?_cons_of_pos reaches]
  rfl

theorem selection_isUsableFrame {target : Int64} {frames : List (Frame α)} {frame : Frame α}
    (selected : selection target frames = some frame) : isUsableFrame frame = true := by
  have mem : frame ∈ frames.filter isUsableFrame := by
    unfold selection at selected
    rcases Option.or_eq_some_iff.mp selected with found | ⟨-, last⟩
    · exact List.mem_of_find?_eq_some found
    · exact List.mem_of_getLast? last
  exact (List.mem_filter.mp mem).2

theorem selection_isSome_iff (target : Int64) (frames : List (Frame α)) :
    (selection target frames).isSome = true ↔ ∃ frame ∈ frames, isUsableFrame frame = true := by
  have nonempty : (selection target frames).isSome = true ↔ frames.filter isUsableFrame ≠ [] := by
    unfold selection
    cases frames.filter isUsableFrame with
    | nil => simp
    | cons frame frames => simp
  rw [nonempty, ne_eq, List.filter_eq_nil_iff]
  simp

/-- A row is considered in one of two ways: every reference that was asked for is
taken and the candidate is the selection, or a usable frame is lost. -/
theorem considerAll_cases (target : Int64) (frames : List (Delivery α)) :
    ((considerAll target frames {}).1 = 0 ∧
        (∀ decoded ∈ (considerAll target frames {}).2.examined, decoded.isLost = false) ∧
        (considerAll target frames {}).2.candidate =
          selection target (frames.map Delivery.frame)) ∨
      (∃ decoded ∈ (considerAll target frames {}).2.examined, decoded.isLost = true) ∧
        (∀ decoded ∈ (considerAll target frames {}).2.examined, decoded.isLost = true →
          (considerAll target frames {}).1 = decoded.refResult) ∧
        (considerAll target frames {}).2.candidate = none := by
  have undecided_kept : ∀ {decoded : Delivery α}, decoded.isDecisive target = false →
      decoded.isLost = false := by
    intro decoded undecided
    cases usable : isUsableFrame decoded.frame with
    | false => simp [Delivery.isLost, usable]
    | true =>
        simp only [Delivery.isDecisive, usable, Bool.true_and, Bool.or_eq_false_iff] at undecided
        simp [Delivery.isLost, undecided.1]
  rcases passes_or_decides target frames with passes | ⟨before, decoded, later, rfl, passes, here⟩
  · rw [considerAll_of_passes passes, selection_of_passes passes]
    refine Or.inl ⟨rfl, ?_, ?_⟩
    · intro decoded mem
      exact undecided_kept (passes decoded (by simpa [Progress.passing] using mem))
    · simp [Progress.passing]
  · rw [considerAll_of_decides passes here]
    rcases isDecisive_cases here with lost | ⟨usable, kept, reaches⟩
    · rw [examine_of_isLost lost]
      refine Or.inr ⟨⟨decoded, by simp, lost⟩, ?_, rfl⟩
      intro other mem otherLost
      simp only [Progress.passing, List.nil_append, List.mem_append, List.mem_singleton] at mem
      rcases mem with mem | rfl
      · simp [undecided_kept (passes other mem)] at otherLost
      · rfl
    · rw [examine_of_reachesTarget usable kept reaches,
        selection_of_decides passes usable reaches]
      refine Or.inl ⟨rfl, ?_, rfl⟩
      intro other mem
      simp only [Progress.passing, List.nil_append, List.mem_append, List.mem_singleton] at mem
      rcases mem with mem | rfl
      · exact undecided_kept (passes other mem)
      · simp [Delivery.isLost, kept]

theorem finish_of_usable {session : Session α} {state : Decoding α} {frame : Frame α}
    (candidate : state.progress.candidate = some frame) (usable : isUsableFrame frame = true) :
    finish session state = 0 := by
  simp only [isUsableFrame, Bool.and_eq_true] at usable
  have sized : (0 < frame.width && 0 < frame.height) = true := by simp [usable.1.1]
  rw [finish, candidate, Option.any_some, if_pos sized]

theorem finish_of_none {session : Session α} {state : Decoding α}
    (candidate : state.progress.candidate = none) : finish session state < 0 := by
  rw [finish, candidate, Option.any_none, if_neg (by decide)]
  split
  · decide
  · split
    · assumption
    · decide

/-- Where no usable frame was looked at there was none. -/
theorem selection_isSome_iff_examined (target : Int64) (frames : List (Delivery α)) :
    (selection target (frames.map Delivery.frame)).isSome = true ↔
      ∃ decoded ∈ (considerAll target frames {}).2.examined,
        isUsableFrame decoded.frame = true := by
  have examined := considerAll_examined target frames
  rw [selection_isSome_iff]
  constructor
  · rintro ⟨frame, mem, usable⟩
    rcases List.mem_map.mp mem with ⟨decoded, member, rfl⟩
    by_contra unusable
    simp only [not_exists, not_and] at unusable
    have all := examined.2 fun other otherMem => by
      simp [Delivery.isDecisive, unusable other otherMem]
    exact unusable decoded (by rw [all]; exact member) usable
  · rintro ⟨decoded, mem, usable⟩
    exact ⟨decoded.frame, List.mem_map_of_mem (examined.1.subset mem), usable⟩

/-- The result and the candidate of a call with its buffers. -/
theorem decodeThumbnailFrame_eq {session : Session α} (allocates : session.allocates = true)
    (videoStreamIndex : Int) (target : Int64) :
    let run := decodeThumbnailFrame session videoStreamIndex target
    let considered := considerAll target (delivered session videoStreamIndex) {}
    run.2.progress = considered.2 ∧
      run.1 = if considered.1 < 0 then considered.1 else finish session run.2 := by
  obtain ⟨receives, body, considered, run⟩ :=
    decodeThumbnailFrame_considers allocates videoStreamIndex target
  dsimp only
  rw [run]
  split
  · rename_i fails
    rw [considered.result] at fails
    exact ⟨considered.progress, by rw [if_pos fails, considered.result]⟩
  · rename_i goes
    rw [considered.result] at goes
    exact ⟨considered.progress, by rw [if_neg goes]⟩

theorem decodeThumbnailFrame_noBuffers {session : Session α}
    (allocates : session.allocates = false) (videoStreamIndex : Int) (target : Int64) :
    decodeThumbnailFrame session videoStreamIndex target =
        (averror ENOMEM, { receives := session.receives }) ∧
      delivered session videoStreamIndex = [] := by
  simp [decodeThumbnailFrame, delivered, allocates]

theorem decodeThumbnailFrame_progress (session : Session α) (videoStreamIndex : Int)
    (target : Int64) :
    (decodeThumbnailFrame session videoStreamIndex target).2.progress =
      (considerAll target (delivered session videoStreamIndex) {}).2 := by
  cases allocates : session.allocates with
  | true => exact (decodeThumbnailFrame_eq allocates videoStreamIndex target).1
  | false =>
      have noBuffers := decodeThumbnailFrame_noBuffers allocates videoStreamIndex target
      rw [noBuffers.1, noBuffers.2]
      rfl

/-- The result of a call: zero with the selection, or negative without a frame. -/
theorem decodeThumbnailFrame_result (session : Session α) (videoStreamIndex : Int)
    (target : Int64) :
    let run := decodeThumbnailFrame session videoStreamIndex target
    let handed := (delivered session videoStreamIndex).map Delivery.frame
    (run.1 = 0 ∧ run.2.progress.candidate = selection target handed ∧
        (selection target handed).isSome = true ∧
        ∀ decoded ∈ run.2.progress.examined, decoded.isLost = false) ∨
      (run.1 < 0 ∧ run.2.progress.candidate = none ∧
        ((selection target handed).isSome = true →
          ∃ decoded ∈ run.2.progress.examined, decoded.isLost = true) ∧
        ∀ decoded ∈ run.2.progress.examined, decoded.isLost = true →
          run.1 = decoded.refResult) := by
  cases allocates : session.allocates with
  | false =>
      have noBuffers := decodeThumbnailFrame_noBuffers allocates videoStreamIndex target
      rw [noBuffers.1, noBuffers.2]
      refine Or.inr ⟨?_, rfl, ?_, ?_⟩
      · show averror ENOMEM < 0
        decide
      · simp [selection]
      · simp
  | true =>
      have run := decodeThumbnailFrame_eq allocates videoStreamIndex target
      have progress := run.1
      have result := run.2
      dsimp only at progress result ⊢
      rcases considerAll_cases target (delivered session videoStreamIndex) with
        ⟨goes, kept, candidate⟩ | ⟨lost, code, candidate⟩
      · rw [goes, if_neg (by decide)] at result
        rw [← progress] at kept candidate
        cases chosen : selection target
            ((delivered session videoStreamIndex).map Delivery.frame) with
        | some frame =>
            rw [chosen] at candidate
            rw [finish_of_usable candidate (selection_isUsableFrame chosen)] at result
            exact Or.inl ⟨result, candidate, rfl, kept⟩
        | none =>
            rw [chosen] at candidate
            refine Or.inr ⟨?_, candidate, by simp, ?_⟩
            · rw [result]
              exact finish_of_none candidate
            · intro decoded mem lost
              simp [kept decoded mem] at lost
      · rcases lost with ⟨decoded, mem, lost⟩
        have fails : decoded.refResult < 0 := by
          simp only [Delivery.isLost, Bool.and_eq_true, decide_eq_true_eq] at lost
          exact lost.2
        rw [if_pos (by rw [code decoded mem lost]; exact fails)] at result
        rw [← result] at code
        rw [← progress] at code candidate mem
        refine Or.inr ⟨?_, candidate, fun _ => ⟨decoded, mem, lost⟩, code⟩
        rw [code decoded mem lost]
        exact fails

/-- A call returns the selection among the frames handed out, and it reports
success where it looked at a usable frame and lost none. -/
theorem decodeThumbnailFrame_selects (session : Session α) (videoStreamIndex : Int)
    (target : Int64) :
    let run := decodeThumbnailFrame session videoStreamIndex target
    let examined := run.2.progress.examined
    let handed := delivered session videoStreamIndex
    (∀ frame, run.2.progress.candidate = some frame → isUsableFrame frame = true) ∧
      (run.1 = 0 ∨ run.1 < 0) ∧
      (run.1 = 0 ↔ (∃ decoded ∈ examined, isUsableFrame decoded.frame = true) ∧
        ∀ decoded ∈ examined, decoded.isLost = false) ∧
      (run.1 = 0 →
        run.2.progress.candidate = selection target (handed.map Delivery.frame)) ∧
      (∀ decoded ∈ examined, decoded.isLost = true →
        run.1 = decoded.refResult ∧ run.2.progress.candidate = none) ∧
      (examined <+: handed ∧
        ((∀ decoded ∈ examined, decoded.isDecisive target = false) → examined = handed)) ∧
      (WithinLimits session videoStreamIndex →
        handed = outputs videoStreamIndex session.turns session.receives) := by
  dsimp only
  have looked := selection_isSome_iff_examined target (delivered session videoStreamIndex)
  have examined := considerAll_examined target (delivered session videoStreamIndex)
  rw [← decodeThumbnailFrame_progress] at looked examined
  refine ⟨?_, ?_, ?_, ?_, ?_, examined, delivered_eq_outputs⟩
  all_goals
    rcases decodeThumbnailFrame_result session videoStreamIndex target with
      ⟨result, candidate, found, kept⟩ | ⟨result, candidate, lost, code⟩
  · intro frame chosen
    exact selection_isUsableFrame (candidate.symm.trans chosen)
  · intro frame chosen
    rw [candidate] at chosen
    cases chosen
  · exact Or.inl result
  · exact Or.inr result
  · exact iff_of_true result ⟨looked.mp found, kept⟩
  · refine iff_of_false (by omega) ?_
    rintro ⟨usable, kept⟩
    rcases lost (looked.mpr usable) with ⟨decoded, mem, lost⟩
    simp [kept decoded mem] at lost
  · exact fun _ => candidate
  · intro success
    omega
  · intro decoded mem lost
    simp [kept decoded mem] at lost
  · intro decoded mem lost
    exact ⟨code decoded mem lost, candidate⟩

/-- A usable picture of the given time. -/
def pictureAt (timestamp : Int64) : Frame Unit where
  width := 2
  height := 2
  format := 0
  flags := 0
  bestEffortTimestamp := timestamp
  picture := ()

/-- The memory runs out at the second frame, when the first is the candidate. -/
def lostReference : Session Unit where
  allocates := true
  turns := [{ interrupted := false, read := .packet 0 0 }]
  receives :=
    [.frame { frame := pictureAt 0, refResult := 0 },
      .frame { frame := pictureAt 9, refResult := averror ENOMEM }]
  interruptedAtDrain := false
  interruptedAtEnd := false

/-- A session within the limits that hands out usable frames need not succeed. -/
theorem lostReference_fails :
    WithinLimits lostReference 0 ∧
      (∃ decoded ∈ outputs 0 lostReference.turns lostReference.receives,
        isUsableFrame decoded.frame = true) ∧
      (decodeThumbnailFrame lostReference 0 9).1 ≠ 0 := by
  refine ⟨⟨rfl, by simp [lostReference], rfl, by decide, by decide⟩, ?_, by decide⟩
  exact ⟨{ frame := pictureAt 0, refResult := 0 }, by decide, by decide⟩

/-! ## The work that is done -/

theorem demuxLoop_videoPackets (target : Int64) (videoStreamIndex : Int) (turns : List Turn)
    {state : Decoding α} (bounded : state.videoPackets ≤ maxVideoPackets) :
    (demuxLoop target videoStreamIndex turns state).2.videoPackets ≤ maxVideoPackets := by
  induction turns generalizing state with
  | nil =>
      rw [demuxLoop]
      split <;> exact bounded
  | cons turn turns ih =>
      rw [demuxLoop]
      split
      · exact bounded
      · rename_i goes
        have room : state.videoPackets < maxVideoPackets := by
          simp only [Decoding.goesOn, Bool.or_eq_true, Bool.not_eq_true', Bool.and_eq_false_iff,
            decide_eq_false_iff_not] at goes
          omega
        cases turn.read with
        | failure code => exact bounded
        | packet streamIndex sendResult =>
            dsimp only
            split
            · exact ih bounded
            · split
              · exact ih room
              · have packets := receiveLoop_videoPackets target state.receives
                  { state with readResult := 0, videoPackets := state.videoPackets + 1 }
                split
                · rw [packets]
                  exact room
                · exact ih (by rw [packets]; exact room)

theorem drainLoop_videoPackets (target : Int64) (receives : List (Received α))
    (state : Decoding α) :
    (drainLoop target receives state).2.videoPackets = state.videoPackets := by
  induction receives generalizing state with
  | nil => rfl
  | cons received receives ih =>
      cases received with
      | failure code => rfl
      | frame decoded =>
          rw [drainLoop]
          dsimp only
          split
          · rfl
          · split
            · rfl
            · rw [ih]

/-- Packets are read in the demuxing loop only, which counts them. -/
theorem decodeThumbnailFrame_videoPackets (session : Session α) (videoStreamIndex : Int)
    (target : Int64) :
    (decodeThumbnailFrame session videoStreamIndex target).2.videoPackets ≤ maxVideoPackets := by
  have demuxed := @demuxLoop_videoPackets _ target videoStreamIndex session.turns
    { receives := session.receives } (Nat.zero_le _)
  unfold decodeThumbnailFrame
  dsimp only
  split
  · exact Nat.zero_le _
  · split
    · exact demuxed
    · have drained : (drain target session (demuxLoop target videoStreamIndex session.turns
          { receives := session.receives }).2).2.videoPackets ≤ maxVideoPackets := by
        unfold drain
        split
        · rw [drainLoop_videoPackets]
          exact demuxed
        · exact demuxed
      split <;> exact drained

/-- A row is looked at up to its first decisive frame. -/
theorem considerAll_examined_length_le_iff (target : Int64) (frames : List (Delivery α))
    (limit : Nat) :
    (considerAll target frames {}).2.examined.length ≤ limit ↔
      frames.length ≤ limit ∨
        ∃ decoded ∈ frames.take limit, decoded.isDecisive target = true := by
  rcases passes_or_decides target frames with passes | ⟨before, decoded, later, rfl, passes, here⟩
  · rw [considerAll_of_passes passes]
    constructor
    · intro short
      exact Or.inl (by simpa [Progress.passing] using short)
    · rintro (short | ⟨decoded, mem, decisive⟩)
      · simpa [Progress.passing] using short
      · simp [passes decoded (List.mem_of_mem_take mem)] at decisive
  · have length : (considerAll target (before ++ decoded :: later) {}).2.examined.length =
        before.length + 1 := by
      rw [considerAll_examined_of_decides passes here]
      simp
    rw [length]
    constructor
    · intro short
      refine Or.inr ⟨decoded, ?_, here⟩
      rw [List.take_append, List.mem_append]
      obtain ⟨rest, left⟩ := Nat.exists_eq_add_of_lt short
      exact Or.inr (by rw [show limit - before.length = rest + 1 by omega]; simp)
    · rintro (short | ⟨other, mem, decisive⟩)
      · rw [List.length_append, List.length_cons] at short
        omega
      · by_contra long
        rw [List.take_append_of_le_length (by omega)] at mem
        simp [passes other (List.mem_of_mem_take mem)] at decisive

/-- The frames looked at stay within the limit exactly where the session hands out
no more, or one of the first is decisive.  While packets are read the limit holds
(`demuxed_length`), so what goes wrong is a drain that returns more than is left. -/
theorem decodeThumbnailFrame_bounded_iff (session : Session α) (videoStreamIndex : Int)
    (target : Int64) :
    let run := decodeThumbnailFrame session videoStreamIndex target
    let handed := delivered session videoStreamIndex
    (run.2.progress.examined.length ≤ maxDecodedFrames ∧
        run.2.videoPackets ≤ maxVideoPackets) ↔
      (handed.length ≤ maxDecodedFrames ∨
        ∃ decoded ∈ handed.take maxDecodedFrames, decoded.isDecisive target = true) := by
  dsimp only
  rw [decodeThumbnailFrame_progress, considerAll_examined_length_le_iff]
  exact and_iff_left (decodeThumbnailFrame_videoPackets session videoStreamIndex target)

theorem limitedBurst_frames (frames : List (Delivery α)) (receives : List (Received α)) :
    limitedBurst frames.length (frames.map Received.frame ++ receives) = (frames, receives) := by
  induction frames with
  | nil => rfl
  | cons decoded frames ih => simp [limitedBurst, ih]

/-- One packet after which the decoder has a frame too many, all before the target. -/
def oneFrameTooMany : Session Unit where
  allocates := true
  turns := [{ interrupted := false, read := .packet 0 0 }]
  receives :=
    (List.replicate maxDecodedFrames { frame := pictureAt 0, refResult := 0 }).map
      Received.frame ++ [.frame { frame := pictureAt 0, refResult := 0 }]
  interruptedAtDrain := false
  interruptedAtEnd := false

/-- The frame too many is fetched in the drain. -/
theorem oneFrameTooMany_exceeds :
    (decodeThumbnailFrame oneFrameTooMany 0 9).2.progress.examined.length =
      maxDecodedFrames + 1 := by
  have first := limitedBurst_frames
    (List.replicate maxDecodedFrames { frame := pictureAt 0, refResult := 0 })
    [.frame { frame := pictureAt 0, refResult := 0 }]
  rw [List.length_replicate] at first
  have handed : delivered oneFrameTooMany 0 =
      List.replicate (maxDecodedFrames + 1) { frame := pictureAt 0, refResult := 0 } := by
    have row : demuxed 0 maxVideoPackets maxDecodedFrames oneFrameTooMany.turns
        oneFrameTooMany.receives =
          (List.replicate maxDecodedFrames { frame := pictureAt 0, refResult := 0 },
            [.frame { frame := pictureAt 0, refResult := 0 }]) := by
      rw [oneFrameTooMany, demuxed, if_neg (by decide)]
      dsimp only
      rw [if_neg (by decide), if_neg (by decide), first]
      simp only [demuxed, List.append_nil]
    unfold delivered
    rw [row, List.replicate_succ']
    rfl
  rw [decodeThumbnailFrame_progress, handed, considerAll_of_passes]
  · simp [Progress.passing]
  · intro decoded mem
    rw [List.eq_of_mem_replicate mem]
    decide

end RoundSync.Ffmpeg
