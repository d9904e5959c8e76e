import Mathlib.Tactic.Common

/-!
Frames cut out of a stream that arrives in pieces.  A separator that is found stays found when more of the
stream arrives, so the frames do not depend on the pieces.
-/

namespace AgentClaimNetwork.Library.Framing

open List

variable {Item State Event Failure Result : Type*}

structure Separator (Item : Type*) where
  find : List Item → Option (Nat × Nat)
  fits : ∀ {buffer found}, find buffer = some found → 0 < found.2 ∧ found.1 + found.2 ≤ buffer.length
  stable : ∀ {buffer found} (more : List Item), find buffer = some found →
    find (buffer ++ more) = some found

def drain (separator : Separator Item) (buffer : List Item) : List (List Item) × List Item :=
  match _found : separator.find buffer with
  | none => ([], buffer)
  | some (place, width) =>
    let rest := drain separator (buffer.drop (place + width))
    (buffer.take place :: rest.1, rest.2)
termination_by buffer.length
decreasing_by
  obtain ⟨positive, inside⟩ := separator.fits _found
  simp only [length_drop]
  simp only at positive inside
  omega

section

variable {separator : Separator Item} {buffer : List Item}

theorem drain_none (absent : separator.find buffer = none) : drain separator buffer = ([], buffer) := by
  rw [drain]
  split
  · rfl
  · next found => rw [absent] at found; cases found

theorem drain_some (found : separator.find buffer = some (place, width)) : drain separator buffer =
      (buffer.take place :: (drain separator (buffer.drop (place + width))).1,
        (drain separator (buffer.drop (place + width))).2) := by
  rw [drain]
  split
  · next absent => rw [found] at absent; cases absent
  · next otherPlace otherWidth same =>
    rw [found] at same
    cases same
    rfl

theorem drain_append (separator : Separator Item) (buffer more : List Item) :
    drain separator (buffer ++ more) =
      ((drain separator buffer).1 ++ (drain separator ((drain separator buffer).2 ++ more)).1,
        (drain separator ((drain separator buffer).2 ++ more)).2) := by
  induction length : buffer.length using Nat.strongRecOn generalizing buffer with
  | ind size ih =>
    cases found : separator.find buffer with
    | none =>
      rw [drain_none found]
      simp
    | some cut =>
      obtain ⟨place, width⟩ := cut
      obtain ⟨positive, inside⟩ := separator.fits found
      simp only at positive inside
      have shorter : (buffer.drop (place + width)).length < size := by
        simp only [length_drop]
        omega
      have frame : (buffer ++ more).take place = buffer.take place :=
        take_append_of_le_length (by omega)
      have rest : (buffer ++ more).drop (place + width) = buffer.drop (place + width) ++ more :=
        drop_append_of_le_length inside
      rw [drain_some (separator.stable more found), drain_some found, frame, rest,
        ih _ shorter _ rfl]
      simp

end

section

variable (separator : Separator Item)

variable (chunks : List (List Item))

def extract : List (List Item) × List Item :=
  chunks.foldl (fun state chunk =>
    let drained := drain separator (state.2 ++ chunk)
    (state.1 ++ drained.1, drained.2)) ([], [])

theorem drain_drained (buffer : List Item) : separator.find (drain separator buffer).2 = none := by
  induction length : buffer.length using Nat.strongRecOn generalizing buffer with
  | ind size ih =>
    cases found : separator.find buffer with
    | none =>
      rw [drain_none found]
      exact found
    | some cut =>
      obtain ⟨place, width⟩ := cut
      obtain ⟨positive, inside⟩ := separator.fits found
      simp only at positive inside
      rw [drain_some found]
      refine ih _ ?_ _ rfl
      simp only [length_drop]
      omega

theorem extract_from (frames : List (List Item)) (buffer : List Item)
    (drained : separator.find buffer = none) :
    chunks.foldl (fun state chunk =>
      let drained := drain separator (state.2 ++ chunk)
      (state.1 ++ drained.1, drained.2)) (frames, buffer) =
      (frames ++ (drain separator (buffer ++ chunks.flatten)).1,
        (drain separator (buffer ++ chunks.flatten)).2) := by
  induction chunks generalizing frames buffer with
  | nil => simp [drain_none drained]
  | cons chunk rest ih =>
    rw [foldl_cons, ih _ _ (drain_drained separator _), flatten_cons, ← append_assoc,
      drain_append separator (buffer ++ chunk)]
    simp

theorem find_nil : separator.find [] = none := by
  cases found : separator.find [] with
  | none => rfl
  | some cut =>
    have fits := separator.fits found
    simp only [length_nil] at fits
    omega

theorem extract_eq : extract separator chunks = drain separator chunks.flatten := by
  have whole := extract_from separator chunks [] [] (find_nil separator)
  rw [extract, whole]
  simp

end

structure Reader (Item State Event Failure Result : Type*) where
  start : State
  handle : State → List Item → List Event × Except Failure State
  finish : State → Except Failure Result

variable (separator : Separator Item) (reader : Reader Item State Event Failure Result)

def Reader.feed (progress : List Event × Except Failure State) (frame : List Item) :
    List Event × Except Failure State :=
  match progress.2 with
  | .error _ => progress
  | .ok state =>
    let handled := reader.handle state frame
    (progress.1 ++ handled.1, handled.2)

def Reader.take (state : List Item × (List Event × Except Failure State)) (chunk : List Item) :
    List Item × (List Event × Except Failure State) :=
  match state.2.2 with
  | .error _ => state
  | .ok _ =>
    let drained := drain separator (state.1 ++ chunk)
    (drained.2, drained.1.foldl reader.feed state.2)

def Reader.conclude (state : List Item × (List Event × Except Failure State)) :
    List Event × Except Failure Result :=
  let last := if state.1.isEmpty then state.2 else reader.feed state.2 state.1
  match last.2 with
  | .error failure => (last.1, .error failure)
  | .ok final => (last.1, reader.finish final)

def Reader.run (chunks : List (List Item)) : List Event × Except Failure Result :=
  reader.conclude (chunks.foldl (reader.take separator) ([], ([], .ok reader.start)))

variable {separator reader}

theorem feed_failed {failure : Failure} (failed : progress.2 = .error failure)
    (frames : List (List Item)) : frames.foldl reader.feed progress = progress := by
  induction frames with
  | nil => rfl
  | cons frame rest ih =>
    have same : reader.feed progress frame = progress := by
      unfold Reader.feed
      rw [failed]
    rw [foldl_cons, same, ih]

theorem conclude_failed {failure : Failure} (failed : state.2.2 = .error failure) :
    reader.conclude state = (state.2.1, .error failure) := by
  have kept : reader.feed state.2 state.1 = state.2 := feed_failed failed [state.1]
  unfold Reader.conclude
  rw [kept, ite_self]
  simp only [failed]

theorem take_chunks (chunks : List (List Item)) (buffer : List Item)
    (progress : List Event × Except Failure State) (drained : separator.find buffer = none) :
    reader.conclude (chunks.foldl (reader.take separator) (buffer, progress)) =
      reader.conclude ((drain separator (buffer ++ chunks.flatten)).2,
        (drain separator (buffer ++ chunks.flatten)).1.foldl reader.feed progress) := by
  induction chunks generalizing buffer progress with
  | nil => simp [drain_none drained]
  | cons chunk rest ih =>
    have whole := drain_append separator (buffer ++ chunk) rest.flatten
    rw [append_assoc] at whole
    rw [foldl_cons, flatten_cons, whole, foldl_append]
    cases state : progress.2 with
    | error failure =>
      have stopped : reader.take separator (buffer, progress) chunk = (buffer, progress) := by
        unfold Reader.take
        rw [state]
      have stays : rest.foldl (reader.take separator) (buffer, progress) = (buffer, progress) := by
        clear ih whole
        induction rest with
        | nil => rfl
        | cons next later ihLater =>
          have unread : reader.take separator (buffer, progress) next = (buffer, progress) := by
            unfold Reader.take
            rw [state]
          rw [foldl_cons, unread, ihLater]
      rw [stopped, stays, feed_failed state, feed_failed state, conclude_failed state,
        conclude_failed state]
    | ok current =>
      have taken : reader.take separator (buffer, progress) chunk =
          ((drain separator (buffer ++ chunk)).2,
            (drain separator (buffer ++ chunk)).1.foldl reader.feed progress) := by
        unfold Reader.take
        rw [state]
      rw [taken, ih _ _ (drain_drained separator _)]

theorem run_eq (chunks : List (List Item)) : reader.run separator chunks =
      reader.conclude ((drain separator chunks.flatten).2,
        (drain separator chunks.flatten).1.foldl reader.feed ([], .ok reader.start)) := by
  have whole := @take_chunks _ _ _ _ _ separator reader chunks []
    ([], Except.ok reader.start)
    (find_nil separator)
  rw [Reader.run, whole]
  rfl

end AgentClaimNetwork.Library.Framing
