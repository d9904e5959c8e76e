import AgentClaimNetwork.Library.Selection
import AgentClaimNetwork.Delegation.Lifecycle

/-!
Steering instructions on their way to the running subagent: they are in `events.jsonl` and, as a
rule, in `steering.jsonl`, which the reader takes first.
-/

namespace AgentClaimNetwork.Delegation

open Library LineLog Selection List
open DelegationEvent (text)

variable {received : List DelegationSteering}

def defaultSteeringReadLimit : Nat := 64

def clampSteeringLimit (limit : Nat) : Nat := max 1 (min limit defaultSteeringReadLimit)

def steeringItem (event : DelegationEvent) : Option DelegationSteering :=
  match event.kind with
  | .steered instruction => some ⟨event.seq, event.stamp, instruction⟩
  | _ => none

def instructions (events : List DelegationEvent) : List DelegationSteering :=
  events.filterMap steeringItem

/-- The loop of `read_steering_after` over the lines of `steering.jsonl`. -/
def collectSteering (afterSeq limit : Nat) :
    List DelegationSteering → List DelegationSteering → List DelegationSteering
  | out, [] => out
  | out, item :: rest =>
    if item.seq ≤ afterSeq then collectSteering afterSeq limit out rest
    else if limit ≤ (out ++ [item]).length then out ++ [item]
    else collectSteering afterSeq limit (out ++ [item]) rest

def mergeSteeringFromEvents (afterSeq limit : Nat) :
    List DelegationSteering → List DelegationEvent → List DelegationSteering
  | out, [] => out
  | out, event :: rest =>
    if event.seq ≤ afterSeq then mergeSteeringFromEvents afterSeq limit out rest
    else match steeringItem event with
      | some item =>
        if out.any (·.seq == event.seq) then mergeSteeringFromEvents afterSeq limit out rest
        else if limit ≤ (out ++ [item]).length then out ++ [item]
        else mergeSteeringFromEvents afterSeq limit (out ++ [item]) rest
      | none => mergeSteeringFromEvents afterSeq limit out rest

section

variable (reader : EventReader)

/-- `read_steering_after`; a missing `steering.jsonl` is read as a log from before it
existed. -/
def readSteeringAfter (events : List DelegationEvent)
    (steering : Option (List DelegationSteering)) (afterSeq limit : Nat) :
    Except JsonLine (List DelegationSteering) :=
  let limit := clampSteeringLimit limit
  let tail := readEventsTail reader (frame (events.map text))
    defaultSteeringReadLimit
  match steering with
  | none => tail.map fun tail => mergeSteeringFromEvents afterSeq limit [] tail
  | some items =>
    let out := collectSteering afterSeq limit [] items
    if out.length < limit then
      tail.map fun tail =>
        (sortByKey DelegationSteering.seq
          (mergeSteeringFromEvents afterSeq limit out tail)).take limit
    else .ok out

end

def pendingAfter (afterSeq : Nat) (items : List DelegationSteering) : List DelegationSteering :=
  items.filter fun item => decide (afterSeq < item.seq)

/-- The pending instructions that `steering.jsonl` lacks. -/
def gapsAfter (afterSeq : Nat) (events : List DelegationEvent)
    (recorded : List DelegationSteering) : List DelegationSteering :=
  missing DelegationSteering.seq (pendingAfter afterSeq (instructions events))
    (pendingAfter afterSeq recorded)

def InTail (events : List DelegationEvent) (item : DelegationSteering) : Prop :=
  ∃ front event rear, events = front ++ event :: rear ∧ steeringItem event = some item ∧
    (event :: rear).length ≤ maxEventTailLimit ∧
    (frame ((event :: rear).map text)).length < eventTailReadWindowBytes

/-- What a read finds when it can serve every instruction `steering.jsonl` lacks: they are
in the tail of the log, and those there is no room for come after the items it returns from
`steering.jsonl`. -/
structure Covered (events : List DelegationEvent) (recorded : List DelegationSteering)
    (afterSeq limit : Nat) : Prop where
  inTail : ∀ gap ∈ gapsAfter afterSeq events recorded, InTail events gap
  inOrder : ∀ gap ∈ (gapsAfter afterSeq events recorded).drop
      (clampSteeringLimit limit - (pendingAfter afterSeq recorded).length),
    ∀ item ∈ (pendingAfter afterSeq recorded).take (clampSteeringLimit limit),
      item.seq < gap.seq

section

variable {afterSeq limit : Nat}
variable {item : DelegationSteering}

theorem pendingAfter_old (old : item.seq ≤ afterSeq) (rest : List DelegationSteering) :
    pendingAfter afterSeq (item :: rest) = pendingAfter afterSeq rest :=
  filter_cons_of_neg (by simpa using old)

theorem pendingAfter_new (new : ¬ item.seq ≤ afterSeq) (rest : List DelegationSteering) :
    pendingAfter afterSeq (item :: rest) = item :: pendingAfter afterSeq rest :=
  filter_cons_of_pos (by simpa using new)

theorem pendingAfter_split {received rest : List DelegationSteering}
    (old : ∀ item ∈ received, item.seq ≤ afterSeq) (new : ∀ item ∈ rest, afterSeq < item.seq) :
    pendingAfter afterSeq (received ++ rest) = rest := by
  rw [pendingAfter, filter_append, filter_eq_nil_iff.mpr, nil_append,
    filter_eq_self.mpr]
  · intro item member
    simpa using new item member
  · intro item member
    simpa using old item member

/-- One instruction more is taken while there is room. -/
theorem take_room {out later : List DelegationSteering} {item : DelegationSteering}
    (room : out.length < limit) :
    (if limit ≤ (out ++ [item]).length then out ++ [item]
      else (out ++ [item]) ++ later.take (limit - (out ++ [item]).length)) =
      out ++ (item :: later).take (limit - out.length) := by
  obtain ⟨more, amount⟩ : ∃ more, limit - out.length = more + 1 :=
    ⟨limit - out.length - 1, by omega⟩
  rw [amount, take_succ_cons, length_append, length_singleton, append_assoc,
    show limit - (out.length + 1) = more by omega]
  split_ifs with full
  · obtain rfl : more = 0 := by omega
    rfl
  · rfl

theorem collectSteering_eq (out items : List DelegationSteering) (room : out.length < limit) :
    collectSteering afterSeq limit out items =
      out ++ (pendingAfter afterSeq items).take (limit - out.length) := by
  induction items generalizing out with
  | nil => simp [collectSteering, pendingAfter]
  | cons item rest ih =>
    by_cases old : item.seq ≤ afterSeq
    · rw [collectSteering, if_pos old, ih out room, pendingAfter_old old]
    · rw [collectSteering, if_neg old, pendingAfter_new old]
      rw [← take_room room]
      split_ifs with full
      · rfl
      · exact ih (out ++ [item]) (by omega)

theorem steeringItem_seq (found : steeringItem event = some item) : item.seq = event.seq := by
  unfold steeringItem at found
  split at found
  · cases found
    rfl
  · cases found

def Increasing (events : List DelegationEvent) : Prop :=
  Ordered DelegationEvent.seq events

theorem Increasing.instructions {events : List DelegationEvent} (increasing : Increasing events) :
    Ordered DelegationSteering.seq (instructions events) := by
  unfold Delegation.instructions Ordered
  rw [pairwise_filterMap]
  refine List.Pairwise.imp ?_ increasing
  intro left right below item found other foundOther
  rwa [steeringItem_seq found, steeringItem_seq foundOther]

theorem mergeSteeringFromEvents_eq (out : List DelegationSteering)
    {events : List DelegationEvent} (increasing : Increasing events)
    (room : out.length < limit) :
    mergeSteeringFromEvents afterSeq limit out events =
      out ++ (missing DelegationSteering.seq (pendingAfter afterSeq (instructions events)) out).take
        (limit - out.length) := by
  induction events generalizing out with
  | nil => simp [mergeSteeringFromEvents, pendingAfter, missing, instructions]
  | cons event rest ih =>
    obtain ⟨below, later⟩ := pairwise_cons.mp increasing
    rw [mergeSteeringFromEvents]
    cases found : steeringItem event with
    | none =>
      have same : instructions (event :: rest) = instructions rest := by
        simp [instructions, found]
      rw [same, ← ih out later room]
      split_ifs <;> rfl
    | some item =>
      have seq := steeringItem_seq found
      have grown : instructions (event :: rest) = item :: instructions rest := by
        simp [instructions, found]
      rw [grown]
      by_cases old : event.seq ≤ afterSeq
      · rw [if_pos old, ih out later room, pendingAfter_old (by rwa [seq])]
      · rw [if_neg old, pendingAfter_new (by rwa [seq])]
        dsimp only
        by_cases known : out.any (·.seq == event.seq)
        · rw [if_pos known, ih out later room, missing, missing,
            filter_cons_of_neg (by simpa [seq] using known)]
        · rw [if_neg known, missing, filter_cons_of_pos (by simpa [seq] using known),
            ← missing]
          rw [← take_room room]
          split_ifs with full
          · rfl
          · rw [ih (out ++ [item]) later (by omega)]
            -- the later events have larger numbers than the one just taken
            have unseen : missing DelegationSteering.seq
                (pendingAfter afterSeq (instructions rest)) (out ++ [item]) =
                  missing DelegationSteering.seq
                    (pendingAfter afterSeq (instructions rest)) out := by
              apply filter_congr
              intro other member
              obtain ⟨source, inRest, is⟩ :=
                mem_filterMap.mp (mem_of_mem_filter member)
              have less := below source inRest
              rw [← steeringItem_seq is, ← seq] at less
              have different : (item.seq == other.seq) = false := by
                rw [beq_eq_false_iff_ne]
                omega
              rw [any_append, any_cons, different]
              simp
            rw [unseen]

end

section

variable {reader : EventReader} {events : List DelegationEvent}
  {recorded : List DelegationSteering} {afterSeq limit : Nat}

theorem increasing_of_numbered
    (numbered : events.map DelegationEvent.seq = range' 1 events.length) :
    Increasing events := by
  have sorted : (events.map DelegationEvent.seq).Pairwise (· < ·) := by
    rw [numbered]
    exact pairwise_lt_range'
  exact pairwise_map.mp sorted

theorem gapsAfter_append (front rear : List DelegationEvent) :
    gapsAfter afterSeq (front ++ rear) recorded =
      gapsAfter afterSeq front recorded ++ gapsAfter afterSeq rear recorded := by
  simp [gapsAfter, missing, pendingAfter, instructions]

theorem lastOf_rear {count : Nat} (fits : rear.length ≤ count) :
    lastOf count (front ++ rear) = lastOf (count - rear.length) front ++ rear := by
  unfold lastOf
  rw [length_append, drop_append_of_le_length (by omega)]
  congr 2
  omega

theorem tail_gaps (increasing : Increasing events)
    (stamped : ∀ event ∈ events, reader.stamps event.stamp)
    (reachable : ∀ gap ∈ gapsAfter afterSeq events recorded, InTail events gap) :
    ∃ tail, readEventsTail reader (frame (events.map text))
        defaultSteeringReadLimit = .ok tail ∧ Increasing tail ∧
      gapsAfter afterSeq tail recorded = gapsAfter afterSeq events recorded := by
  have clamped : clampEventTailLimit defaultSteeringReadLimit = maxEventTailLimit := by decide
  cases oldest : gapsAfter afterSeq events recorded with
  | nil =>
    obtain ⟨kept, isSuffix, read⟩ := @readEventsTail_frame reader events []
      (by rwa [append_nil]) (by decide) defaultSteeringReadLimit
    rw [append_nil, append_nil] at read
    have suffix : lastOf (clampEventTailLimit defaultSteeringReadLimit) kept <:+ events :=
      (drop_suffix _ kept).trans isSuffix
    refine ⟨_, read, List.Pairwise.sublist suffix.sublist increasing, ?_⟩
    obtain ⟨front, rfl⟩ := suffix
    rw [gapsAfter_append] at oldest
    exact (append_eq_nil_iff.mp oldest).2
  | cons gap rest =>
    obtain ⟨front, event, rear, rfl, found, few, short⟩ := reachable gap (by rw [oldest]; simp)
    obtain ⟨kept, isSuffix, read⟩ := readEventsTail_frame stamped short defaultSteeringReadLimit
    rw [clamped, lastOf_rear few] at read
    have suffix : lastOf (maxEventTailLimit - (event :: rear).length) kept <:+ front :=
      (drop_suffix _ kept).trans isSuffix
    -- nothing before the oldest gap is one
    have clear : gapsAfter afterSeq front recorded = [] := by
      rw [gapsAfter_append] at oldest
      cases early : gapsAfter afterSeq front recorded with
      | nil => rfl
      | cons first others =>
        rw [early, cons_append, List.cons.injEq] at oldest
        have inFront : gap ∈ gapsAfter afterSeq front recorded := by
          rw [early, ← oldest.1]
          simp
        obtain ⟨source, member, is⟩ := mem_filterMap.mp
          (mem_of_mem_filter (mem_of_mem_filter inFront))
        have less := (pairwise_append.mp increasing).2.2 source member event (by simp)
        rw [← steeringItem_seq is, ← steeringItem_seq found] at less
        exact absurd less (Nat.lt_irrefl _)
    refine ⟨_, read, ?_, ?_⟩
    · have sub := suffix.sublist.append (List.Sublist.refl (event :: rear))
      exact List.Pairwise.sublist sub increasing
    · rw [gapsAfter_append, ← oldest, gapsAfter_append, clear]
      obtain ⟨before, whole⟩ := suffix
      rw [← whole, gapsAfter_append] at clear
      rw [(append_eq_nil_iff.mp clear).2]

theorem clampSteeringLimit_pos (limit : Nat) : 0 < clampSteeringLimit limit :=
  Nat.lt_of_lt_of_le Nat.zero_lt_one (Nat.le_max_left _ _)

theorem readSteeringAfter_covered (increasing : Increasing events)
    (stamped : ∀ event ∈ events, reader.stamps event.stamp)
    {steering : Option (List DelegationSteering)}
    (isPart : (steering.getD []).Sublist (instructions events))
    (covered : Covered events (steering.getD []) afterSeq limit) :
    ∃ items, readSteeringAfter reader events steering afterSeq limit = .ok items ∧
      items <+: pendingAfter afterSeq (instructions events) ∧
      (pendingAfter afterSeq (instructions events) ≠ [] → items ≠ []) := by
  obtain ⟨tail, read, tailIncreasing, gaps⟩ := tail_gaps increasing stamped covered.inTail
  have positive := clampSteeringLimit_pos limit
  have ordered : Ordered DelegationSteering.seq (pendingAfter afterSeq (instructions events)) :=
    List.Pairwise.sublist filter_sublist increasing.instructions
  have pendingPart : (pendingAfter afterSeq (steering.getD [])).Sublist
      (pendingAfter afterSeq (instructions events)) := isPart.filter _
  have partOrdered : Ordered DelegationSteering.seq (pendingAfter afterSeq (steering.getD [])) :=
    List.Pairwise.sublist pendingPart ordered
  have serves : ∀ items : List DelegationSteering,
      items.Pairwise (fun left right => left.seq ≤ right.seq) →
      items.Perm ((pendingAfter afterSeq (steering.getD [])).take (clampSteeringLimit limit) ++
        (gapsAfter afterSeq events (steering.getD [])).take
          (clampSteeringLimit limit - (pendingAfter afterSeq (steering.getD [])).length)) →
      items <+: pendingAfter afterSeq (instructions events) ∧
        (pendingAfter afterSeq (instructions events) ≠ [] → items ≠ []) := by
    intro items inOrder perm
    refine ⟨selection_starts ordered pendingPart covered.inOrder inOrder perm, ?_⟩
    intro some empty
    have count := (part_perm ordered pendingPart).length_eq
    have none := perm.length_eq
    have more : 0 < (pendingAfter afterSeq (instructions events)).length :=
      length_pos_iff.mpr some
    rw [empty, length_nil, length_append, length_take, length_take] at none
    rw [length_append] at count
    unfold gapsAfter at none
    omega
  unfold readSteeringAfter
  rw [read]
  cases steering with
  | none =>
    dsimp only [Except.map]
    rw [mergeSteeringFromEvents_eq [] tailIncreasing positive, nil_append]
    refine ⟨_, rfl, serves _ ?_ ?_⟩
    · refine List.Pairwise.sublist ((take_sublist _ _).trans filter_sublist) ?_
      exact List.Pairwise.imp (fun below => Nat.le_of_lt below)
        (List.Pairwise.sublist filter_sublist tailIncreasing.instructions)
    · have same : missing DelegationSteering.seq (pendingAfter afterSeq (instructions tail)) [] =
          gapsAfter afterSeq events [] := gaps
      have nothing : pendingAfter afterSeq [] = [] := rfl
      rw [same, Option.getD_none, nothing, take_nil, nil_append]
  | some items =>
    dsimp only [Option.getD_some] at *
    have collected := @collectSteering_eq afterSeq _ [] items positive
    rw [nil_append, length_nil, Nat.sub_zero] at collected
    rw [collected]
    by_cases few : (pendingAfter afterSeq items).length < clampSteeringLimit limit
    · have whole : (pendingAfter afterSeq items).take (clampSteeringLimit limit) =
          pendingAfter afterSeq items := take_of_length_le few.le
      have merged := @mergeSteeringFromEvents_eq afterSeq _ (pendingAfter afterSeq items) tail
        tailIncreasing few
      have same : missing DelegationSteering.seq (pendingAfter afterSeq (instructions tail))
          (pendingAfter afterSeq items) = gapsAfter afterSeq events items := gaps
      rw [whole] at serves ⊢
      rw [if_pos few]
      dsimp only [Except.map]
      rw [merged, same]
      refine ⟨_, rfl, ?_⟩
      have perm := @sortByKey_perm _ DelegationSteering.seq (pendingAfter afterSeq items ++
        (gapsAfter afterSeq events items).take
          (clampSteeringLimit limit - (pendingAfter afterSeq items).length))
      rw [take_of_length_le]
      · exact serves _ (sortByKey_inOrder _) perm
      · rw [perm.length_eq, length_append, length_take]
        omega
    · have full : clampSteeringLimit limit - (pendingAfter afterSeq items).length = 0 := by omega
      rw [if_neg (by rw [length_take]; omega)]
      refine ⟨_, rfl, serves _ ?_ ?_⟩
      · exact List.Pairwise.imp (fun below => Nat.le_of_lt below)
          (List.Pairwise.sublist (take_sublist _ _) partOrdered)
      · rw [full, take_zero, append_nil]

end

structure Subscription where
  store : Store
  lastSeq : Nat
  received : List DelegationSteering

def Subscription.initial : Subscription := ⟨Store.empty, 0, []⟩

inductive SteeringLabel
  | call (call : Call)
  /-- A `steer` that ended between its two appends. -/
  | cutSteer (id instruction now : Text)
  | read (limit : Nat)

def SteeringLabel.isRead : SteeringLabel → Bool
  | .read _ => true
  | _ => false

namespace Subscription

variable (reader : EventReader) (expectedSessionId : Option Text) (id : Text)

variable (state : Subscription)

def events : List DelegationEvent :=
  ((state.store id).map SubagentFiles.events).getD []

def steering : Option (List DelegationSteering) :=
  (state.store id).bind SubagentFiles.steering

def receive (items : List DelegationSteering) : Subscription :=
  { state with
    lastSeq := items.foldl (fun last item => max last item.seq) state.lastSeq
    received := state.received ++ items }

def next : SteeringLabel → Subscription
  | .call call => { state with store := state.store.after expectedSessionId call }
  | .cutSteer target instruction now =>
    match state.store target with
    | none => state
    | some files =>
      if files.metadata.status.isTerminal then state
      else
        { state with
          store := Function.update state.store target
            (some (files.steerEvent instruction now)) }
  | .read limit =>
    match readSteeringAfter reader (state.events id) (state.steering id) state.lastSeq limit with
    | .ok items => state.receive items
    | .error _ => state

/-- One step; times are times, and the length of a file is a `u64`. -/
def Step (label : SteeringLabel) (after : Subscription) : Prop :=
  after = state.next reader expectedSessionId id label ∧
    (∀ call, label = .call call → reader.stamps call.now) ∧
    (∀ target instruction now, label = .cutSteer target instruction now → reader.stamps now) ∧
    (frame ((after.events id).map text)).length < 2 ^ 64

def CoveredStep (label : SteeringLabel) (after : Subscription) : Prop :=
  state.Step reader expectedSessionId id label after ∧
    ∀ limit, label = .read limit →
      Covered (state.events id) ((state.steering id).getD []) state.lastSeq limit

end Subscription

inductive Tells (now : Text) (events : List DelegationEvent)
    (steering : Option (List DelegationSteering)) :
    List DelegationEvent → Option (List DelegationSteering) → Prop
  | nothing : Tells now events steering events steering
  | more {later : List DelegationEvent} {before after : Option (List DelegationSteering)}
      (kind : DelegationEventKind) : Tells now events steering later before →
      SteeringTold later kind now before after →
      Tells now events steering (told later kind now) after

section

variable {reader : EventReader} {expectedSessionId : Option Text} {id now : Text}
  {state : Subscription}

theorem Tells.one {events : List DelegationEvent}
    {before after : Option (List DelegationSteering)} {kind : DelegationEventKind}
    (steering : SteeringTold events kind now before after) :
    Tells now events before (told events kind now) after :=
  Tells.more kind Tells.nothing steering

theorem Effect.tells {ordinary : Prop} {files next : SubagentFiles}
    (effect : Effect ordinary now files next) :
    Tells now files.events files.steering next.events next.steering := by
  cases effect with
  | unchanged same =>
    rw [same]
    exact Tells.nothing
  | noted kind _ _ _ events steering =>
    rw [events]
    exact Tells.one steering
  | moved kind _ _ _ events steering =>
    rw [events, steering]
    exact Tells.more kind (Tells.one (.inl rfl)) (.inl rfl)

theorem call_tells (call : Call) : Tells call.now (state.events id) (state.steering id)
      ((state.next reader expectedSessionId id (.call call)).events id)
      ((state.next reader expectedSessionId id (.call call)).steering id) := by
  simp only [Subscription.next, Subscription.events, Subscription.steering]
  cases present : state.store id with
  | some files =>
    obtain ⟨next, there, effect⟩ := after_effect present
    rw [there]
    exact effect.tells
  | none =>
    cases after : state.store.after expectedSessionId call id with
    | none => exact Tells.nothing
    | some files =>
      obtain ⟨request, rfl⟩ := after_created present after
      exact Tells.more .queued (@Tells.one _ _ _ _ .created (.inl rfl)) (.inl rfl)

theorem cutSteer_tells (target instruction : Text) : Tells now (state.events id) (state.steering id)
      ((state.next reader expectedSessionId id (.cutSteer target instruction now)).events id)
      ((state.next reader expectedSessionId id (.cutSteer target instruction now)).steering id) := by
  unfold Subscription.next
  dsimp only
  cases present : state.store target with
  | none => exact Tells.nothing
  | some files =>
    dsimp only
    by_cases ended : files.metadata.status.isTerminal
    · rw [if_pos ended]
      exact Tells.nothing
    · rw [if_neg ended]
      simp only [Subscription.events, Subscription.steering]
      by_cases here : id = target
      · subst here
        rw [present, Function.update_self]
        exact Tells.one (.inl rfl)
      · rw [Function.update_of_ne here]
        exact Tells.nothing

theorem cutSteer_consumer (target instruction : Text) :
    (state.next reader expectedSessionId id (.cutSteer target instruction now)).lastSeq =
        state.lastSeq ∧
      (state.next reader expectedSessionId id (.cutSteer target instruction now)).received =
        state.received := by
  unfold Subscription.next
  dsimp only
  split
  · exact ⟨rfl, rfl⟩
  · split_ifs
    all_goals exact ⟨rfl, rfl⟩

theorem Tells.isPrefix {events later : List DelegationEvent}
    {before after : Option (List DelegationSteering)}
    (tells : Tells now events before later after) : events <+: later := by
  induction tells with
  | nothing => exact prefix_refl events
  | more kind _ _ ih => exact ih.trans (prefix_append _ _)

end

structure InStep (reader : EventReader) (events : List DelegationEvent)
    (steering : Option (List DelegationSteering)) (lastSeq : Nat)
    (received : List DelegationSteering) : Prop where
  holds : Holds reader events [] (frame (events.map text))
  recorded : (steering.getD []).Sublist (instructions events)
  bounded : lastSeq ≤ events.length
  delivered : ∃ rest, instructions events = received ++ rest ∧
    (∀ item ∈ received, item.seq ≤ lastSeq) ∧ ∀ item ∈ rest, lastSeq < item.seq

namespace InStep

variable {reader : EventReader} {events : List DelegationEvent}
  {steering : Option (List DelegationSteering)} {lastSeq : Nat}

variable (inStep : InStep reader events steering lastSeq received)

include inStep in
theorem increasing : Increasing events := increasing_of_numbered inStep.holds.numbered

variable {after : Option (List DelegationSteering)}

include inStep

theorem tell {now : Text} {kind : DelegationEventKind}
    (heard : SteeringTold events kind now steering after) (stamped : reader.stamps now)
    (room : events.length + 1 ≤ maxSeq) :
    InStep reader (told events kind now) after lastSeq received := by
  have seq := nextSeq_numbered inStep.holds.numbered room
  have grown : instructions (told events kind now) = instructions events ++
      (steeringItem ⟨events.length + 1, now, boundEventKind kind⟩).toList := by
    rw [told, seq, instructions, filterMap_append, ← instructions]
    congr 1
  constructor
  · rw [told, seq]
    exact inStep.holds.snoc ⟨stamped, room, kind, rfl⟩ rfl
  · rw [grown]
    rcases heard with same | ⟨instruction, isSteered, added⟩
    · rw [same]
      exact inStep.recorded.trans (sublist_append_left _ _)
    · rw [added, Option.getD_some, seq, isSteered]
      exact inStep.recorded.append (List.Sublist.refl _)
  · rw [told, length_append]
    exact Nat.le_add_right_of_le inStep.bounded
  · obtain ⟨rest, split, old, new⟩ := inStep.delivered
    refine ⟨rest ++ (steeringItem ⟨events.length + 1, now, boundEventKind kind⟩).toList, ?_, old, ?_⟩
    · rw [grown, split, append_assoc]
    · intro item member
      rcases mem_append.mp member with earlier | latest
      · exact new item earlier
      · rw [steeringItem_seq (Option.mem_toList.mp latest)]
        exact Nat.lt_succ_of_le inStep.bounded

theorem tells {now : Text}
    (all : Tells now events steering later after) (stamped : reader.stamps now)
    (room : later.length ≤ maxSeq) : InStep reader later after lastSeq received := by
  induction all with
  | nothing => exact inStep
  | @more middle _ _ kind _ heard ih =>
    rw [told, length_append, length_singleton] at room
    exact (ih (by omega)).tell heard stamped room

theorem seq_le_length {item : DelegationSteering} (member : item ∈ instructions events) :
    item.seq ≤ events.length := by
  obtain ⟨event, inLog, is⟩ := mem_filterMap.mp member
  have numbered : event.seq ∈ events.map DelegationEvent.seq := mem_map_of_mem inLog
  rw [inStep.holds.numbered, List.mem_range'_1] at numbered
  rw [steeringItem_seq is]
  omega

omit inStep

end InStep

theorem le_foldl_max (items : List DelegationSteering) (last : Nat) :
    last ≤ items.foldl (fun last item => max last item.seq) last := by
  induction items generalizing last with
  | nil => exact Nat.le_refl last
  | cons item items ih => exact (Nat.le_max_left last item.seq).trans (ih _)

theorem seq_le_foldl_max {items : List DelegationSteering} {item : DelegationSteering}
    (member : item ∈ items) (last : Nat) :
    item.seq ≤ items.foldl (fun last item => max last item.seq) last := by
  induction items generalizing last with
  | nil => cases member
  | cons first items ih =>
    rcases mem_cons.mp member with rfl | later
    · exact (Nat.le_max_right last item.seq).trans (le_foldl_max items _)
    · exact ih later _

theorem foldl_max_le {items : List DelegationSteering} {bound last : Nat} (small : last ≤ bound)
    (below : ∀ item ∈ items, item.seq ≤ bound) :
    items.foldl (fun last item => max last item.seq) last ≤ bound := by
  induction items generalizing last with
  | nil => exact small
  | cons item items ih =>
    exact ih (Nat.max_le.mpr ⟨small, below item (by simp)⟩)
      fun other member => below other (by simp [member])

namespace InStep

variable {reader : EventReader} {events : List DelegationEvent}
  {steering : Option (List DelegationSteering)} {lastSeq : Nat}

theorem receive (inStep : InStep reader events steering lastSeq received)
    {items : List DelegationSteering}
    (isNext : items <+: pendingAfter lastSeq (instructions events)) :
    InStep reader events steering (items.foldl (fun last item => max last item.seq) lastSeq)
      (received ++ items) := by
  obtain ⟨rest, split, old, new⟩ := inStep.delivered
  rw [split, pendingAfter_split old new] at isNext
  obtain ⟨later, rfl⟩ := isNext
  have ordered := inStep.increasing.instructions
  rw [split, Ordered, pairwise_append, pairwise_append] at ordered
  refine ⟨inStep.holds, inStep.recorded, ?_, later, ?_, ?_, ?_⟩
  · apply foldl_max_le inStep.bounded
    intro item member
    apply inStep.seq_le_length
    rw [split]
    simp [member]
  · rw [split, append_assoc]
  · intro item member
    rcases mem_append.mp member with earlier | now
    · exact (old item earlier).trans (le_foldl_max items lastSeq)
    · exact seq_le_foldl_max now lastSeq
  · intro item member
    have above : ∀ other ∈ items, other.seq < item.seq :=
      fun other among => ordered.2.1.2.2 other among item member
    have behind : lastSeq < item.seq := new item (by simp [member])
    have bound := @foldl_max_le items (item.seq - 1) lastSeq (by omega)
      (fun other among => by
        have less := above other among
        omega)
    omega

end InStep

section

variable {reader : EventReader} {expectedSessionId : Option Text} {id : Text}
  {state after : Subscription}

def Subscription.InStep (reader : EventReader) (id : Text) (state : Subscription) : Prop :=
  Delegation.InStep reader (state.events id) (state.steering id) state.lastSeq state.received

theorem initial_inStep : Subscription.initial.InStep reader id where
  holds := ⟨rfl, rfl, by simp [Subscription.events, Subscription.initial, Store.empty],
    Or.inl rfl⟩
  recorded := List.Sublist.refl []
  bounded := Nat.le_refl 0
  delivered := ⟨[], rfl, by simp [Subscription.initial], by simp⟩

theorem length_le_maxSeq {events : List DelegationEvent}
    (fits : (frame (events.map text)).length < 2 ^ 64) :
    events.length ≤ maxSeq := by
  have lines := frame_length events
  rw [maxSeq]
  omega

theorem coveredStep_cases (inStep : state.InStep reader id)
    (taken : state.CoveredStep reader expectedSessionId id label after) :
    (label.isRead = false ∧ after.InStep reader id ∧
      state.events id <+: after.events id ∧ after.received = state.received) ∨
    (label.isRead = true ∧ ∃ items, after = state.receive items ∧
      items <+: pendingAfter state.lastSeq (instructions (state.events id)) ∧
      (pendingAfter state.lastSeq (instructions (state.events id)) ≠ [] → items ≠ [])) := by
  obtain ⟨⟨rfl, callStamped, cutStamped, fits⟩, covered⟩ := taken
  have room := length_le_maxSeq fits
  cases label with
  | call call =>
    have tells := @call_tells reader expectedSessionId id state call
    exact .inl ⟨rfl, Delegation.InStep.tells inStep tells (callStamped call rfl) room,
      tells.isPrefix, rfl⟩
  | cutSteer target instruction now =>
    have tells := @cutSteer_tells reader expectedSessionId id now state target instruction
    obtain ⟨lastSeq, received⟩ :=
      @cutSteer_consumer reader expectedSessionId id now state target instruction
    refine .inl ⟨rfl, ?_, tells.isPrefix, received⟩
    rw [Subscription.InStep, lastSeq, received]
    exact Delegation.InStep.tells inStep tells (cutStamped target instruction now rfl) room
  | read limit =>
    obtain ⟨items, read, isNext, progress⟩ := @readSteeringAfter_covered reader _ _ limit
      inStep.increasing (fun event member => (inStep.holds.written event member).stamped) _
      inStep.recorded (covered limit rfl)
    refine .inr ⟨rfl, items, ?_, isNext, progress⟩
    rw [Subscription.next, read]

theorem coveredStep_inStep (inStep : state.InStep reader id)
    (taken : state.CoveredStep reader expectedSessionId id label after) :
    after.InStep reader id := by
  rcases coveredStep_cases inStep taken with ⟨_, kept, _⟩ | ⟨_, items, rfl, isNext, _⟩
  · exact kept
  · exact Delegation.InStep.receive inStep isNext

theorem run_progress
    (run : Trace (Subscription.CoveredStep reader expectedSessionId id) state later last)
    (inStep : state.InStep reader id) : last.InStep reader id ∧ state.events id <+: last.events id ∧
      ((instructions (state.events id)).length ≤ last.received.length ∨
        state.received.length + later.countP SteeringLabel.isRead ≤ last.received.length) := by
  induction run with
  | nil => exact ⟨inStep, prefix_refl _, .inr (by simp)⟩
  | @snoc labels middle label last _ taken ih =>
    obtain ⟨middleInStep, grown, far⟩ := ih
    refine ⟨coveredStep_inStep middleInStep taken, ?_⟩
    rw [countP_append, countP_singleton]
    rcases coveredStep_cases middleInStep taken with
      ⟨isCall, _, more, same⟩ | ⟨isRead, items, rfl, isNext, progress⟩
    · refine ⟨grown.trans more, ?_⟩
      rw [same, isCall]
      exact far
    · refine ⟨grown, ?_⟩
      have length : (middle.receive items).received.length =
          middle.received.length + items.length := length_append
      rw [length, isRead, if_pos rfl]
      by_cases none : pendingAfter middle.lastSeq (instructions (middle.events id)) = []
      · left
        obtain ⟨rest, split, old, new⟩ := middleInStep.delivered
        rw [split, pendingAfter_split old new] at none
        have all := (List.IsPrefix.filterMap steeringItem grown).length_le
        change (instructions (state.events id)).length ≤
          (instructions (middle.events id)).length at all
        rw [split, none, append_nil] at all
        omega
      · have some := length_pos_iff.mpr (progress none)
        omega

end

/-- As long as every read is covered: the consumer has received exactly the instructions up to its
cursor, in their order, and once it has read as often as instructions were pending it has them all. -/
theorem covered_steering_is_delivered (reader : EventReader) (expectedSessionId : Option Text)
    (id : Text) {labels : List SteeringLabel} {state : Subscription}
    (run : Trace (Subscription.CoveredStep reader expectedSessionId id) Subscription.initial
      labels state) :
    state.received = (instructions (state.events id)).filter
        (fun item => decide (item.seq ≤ state.lastSeq)) ∧
      (state.received.map DelegationSteering.seq).Pairwise (· < ·) ∧
      ∀ later last,
        Trace (Subscription.CoveredStep reader expectedSessionId id) state later last →
        (pendingAfter state.lastSeq (instructions (state.events id))).length ≤
          later.countP SteeringLabel.isRead →
        ∀ item ∈ instructions (state.events id), item ∈ last.received := by
  obtain ⟨inStep, _⟩ := run_progress run initial_inStep
  obtain ⟨rest, split, old, new⟩ := inStep.delivered
  refine ⟨?_, ?_, ?_⟩
  · rw [split, filter_append, filter_eq_self.mpr, filter_eq_nil_iff.mpr,
      append_nil]
    · intro item member
      simpa using new item member
    · intro item member
      simpa using old item member
  · have ordered := inStep.increasing.instructions
    rw [split, Ordered, pairwise_append] at ordered
    exact pairwise_map.mpr ordered.1
  · intro later last continued enough item member
    obtain ⟨lastInStep, grown, far⟩ := run_progress continued inStep
    obtain ⟨left, lastSplit, _⟩ := lastInStep.delivered
    have counted : (instructions (state.events id)).length ≤ last.received.length := by
      rcases far with all | reads
      · exact all
      · rw [split, pendingAfter_split old new] at enough
        rw [split, length_append]
        omega
    have early : instructions (state.events id) <+: instructions (last.events id) :=
      List.IsPrefix.filterMap steeringItem grown
    have got : last.received <+: instructions (last.events id) := ⟨left, lastSplit.symm⟩
    exact (prefix_of_prefix_length_le early got counted).subset member

namespace LostInstruction

open ShortLife (request id now)

def labels : List SteeringLabel :=
  [.call (.create request (fun _ => id) now), .cutSteer id "first".toList now,
    .call (.steer id "second".toList now), .read 1]

noncomputable def reached (count : Nat) : Subscription :=
  (labels.take count).foldl (Subscription.next EventReader.exact none id) Subscription.initial

def told : List DelegationEvent :=
  [⟨1, now, .created⟩, ⟨2, now, .queued⟩, ⟨3, now, .steered "first".toList⟩,
    ⟨4, now, .steered "second".toList⟩]

theorem read_eq : readSteeringAfter EventReader.exact ((reached 3).events id)
    ((reached 3).steering id) (reached 3).lastSeq 1 = .ok [⟨4, now, "second".toList⟩] := by
  have steering : (reached 3).steering id = some [⟨4, now, "second".toList⟩] := rfl
  rfl

theorem final_eq : reached 4 = (reached 3).receive [⟨4, now, "second".toList⟩] := by
  have last : reached 4 = (reached 3).next EventReader.exact none id (.read 1) := rfl
  rw [last, Subscription.next, read_eq]

theorem fits {count : Nat} : (frame ((told.take count).map text)).length < 2 ^ 64 := by
  have whole : (frame (told.map text)).length < 2 ^ 64 := by decide +kernel
  have split := take_append_drop count told
  rw [← split, map_append, frame_append, length_append] at whole
  omega

theorem step {state after : Subscription} (count : Nat)
    (next : after = state.next EventReader.exact none id label)
    (times : (∀ call, label = .call call → call.now = now) ∧
      ∀ target instruction stamp, label = .cutSteer target instruction stamp → stamp = now)
    (events : after.events id = told.take count) :
    state.Step EventReader.exact none id label after := by
  refine ⟨next, ?_, ?_, ?_⟩
  · intro call isCall
    rw [times.1 call isCall]
    exact TornCreate.stamped
  · intro target instruction stamp isCut
    rw [times.2 target instruction stamp isCut]
    exact TornCreate.stamped
  · rw [events]
    exact fits

theorem created : (reached 0).Step EventReader.exact none id
    (.call (.create request (fun _ => id) now)) (reached 1) :=
  step 2 rfl ⟨by rintro _ ⟨⟩; rfl, by rintro _ _ _ ⟨⟩⟩ rfl

theorem cut : (reached 1).Step EventReader.exact none id (.cutSteer id "first".toList now)
    (reached 2) :=
  step 3 rfl ⟨by rintro _ ⟨⟩, by rintro _ _ _ ⟨⟩; rfl⟩ rfl

theorem run : Trace (Subscription.Step EventReader.exact none id) Subscription.initial labels
    (reached 4) := by
  have steered : (reached 2).Step EventReader.exact none id
      (.call (.steer id "second".toList now)) (reached 3) :=
    step 4 rfl ⟨by rintro _ ⟨⟩; rfl, by rintro _ _ _ ⟨⟩⟩ rfl
  have read : (reached 3).Step EventReader.exact none id (.read 1) (reached 4) :=
    step 4 rfl ⟨by rintro _ ⟨⟩, by rintro _ _ _ ⟨⟩⟩ (by rw [final_eq]; rfl)
  exact Trace.snoc (Trace.snoc (Trace.snoc (Trace.single created) cut) steered) read

theorem covered : Covered ((reached 2).events id) (((reached 2).steering id).getD [])
    (reached 2).lastSeq 2 := by
  have events : (reached 2).events id = told.take 3 := rfl
  have steering : ((reached 2).steering id).getD [] = [] := rfl
  have lastSeq : (reached 2).lastSeq = 0 := rfl
  have gaps : gapsAfter 0 (told.take 3) [] = [⟨3, now, "first".toList⟩] := rfl
  rw [events, steering, lastSeq]
  constructor
  · intro gap member
    rw [gaps, mem_singleton] at member
    subst member
    refine ⟨told.take 2, ⟨3, now, .steered "first".toList⟩, [], rfl, rfl, by decide, ?_⟩
    decide +kernel
  · intro gap member
    cases member

theorem readStep : (reached 2).CoveredStep EventReader.exact none id (.read 2)
    ((reached 2).next EventReader.exact none id (.read 2)) := by
  refine ⟨step 3 rfl ⟨by rintro _ ⟨⟩, by rintro _ _ _ ⟨⟩⟩ ?_, ?_⟩
  · unfold Subscription.next
    dsimp only
    split
    · rfl
    · rfl
  · rintro _ ⟨⟩
    exact covered

end LostInstruction

theorem covered_steering_is_delivered_afterCut :
    (⟨3, ShortLife.now, "first".toList⟩ : DelegationSteering) ∈
      ((LostInstruction.reached 2).next EventReader.exact none ShortLife.id (.read 2)).received := by
  have run : Trace (Subscription.CoveredStep EventReader.exact none ShortLife.id)
      Subscription.initial (LostInstruction.labels.take 2) (LostInstruction.reached 2) :=
    Trace.snoc (Trace.single ⟨LostInstruction.created, by rintro _ ⟨⟩⟩)
      ⟨LostInstruction.cut, by rintro _ ⟨⟩⟩
  obtain ⟨_, _, delivered⟩ := covered_steering_is_delivered EventReader.exact none ShortLife.id run
  have events : (LostInstruction.reached 2).events ShortLife.id = LostInstruction.told.take 3 := rfl
  have lastSeq : (LostInstruction.reached 2).lastSeq = 0 := rfl
  refine delivered [.read 2] _ (Trace.single LostInstruction.readStep) ?_ _ ?_
  · decide +kernel
  · decide +kernel

theorem steering_lost_behind_cursor :
    ∃ state item, Trace (Subscription.Step EventReader.exact none ShortLife.id)
        Subscription.initial LostInstruction.labels state ∧
      item ∈ instructions (state.events ShortLife.id) ∧ item.seq ≤ state.lastSeq ∧
      item ∉ state.received := by
  refine ⟨LostInstruction.reached 4, ⟨3, ShortLife.now, "first".toList⟩, LostInstruction.run, ?_⟩
  have events : ((LostInstruction.reached 3).receive
      [⟨4, ShortLife.now, "second".toList⟩]).events ShortLife.id = LostInstruction.told := rfl
  have received : ((LostInstruction.reached 3).receive
      [⟨4, ShortLife.now, "second".toList⟩]).received =
        [⟨4, ShortLife.now, "second".toList⟩] := rfl
  refine ⟨by decide +kernel, ?_, by decide +kernel⟩
  exact Nat.le_of_lt (Nat.lt_succ_self 3)

end AgentClaimNetwork.Delegation
