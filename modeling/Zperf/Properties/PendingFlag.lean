import Zperf.Core.WorkQueue

/-!
The pending flag of the work queue, over every interleaving.

At any time an item is in one place at most: about to be submitted by one task, in the
queue, or taken by the worker with its flag not yet cleared. Its flag is set from the
store before the send to the store after the receive. Both follow as long as no two
tasks submit the same item at once.
-/

namespace Zperf

open Base

variable {κ ι : Type}

/-- Where the items are and what their flags say. -/
structure WorkOk (q : WorkQueue κ ι) : Prop where
  once : q.queue.Nodup
  taken : ∀ i, q.worker.flagged = some i → i ∉ q.queue
  alone : ∀ k k' i, (q.submitter k).item = some i → (q.submitter k').item = some i → k = k'
  apart : ∀ k i, (q.submitter k).item = some i → i ∉ q.queue ∧ q.worker.flagged ≠ some i
  queuedSet : ∀ i ∈ q.queue, q.isPending i = 1
  takenSet : ∀ i, q.worker.flagged = some i → q.isPending i = 1
  sendingSet : ∀ k i, q.submitter k = .sending i → q.isPending i = 1
  clear : ∀ i, q.isPending i ≠ 0 →
    i ∈ q.queue ∨ q.worker.flagged = some i ∨ ∃ k, q.submitter k = .sending i
  loadedClear : ∀ k i word, q.submitter k = .loaded i word → word = 0
  loadedSet : ∀ i word, q.worker = .loaded i word → word = 1

theorem WorkOk.init : WorkOk (WorkQueue.init κ ι) := by
  constructor <;> simp [WorkQueue.init, Submitter.item, Worker.flagged]

variable [DecidableEq κ] [DecidableEq ι]

omit [DecidableEq κ] in
theorem setPending_frame (q : WorkQueue κ ι) (i : ι) (word : UInt32) :
    (q.setPending i word).queue = q.queue ∧ (q.setPending i word).submitter = q.submitter ∧
      (q.setPending i word).worker = q.worker := ⟨rfl, rfl, rfl⟩

omit [DecidableEq κ] in
theorem isPending_setPending (q : WorkQueue κ ι) (i j : ι) (word : UInt32) :
    (q.setPending i word).isPending j = if j = i then word else q.isPending j := by
  simp [WorkQueue.setPending, Function.update_apply]

omit [DecidableEq ι] in
theorem submitter_setSubmitter (q : WorkQueue κ ι) (k k' : κ) (r : Submitter ι) :
    (q.setSubmitter k r).submitter k' = if k' = k then r else q.submitter k' := by
  simp [WorkQueue.setSubmitter, Function.update_apply]

omit [DecidableEq ι] in
theorem setSubmitter_frame (q : WorkQueue κ ι) (k : κ) (r : Submitter ι) :
    (q.setSubmitter k r).queue = q.queue ∧ (q.setSubmitter k r).isPending = q.isPending ∧
      (q.setSubmitter k r).worker = q.worker := ⟨rfl, rfl, rfl⟩

omit [DecidableEq ι] in
/-- The flag is still accounted for when another task than the one about to send goes on. -/
theorem WorkOk.clear_setSubmitter {q : WorkQueue κ ι} (h : WorkOk q) {k : κ} {j : ι}
    (r : Submitter ι) (before : q.submitter k ≠ .sending j) (hj : q.isPending j ≠ 0) :
    j ∈ q.queue ∨ q.worker.flagged = some j ∨
      ∃ k', (q.setSubmitter k r).submitter k' = .sending j := by
  cases h.clear j hj with
  | inl queued => exact .inl queued
  | inr rest =>
      cases rest with
      | inl flagged => exact .inr (.inl flagged)
      | inr sending =>
          obtain ⟨k', hk'⟩ := sending
          refine .inr (.inr ⟨k', ?_⟩)
          rw [submitter_setSubmitter, if_neg]
          · exact hk'
          · rintro rfl
            exact before hk'

omit [DecidableEq ι] in
/-- A step of task `k` that neither was nor is about to send. -/
theorem WorkOk.moved {q : WorkQueue κ ι} (h : WorkOk q) {k : κ} {i : ι} {r : Submitter ι}
    (item : r.item = some i) (before : ∀ j, q.submitter k ≠ .sending j)
    (after : ∀ j, r ≠ .sending j) (zero : ∀ word, r = .loaded i word → word = 0)
    (free : ∀ k', (q.submitter k').item = some i → k' = k)
    (place : i ∉ q.queue ∧ q.worker.flagged ≠ some i) : WorkOk (q.setSubmitter k r) where
  once := h.once
  taken := h.taken
  alone k₁ k₂ j h₁ h₂ := by
    have others := h.alone k₁ k₂ j
    rw [submitter_setSubmitter] at h₁ h₂
    grind
  apart k' j hj := by
    have others := h.apart k' j
    rw [submitter_setSubmitter] at hj
    grind [setSubmitter_frame]
  queuedSet := h.queuedSet
  takenSet := h.takenSet
  sendingSet k' j hj := by
    have others := h.sendingSet k' j
    rw [submitter_setSubmitter] at hj
    grind [setSubmitter_frame]
  clear j hj := h.clear_setSubmitter r (before j) hj
  loadedClear k' j word hj := by
    have others := h.loadedClear k' j word
    rw [submitter_setSubmitter] at hj
    grind [Submitter.item]
  loadedSet := h.loadedSet

omit [DecidableEq κ] [DecidableEq ι] in
theorem flag_of_not_pending {q : WorkQueue κ ι} {i : ι} (h : kWorkIsPending q i = false) :
    q.isPending i ≠ 1 := by
  intro set
  simp [kWorkIsPending, set, workItemIsPendingBitMask] at h

omit [DecidableEq ι] in
theorem WorkOk.checked {q : WorkQueue κ ι} (h : WorkOk q) {k : κ} {i : ι}
    (idle : q.submitter k = .idle) (free : ∀ k', (q.submitter k').item ≠ some i)
    (pending : kWorkIsPending q i = false) : WorkOk (q.setSubmitter k (.checked i)) := by
  have flag := flag_of_not_pending pending
  apply h.moved rfl
  · simp [idle]
  · simp
  · simp
  · exact fun k' hk' => absurd hk' (free k')
  · exact ⟨fun hi => flag (h.queuedSet i hi), fun hi => flag (h.takenSet i hi)⟩

omit [DecidableEq ι] in
theorem WorkOk.load {q : WorkQueue κ ι} (h : WorkOk q) {k : κ} {i : ι}
    (checked : q.submitter k = .checked i) :
    WorkOk (q.setSubmitter k (.loaded i (q.isPending i))) := by
  have item : (q.submitter k).item = some i := by simp [checked, Submitter.item]
  have place := h.apart k i item
  have zero : q.isPending i = 0 := by
    by_contra set
    cases h.clear i set with
    | inl queued => exact place.1 queued
    | inr rest =>
        cases rest with
        | inl flagged => exact place.2 flagged
        | inr sending =>
            obtain ⟨k', hk'⟩ := sending
            have same := h.alone k k' i item (by simp [hk', Submitter.item])
            simp [← same, checked] at hk'
  apply h.moved rfl
  · simp [checked]
  · simp
  · intro word hword
    simpa [zero] using hword.symm
  · exact fun k' hk' => h.alone k' k i hk' item
  · exact place

theorem WorkOk.store {q : WorkQueue κ ι} (h : WorkOk q) {k : κ} {i : ι} {word : UInt32}
    (loaded : q.submitter k = .loaded i word) :
    WorkOk ((q.setSubmitter k (.sending i)).setPending i
      (word ||| workItemIsPendingBitMask)) := by
  have item : (q.submitter k).item = some i := by simp [loaded, Submitter.item]
  have place := h.apart k i item
  obtain rfl := h.loadedClear k i word loaded
  have one : (0 : UInt32) ||| workItemIsPendingBitMask = 1 := rfl
  rw [one]
  refine ⟨h.once, h.taken, ?alone, ?apart, ?queuedSet, ?takenSet, ?sendingSet, ?clear,
    ?loadedClear, h.loadedSet⟩
  case alone =>
    intro k₁ k₂ j h₁ h₂
    have others := h.alone k₁ k₂ j
    rw [(setPending_frame _ _ _).2.1, submitter_setSubmitter] at h₁ h₂
    grind [Submitter.item, h.alone]
  case apart =>
    intro k' j hj
    have others := h.apart k' j
    rw [(setPending_frame _ _ _).2.1, submitter_setSubmitter] at hj
    grind [setSubmitter_frame, setPending_frame, Submitter.item]
  case queuedSet =>
    intro j hj
    have others := h.queuedSet j hj
    grind [isPending_setPending, setSubmitter_frame]
  case takenSet =>
    intro j hj
    have others := h.takenSet j hj
    grind [isPending_setPending, setSubmitter_frame]
  case sendingSet =>
    intro k' j hj
    have others := h.sendingSet k' j
    rw [(setPending_frame _ _ _).2.1, submitter_setSubmitter] at hj
    grind [isPending_setPending, setSubmitter_frame]
  case clear =>
    intro j hj
    rw [isPending_setPending] at hj
    by_cases own : j = i
    · subst own
      exact .inr (.inr ⟨k, by simp [setPending_frame, submitter_setSubmitter]⟩)
    · rw [if_neg own] at hj
      exact h.clear_setSubmitter _ (by simp [loaded]) hj
  case loadedClear =>
    intro k' j w hj
    have others := h.loadedClear k' j w
    rw [(setPending_frame _ _ _).2.1, submitter_setSubmitter] at hj
    grind

omit [DecidableEq ι] in
theorem WorkOk.send {q : WorkQueue κ ι} (h : WorkOk q) {k : κ} {i : ι}
    (sending : q.submitter k = .sending i) :
    WorkOk { q.setSubmitter k .idle with queue := q.queue ++ [i] } := by
  have item : (q.submitter k).item = some i := by simp [sending, Submitter.item]
  have place := h.apart k i item
  refine ⟨?once, ?taken, ?alone, ?apart, ?queuedSet, h.takenSet, ?sendingSet, ?clear,
    ?loadedClear, h.loadedSet⟩
  case once => exact List.nodup_append.mpr ⟨h.once, by simp, by grind⟩
  case taken =>
    intro j hj
    have others := h.taken j hj
    have ne : j ≠ i := fun same => place.2 (same ▸ hj)
    simp [others, ne]
  case alone =>
    intro k₁ k₂ j h₁ h₂
    have others := h.alone k₁ k₂ j
    simp only [submitter_setSubmitter] at h₁ h₂
    grind [Submitter.item]
  case apart =>
    intro k' j hj
    have others := h.apart k' j
    have own := h.alone k' k j
    simp only [submitter_setSubmitter] at hj
    grind [setSubmitter_frame, Submitter.item]
  case queuedSet =>
    intro j hj
    have others := h.queuedSet j
    have own := h.sendingSet k i sending
    simp only [List.mem_append, List.mem_singleton] at hj
    grind [setSubmitter_frame]
  case sendingSet =>
    intro k' j hj
    have others := h.sendingSet k' j
    simp only [submitter_setSubmitter] at hj
    grind [setSubmitter_frame]
  case clear =>
    intro j hj
    simp only [List.mem_append, List.mem_singleton, submitter_setSubmitter]
    cases h.clear j hj with
    | inl queued => exact .inl (.inl queued)
    | inr rest =>
        cases rest with
        | inl flagged => exact .inr (.inl flagged)
        | inr sending' =>
            obtain ⟨k', hk'⟩ := sending'
            by_cases own : k' = k
            · subst own
              exact .inl (.inr (Submitter.sending.inj (hk'.symm.trans sending)))
            · exact .inr (.inr ⟨k', by rwa [if_neg own]⟩)
  case loadedClear =>
    intro k' j w hj
    have others := h.loadedClear k' j w
    simp only [submitter_setSubmitter] at hj
    grind

omit [DecidableEq κ] [DecidableEq ι] in
theorem WorkOk.receive {q : WorkQueue κ ι} (h : WorkOk q) {i : ι} {is : List ι}
    (receiving : q.worker = .receiving) (queue : q.queue = i :: is) :
    WorkOk { q with queue := is, worker := .received i } := by
  have once := h.once
  have none : q.worker.flagged = none := by simp [receiving, Worker.flagged]
  rw [queue, List.nodup_cons] at once
  refine ⟨once.2, ?taken, h.alone, ?apart, ?queuedSet, ?takenSet, h.sendingSet, ?clear,
    h.loadedClear, ?loadedSet⟩
  case taken =>
    intro j hj
    obtain rfl : i = j := by simpa [Worker.flagged] using hj
    exact once.1
  case apart =>
    intro k' j hj
    have others := (h.apart k' j hj).1
    rw [queue, List.mem_cons, not_or] at others
    exact ⟨others.2, by simpa [Worker.flagged] using Ne.symm others.1⟩
  case queuedSet =>
    intro j hj
    exact h.queuedSet j (by rw [queue]; exact List.mem_cons_of_mem i hj)
  case takenSet =>
    intro j hj
    obtain rfl : i = j := by simpa [Worker.flagged] using hj
    exact h.queuedSet i (by simp [queue])
  case clear =>
    intro j hj
    have others := h.clear j hj
    rw [queue, List.mem_cons, none] at others
    grind [Worker.flagged]
  case loadedSet => simp

omit [DecidableEq κ] [DecidableEq ι] in
/-- A step of the worker that keeps the item it has taken. -/
theorem WorkOk.keeps {q : WorkQueue κ ι} (h : WorkOk q) {w : Worker ι}
    (flagged : w.flagged = q.worker.flagged) (one : ∀ i word, w = .loaded i word → word = 1) :
    WorkOk { q with worker := w } := by
  refine ⟨h.once, ?taken, h.alone, ?apart, h.queuedSet, ?takenSet, h.sendingSet, ?clear,
    h.loadedClear, one⟩
  case taken => exact fun i hi => h.taken i (flagged.symm.trans hi)
  case apart =>
    exact fun k i hi => ⟨(h.apart k i hi).1, fun hw => (h.apart k i hi).2 (flagged.symm.trans hw)⟩
  case takenSet => exact fun i hi => h.takenSet i (flagged.symm.trans hi)
  case clear =>
    intro i hi
    rw [show w.flagged = q.worker.flagged from flagged]
    exact h.clear i hi

omit [DecidableEq κ] in
theorem WorkOk.toggle {q : WorkQueue κ ι} (h : WorkOk q) {i : ι} {word : UInt32}
    (loaded : q.worker = .loaded i word) :
    WorkOk { q.setPending i (word ^^^ workItemIsPendingBitMask) with worker := .toggled i } := by
  obtain rfl := h.loadedSet i word loaded
  have zero : (1 : UInt32) ^^^ workItemIsPendingBitMask = 0 := rfl
  have taken : q.worker.flagged = some i := by simp [loaded, Worker.flagged]
  have notQueued := h.taken i taken
  have notSubmitted (k : κ) : (q.submitter k).item ≠ some i := fun hk => (h.apart k i hk).2 taken
  rw [zero]
  refine ⟨h.once, ?taken, h.alone, ?apart, ?queuedSet, ?takenSet, ?sendingSet, ?clear,
    h.loadedClear, ?loadedSet⟩
  case taken => simp [Worker.flagged]
  case apart => exact fun k j hj => ⟨(h.apart k j hj).1, by simp [Worker.flagged]⟩
  case queuedSet =>
    intro j hj
    have others := h.queuedSet j hj
    have ne : j ≠ i := fun same => notQueued (same ▸ hj)
    simp only [isPending_setPending, if_neg ne, others]
  case takenSet => simp [Worker.flagged]
  case sendingSet =>
    intro k j hj
    have others := h.sendingSet k j hj
    have ne : j ≠ i := by
      rintro rfl
      exact notSubmitted k (by simp [show q.submitter k = _ from hj, Submitter.item])
    simp only [isPending_setPending, if_neg ne, others]
  case clear =>
    intro j hj
    simp only [isPending_setPending] at hj
    by_cases own : j = i
    · simp [own] at hj
    · rw [if_neg own] at hj
      have others := h.clear j hj
      rw [taken] at others
      cases others with
      | inl queued => exact .inl queued
      | inr rest =>
          cases rest with
          | inl same => exact absurd (Option.some.inj same).symm own
          | inr sending => exact .inr (.inr sending)
  case loadedSet => simp

omit [DecidableEq ι] in
theorem WorkOk.request {q : WorkQueue κ ι} (h : WorkOk q) {k : κ} {i : ι}
    (free : q.submitter k = .idle → kWorkIsPending q i = false →
      ∀ k', (q.submitter k').item ≠ some i) : WorkOk (requestWork q k i) := by
  unfold requestWork
  cases idle : q.submitter k with
  | idle =>
      cases pending : kWorkIsPending q i with
      | true => exact h
      | false => exact h.checked idle (free idle pending) pending
  | checked | loaded | sending => exact h

theorem WorkOk.submit {q : WorkQueue κ ι} (h : WorkOk q) (k : κ) :
    WorkOk (kWorkSubmitToQueue q k).2 := by
  unfold kWorkSubmitToQueue
  cases here : q.submitter k with
  | idle => exact h
  | checked i => exact h.load here
  | loaded i word => exact h.store here
  | sending i =>
      dsimp only
      split
      · exact h.send here
      · exact h

omit [DecidableEq κ] in
theorem WorkOk.work {q : WorkQueue κ ι} (h : WorkOk q) : WorkOk (workTask q).2 := by
  unfold workTask
  cases here : q.worker with
  | receiving =>
      cases queue : q.queue with
      | nil => exact h
      | cons i is => exact h.receive here queue
  | received i =>
      have set := h.takenSet i (by simp [here, Worker.flagged])
      apply h.keeps
      · simp [here, Worker.flagged]
      · intro j word hw
        exact (Worker.loaded.inj hw).2.symm.trans set
  | loaded i word => exact h.toggle here
  | toggled i => exact h.keeps (by simp [here, Worker.flagged]) (by simp)
  | handling i => exact h.keeps (by simp [here, Worker.flagged]) (by simp)

/-- The item whose handler is still to be called. -/
def Worker.unhandled : Worker ι → Option ι
  | .received i | .loaded i _ | .toggled i => some i
  | .receiving | .handling _ => none

def WorkEvent.submission : WorkEvent ι → Option ι
  | .submitted i => some i
  | .dequeued _ | .handled _ => none

def WorkEvent.removal : WorkEvent ι → Option ι
  | .dequeued i => some i
  | .submitted _ | .handled _ => none

def WorkEvent.handling : WorkEvent ι → Option ι
  | .handled i => some i
  | .submitted _ | .dequeued _ => none

/-- What has been submitted has been taken out or is in the queue, in this order, and
what has been taken out has been handled or is about to be. -/
structure InOrder (log : List (WorkEvent ι)) (q : WorkQueue κ ι) : Prop where
  dequeued : log.filterMap WorkEvent.submission = log.filterMap WorkEvent.removal ++ q.queue
  handled : log.filterMap WorkEvent.removal =
    log.filterMap WorkEvent.handling ++ q.worker.unhandled.toList

omit [DecidableEq κ] [DecidableEq ι] in
theorem InOrder.init : InOrder [] (WorkQueue.init κ ι) := ⟨rfl, rfl⟩

omit [DecidableEq ι] in
theorem InOrder.request {log : List (WorkEvent ι)} {q : WorkQueue κ ι} (h : InOrder log q)
    (k : κ) (i : ι) : InOrder log (requestWork q k i) := by
  unfold requestWork
  cases q.submitter k with
  | idle =>
      dsimp only
      split
      · exact h
      · exact ⟨h.dequeued, h.handled⟩
  | checked | loaded | sending => exact h

theorem InOrder.submit {log : List (WorkEvent ι)} {q : WorkQueue κ ι} (h : InOrder log q)
    (k : κ) : InOrder (log ++ (kWorkSubmitToQueue q k).1) (kWorkSubmitToQueue q k).2 := by
  have quiet {r : WorkQueue κ ι} (queue : r.queue = q.queue) (worker : r.worker = q.worker) :
      InOrder (log ++ []) r := by
    rw [List.append_nil]
    exact ⟨by rw [queue]; exact h.dequeued, by rw [worker]; exact h.handled⟩
  unfold kWorkSubmitToQueue
  cases q.submitter k with
  | idle => exact quiet rfl rfl
  | checked i => exact quiet rfl rfl
  | loaded i word => exact quiet rfl rfl
  | sending i =>
      dsimp only
      split
      · have dequeued := h.dequeued
        have handled := h.handled
        constructor
        · simp [List.filterMap_cons, WorkEvent.submission, WorkEvent.removal, dequeued]
        · simpa [List.filterMap_cons, WorkEvent.handling, WorkEvent.removal,
            setSubmitter_frame] using handled
      · exact quiet rfl rfl

omit [DecidableEq κ] in
theorem InOrder.work {log : List (WorkEvent ι)} {q : WorkQueue κ ι} (h : InOrder log q) :
    InOrder (log ++ (workTask q).1) (workTask q).2 := by
  have dequeued := h.dequeued
  have handled := h.handled
  unfold workTask
  cases here : q.worker with
  | receiving =>
      rw [here] at handled
      cases queue : q.queue with
      | nil => simpa using h
      | cons i is =>
          rw [queue] at dequeued
          constructor
          · simpa [List.filterMap_cons, WorkEvent.submission, WorkEvent.removal] using dequeued
          · simpa [List.filterMap_cons, WorkEvent.handling, WorkEvent.removal, Worker.unhandled] using handled
  | received i | loaded i word | handling i =>
      rw [here] at handled
      constructor
      · simpa [setPending_frame] using dequeued
      · simpa [Worker.unhandled] using handled
  | toggled i =>
      rw [here] at handled
      constructor
      · simpa [List.filterMap_cons, WorkEvent.submission, WorkEvent.removal] using dequeued
      · simpa [List.filterMap_cons, WorkEvent.handling, WorkEvent.removal, Worker.unhandled] using handled

/-- Each task submits items of its own only. -/
def Owned (owner : ι → κ) (q : WorkQueue κ ι) : Prop :=
  ∀ k i, (q.submitter k).item = some i → owner i = k

omit [DecidableEq ι] in
theorem Owned.setSubmitter {owner : ι → κ} {q : WorkQueue κ ι} (h : Owned owner q) {k : κ}
    {r : Submitter ι} (own : ∀ i, r.item = some i → owner i = k) :
    Owned owner (q.setSubmitter k r) := by
  intro k' i item
  rw [submitter_setSubmitter] at item
  split at item
  · rename_i same
    rw [same]
    exact own i item
  · exact h k' i item

omit [DecidableEq ι] in
theorem Owned.request {owner : ι → κ} {q : WorkQueue κ ι} (h : Owned owner q) {k : κ} {i : ι}
    (own : owner i = k) : Owned owner (requestWork q k i) := by
  unfold requestWork
  cases q.submitter k with
  | idle =>
      dsimp only
      split
      · exact h
      · apply h.setSubmitter
        intro j hj
        obtain rfl : i = j := by simpa [Submitter.item] using hj
        exact own
  | checked | loaded | sending => exact h

theorem Owned.submit {owner : ι → κ} {q : WorkQueue κ ι} (h : Owned owner q) (k : κ) :
    Owned owner (kWorkSubmitToQueue q k).2 := by
  have own := h k
  unfold kWorkSubmitToQueue
  cases here : q.submitter k with
  | idle => exact h
  | checked i | loaded i word =>
      rw [here] at own
      exact h.setSubmitter own
  | sending i =>
      dsimp only
      split
      · exact h.setSubmitter (by simp [Submitter.item])
      · exact h

omit [DecidableEq κ] in
theorem Owned.work {owner : ι → κ} {q : WorkQueue κ ι} (h : Owned owner q) :
    Owned owner (workTask q).2 := by
  have same : (workTask q).2.submitter = q.submitter := by
    unfold workTask
    cases q.worker with
    | receiving => cases q.queue <;> rfl
    | received i | loaded i word | toggled i | handling i => rfl
  intro k i item
  exact h k i (by rwa [same] at item)

/-- All that is claimed of the flag, in one state and the log of the run to it. -/
structure PendingFlagSound (log : List (WorkEvent ι)) (q : WorkQueue κ ι) : Prop where
  once : q.queue.Nodup
  flagged : ∀ i, i ∈ q.queue ∨ q.worker.flagged = some i → kWorkIsPending q i = true
  clears : ∀ i word, q.worker = .loaded i word →
    q.isPending i = word ∧ word &&& workItemIsPendingBitMask ≠ 0 ∧
      (word ^^^ workItemIsPendingBitMask) &&& workItemIsPendingBitMask = 0
  apart : ∀ i k, q.worker.flagged = some i → (q.submitter k).item ≠ some i
  inOrder : InOrder log q

omit [DecidableEq κ] [DecidableEq ι] in
theorem WorkOk.sound {log : List (WorkEvent ι)} {q : WorkQueue κ ι} (h : WorkOk q)
    (inOrder : InOrder log q) : PendingFlagSound log q where
  once := h.once
  flagged i hi := by
    have set : q.isPending i = 1 := hi.elim (h.queuedSet i) (h.takenSet i)
    simp [kWorkIsPending, set, workItemIsPendingBitMask]
  clears i word loaded := by
    have set := h.takenSet i (by simp [loaded, Worker.flagged])
    obtain rfl := h.loadedSet i word loaded
    exact ⟨set, by decide, by decide⟩
  apart i k taken item := (h.apart k i item).2 taken
  inOrder := inOrder

/-- The pending flag does its work as long as each item has one task that submits it. -/
theorem pending_flag_sound (owner : ι → κ) (as : List (WorkStep κ ι)) (log : List (WorkEvent ι))
    (q : WorkQueue κ ι) (single : ∀ k i, WorkStep.request k i ∈ as → owner i = k)
    (run : (workQueue κ ι).Reaches (WorkQueue.init κ ι) as log q) : PendingFlagSound log q := by
  have along : (workQueue κ ι).Along
      (fun _ _ a => ∀ k i, a = WorkStep.request k i → owner i = k) [] (WorkQueue.init κ ι) as :=
    Machine.Along.of_forall (by
      intro a ha k i same
      exact single k i (same ▸ ha)) [] _
  have kept := @Machine.Reaches.invariant_along _ _ _ (workQueue κ ι) _
    (fun _ log q => WorkOk q ∧ Owned owner q ∧ InOrder log q)
    (fun _ log q a out t inv own step => by
      obtain ⟨ok, owned, inOrder⟩ := inv
      cases a with
      | request k i =>
          obtain ⟨rfl, rfl⟩ := goesOn_inj step
          have mine := own k i rfl
          refine ⟨ok.request fun idle _ k' hk' => ?_, owned.request mine, ?_⟩
          · have same : k' = k := (owned k' i hk').symm.trans mine
            simp [same, idle, Submitter.item] at hk'
          · rw [List.append_nil]
            exact inOrder.request k i
      | submit k =>
          obtain ⟨rfl, rfl⟩ := goesOn_inj step
          exact ⟨ok.submit k, owned.submit k, inOrder.submit k⟩
      | work =>
          obtain ⟨rfl, rfl⟩ := goesOn_inj step
          exact ⟨ok.work, owned.work, inOrder.work⟩)
    _ _ [] as [] log ⟨WorkOk.init, by simp [Owned, WorkQueue.init, Submitter.item], InOrder.init⟩
    along run
  exact kept.1.sound kept.2.2

/-- Two items of two tasks; the first is submitted, taken and submitted again while its
handler still runs. -/
theorem pending_flag_sound_two_items :
    ∃ log q, (workQueue Bool Bool).Reaches (WorkQueue.init Bool Bool)
      [.request true true, .submit true, .submit true, .request false false, .submit true,
        .submit false, .work, .work, .submit false, .submit false, .work, .work,
        .request true true, .submit true, .submit true, .submit true] log q ∧
      PendingFlagSound log q := by
  have run := (workQueue Bool Bool).reaches_of_isSome (WorkQueue.init Bool Bool)
    [.request true true, .submit true, .submit true, .request false false, .submit true,
      .submit false, .work, .work, .submit false, .submit false, .work, .work,
      .request true true, .submit true, .submit true, .submit true] rfl
  exact ⟨_, _, run, pending_flag_sound id _ _ _ (by simp) run⟩

end Zperf
