import Zperf.Core.UdpReceiver
import Zperf.Properties.SessionTable

/-!
What one datagram does to the slot it is given, said once.

`SlotStep` lists everything the `switch` can do short of a trap, and
`sessionReceived_eq_none_iff` says when it traps. Apart from its slot a session
is what `udpDiscipline` makes of its own peer's datagrams.
-/

namespace Zperf

open Base

/-- A slot that is ongoing with the given statistics. -/
def Stats.slot (st : Stats) : Session :=
  { Session.zero with
    state := .ongoing
    counter := st.counter
    nextId := st.nextId
    outorder := st.outorder
    error := st.error
    length := st.length
    startTime := st.startTime
    jitter := st.jitter
    lastTransitTime := st.lastTransitTime }

/-- Whose session a datagram is for. -/
def Arrival.sender (d : Arrival) : Option Peer :=
  if d.short then none else some d.addr

/-- The statistics of a session that a datagram has just opened. -/
def openStats (d : Arrival) : Stats := (startSession .zero d).stats

/-- The statistics after one more data datagram. -/
def dataStats (hz : UInt64) (st : Stats) (d : Arrival) : Stats :=
  (countData hz st.slot d).stats

/-- The rules of one UDP session: data opens and continues it, an end datagram
closes it and opens none, a short datagram is nobody's. -/
def udpDiscipline (hz : UInt64) : Discipline Peer Arrival Stats where
  peer d := d.sender
  closes := Arrival.isEnd
  start := openStats
  next := dataStats hz

theorem udpDiscipline_peer_eq_none (hz : UInt64) (d : Arrival) :
    (udpDiscipline hz).peer d = none ↔ d.short = true := by
  simp [udpDiscipline, Arrival.sender]

theorem udpDiscipline_peer_of_not_short (hz : UInt64) {d : Arrival} (h : d.short = false) :
    (udpDiscipline hz).peer d = some d.addr := by
  simp [udpDiscipline, Arrival.sender, h]

namespace Session

theorem open_eq_some {s : Session} {st : Stats} :
    s.open? = some st ↔ s.state = .ongoing ∧ s.stats = st := by
  simp [open?]

theorem open_eq_none {s : Session} : s.open? = none ↔ s.state ≠ .ongoing := by
  simp [open?]

end Session

@[simp] theorem key_startSession (s : Session) (d : Arrival) :
    (startSession s d).key = s.key := rfl

@[simp] theorem open_startSession (s : Session) (d : Arrival) :
    (startSession s d).open? = some (openStats d) := rfl

@[simp] theorem stat_startSession (s : Session) (d : Arrival) :
    (startSession s d).stat = s.stat := rfl

@[simp] theorem key_completeSession (s : Session) (stat : ServerHdr) :
    (completeSession s stat).key = s.key := rfl

@[simp] theorem open_completeSession (s : Session) (stat : ServerHdr) :
    (completeSession s stat).open? = none := rfl

@[simp] theorem state_completeSession (s : Session) (stat : ServerHdr) :
    (completeSession s stat).state = .completed := rfl

theorem checkId_frame (s : Session) (id : Int32) :
    (checkId s id).key = s.key ∧ (checkId s id).state = s.state ∧
      (checkId s id).stat = s.stat := by
  unfold checkId
  split
  · split <;> exact ⟨rfl, rfl, rfl⟩
  · exact ⟨rfl, rfl, rfl⟩

@[simp] theorem key_countData (hz : UInt64) (s : Session) (d : Arrival) :
    (countData hz s d).key = s.key := (checkId_frame _ _).1

@[simp] theorem state_countData (hz : UInt64) (s : Session) (d : Arrival) :
    (countData hz s d).state = s.state := (checkId_frame _ _).2.1

@[simp] theorem stat_countData (hz : UInt64) (s : Session) (d : Arrival) :
    (countData hz s d).stat = s.stat := (checkId_frame _ _).2.2

theorem stats_checkId_congr {s s' : Session} (h : s.stats = s'.stats) (id : Int32) :
    (checkId s id).stats = (checkId s' id).stats := by
  simp only [Session.stats, Stats.mk.injEq] at h
  obtain ⟨h₁, h₂, h₃, h₄, h₅, h₆, h₇, h₈⟩ := h
  unfold checkId
  rw [h₂]
  split
  · split <;> simp only [Session.stats, h₁, h₃, h₄, h₅, h₆, h₇, h₈]
  · simp only [Session.stats, h₁, h₃, h₄, h₅, h₆, h₇, h₈]

theorem stats_recordTransit_congr {s s' : Session} (h : s.stats = s'.stats) (t : Int32) :
    (recordTransit s t).stats = (recordTransit s' t).stats := by
  simp only [Session.stats, Stats.mk.injEq] at h
  obtain ⟨h₁, h₂, h₃, h₄, h₅, h₆, h₇, h₈⟩ := h
  simp only [recordTransit, updateJitter, Session.stats, h₁, h₂, h₃, h₄, h₅, h₆, h₇, h₈]

theorem stats_updateCounter_congr {s s' : Session} (h : s.stats = s'.stats) (n : Nat) :
    (updateCounter s n).stats = (updateCounter s' n).stats := by
  simp only [Session.stats, Stats.mk.injEq] at h
  obtain ⟨h₁, h₂, h₃, h₄, h₅, h₆, h₇, h₈⟩ := h
  simp only [updateCounter, Session.stats, h₁, h₂, h₃, h₄, h₅, h₆, h₇, h₈]

theorem stats_countData (hz : UInt64) (s : Session) (d : Arrival) :
    (countData hz s d).stats = dataStats hz s.stats d := by
  have same : s.stats = s.stats.slot.stats := rfl
  exact stats_checkId_congr (stats_recordTransit_congr (stats_updateCounter_congr same _) _) _

theorem open_countData (hz : UInt64) {s : Session} {st : Stats} (h : s.open? = some st)
    (d : Arrival) : (countData hz s d).open? = some (dataStats hz st d) := by
  obtain ⟨hs, rfl⟩ := Session.open_eq_some.mp h
  exact Session.open_eq_some.mpr ⟨(state_countData hz s d).trans hs, stats_countData hz s d⟩

theorem sessionReceived_cases (hz : UInt64) (cb : Bool) (s : Session) (d : Arrival)
    (settled : s.state ≠ .lastPacketReceived) :
    (s.state ≠ .ongoing ∧ d.isEnd = true ∧ sessionReceived hz cb s d =
      ([zperfReceiverSendStat d.addr (d.data.take sizeofUdpDatagram) s.stat], some s)) ∨
    (s.state ≠ .ongoing ∧ d.isEnd = false ∧ sessionReceived hz cb s d =
      (callSessionCb cb .started, some (startSession s d))) ∨
    (s.state = .ongoing ∧ d.isEnd = false ∧
      sessionReceived hz cb s d = ([], some (countData hz s d))) ∨
    (s.state = .ongoing ∧ d.isEnd = true ∧
      sessionReceived hz cb s d = finishSession hz cb s d) := by
  cases hs : s.state <;> cases he : d.isEnd <;>
    simp_all [sessionReceived]

/-- The end datagram of an ongoing session: the block is sent in any case, and
the session is over unless its counter is zero. -/
theorem finishSession_eq (hz : UInt64) (cb : Bool) (s : Session) (d : Arrival) :
    (s.counter = 0 ∧ finishSession hz cb s d =
      ([zperfReceiverSendStat d.addr (d.data.take sizeofUdpDatagram)
        (fillStat s (sessionDuration hz s d.tick))], none)) ∨
    (s.counter ≠ 0 ∧ ∃ results,
      finishResults s (sessionDuration hz s d.tick) = some results ∧
      finishSession hz cb s d =
        (zperfReceiverSendStat d.addr (d.data.take sizeofUdpDatagram)
          (fillStat s (sessionDuration hz s d.tick)) ::
            callSessionCb cb (.finished results),
          some (completeSession s (fillStat s (sessionDuration hz s d.tick))))) := by
  by_cases hc : s.counter = 0
  · left
    simp [finishSession, finishResults, hc]
  · right
    simp [finishSession, finishResults, hc]

theorem fillStat_congr {s s' : Session} (h : s.stats = s'.stats) (duration : UInt32) :
    fillStat s duration = fillStat s' duration := by
  simp only [Session.stats, Stats.mk.injEq] at h
  obtain ⟨h₁, h₂, h₃, h₄, h₅, h₆, h₇, h₈⟩ := h
  simp only [fillStat, h₁, h₃, h₄, h₅, h₇]

theorem finishResults_congr {s s' : Session} (h : s.stats = s'.stats) (duration : UInt32) :
    finishResults s duration = finishResults s' duration := by
  simp only [Session.stats, Stats.mk.injEq] at h
  obtain ⟨h₁, h₂, h₃, h₄, h₅, h₆, h₇, h₈⟩ := h
  simp only [finishResults, h₁, h₃, h₄, h₅, h₇]

theorem sessionDuration_congr {s s' : Session} (h : s.stats = s'.stats) (hz : UInt64)
    (tick : UInt32) : sessionDuration hz s tick = sessionDuration hz s' tick := by
  simp only [Session.stats, Stats.mk.injEq] at h
  simp only [sessionDuration, h.2.2.2.2.2.1]

/-- The block and the results of a session with statistics `st` that `d` ends. -/
def Stats.duration (hz : UInt64) (st : Stats) (d : Arrival) : UInt32 :=
  sessionDuration hz st.slot d.tick

def Stats.block (hz : UInt64) (st : Stats) (d : Arrival) : ServerHdr :=
  fillStat st.slot (st.duration hz d)

def Stats.results (hz : UInt64) (st : Stats) (d : Arrival) : Option Results :=
  finishResults st.slot (st.duration hz d)

/-- What one datagram that is not too short does to the slot that was found, with
the key written in it. -/
inductive SlotStep (hz : UInt64) (cb : Bool) (s : Session) (d : Arrival) :
    List Event → Session → Prop where
  | resend (closed : s.open? = none) (isEnd : d.isEnd = true) :
      SlotStep hz cb s d
        [zperfReceiverSendStat d.addr (d.data.take sizeofUdpDatagram) s.stat] s
  | start (closed : s.open? = none) (data : d.isEnd = false) :
      SlotStep hz cb s d (callSessionCb cb .started) (startSession s d)
  | count (st : Stats) (ongoing : s.open? = some st) (data : d.isEnd = false) :
      SlotStep hz cb s d [] (countData hz s d)
  | finish (st : Stats) (results : Results) (ongoing : s.open? = some st)
      (isEnd : d.isEnd = true) (divided : st.results hz d = some results) :
      SlotStep hz cb s d
        (zperfReceiverSendStat d.addr (d.data.take sizeofUdpDatagram) (st.block hz d) ::
          callSessionCb cb (.finished results))
        (completeSession s (st.block hz d))

theorem sessionReceived_slotStep {hz : UInt64} {cb : Bool} {s s' : Session} {d : Arrival}
    {out : List Event} (settled : s.state ≠ .lastPacketReceived)
    (h : sessionReceived hz cb s d = (out, some s')) : SlotStep hz cb s d out s' := by
  rcases sessionReceived_cases hz cb s d settled with
    ⟨hs, he, eq⟩ | ⟨hs, he, eq⟩ | ⟨hs, he, eq⟩ | ⟨hs, he, eq⟩
  · obtain ⟨rfl, rfl⟩ := goesOn_inj (eq.symm.trans h)
    exact .resend (Session.open_eq_none.mpr hs) he
  · obtain ⟨rfl, rfl⟩ := goesOn_inj (eq.symm.trans h)
    exact .start (Session.open_eq_none.mpr hs) he
  · obtain ⟨rfl, rfl⟩ := goesOn_inj (eq.symm.trans h)
    exact .count s.stats (Session.open_eq_some.mpr ⟨hs, rfl⟩) he
  · rw [eq] at h
    rcases finishSession_eq hz cb s d with ⟨-, trap⟩ | ⟨-, results, divided, fin⟩
    · simp [trap] at h
    · have same : s.stats = s.stats.slot.stats := rfl
      have duration := sessionDuration_congr same hz d.tick
      rw [fin] at h
      obtain ⟨rfl, rfl⟩ := goesOn_inj h
      rw [fillStat_congr same, duration]
      rw [finishResults_congr same, duration] at divided
      exact .finish s.stats results (Session.open_eq_some.mpr ⟨hs, rfl⟩) he divided

namespace SlotStep

variable {hz : UInt64} {cb : Bool} {s s' : Session} {d : Arrival} {out : List Event}

theorem key (h : SlotStep hz cb s d out s') : s'.key = s.key := by
  cases h with
  | resend => rfl
  | start => exact key_startSession s d
  | count => exact key_countData hz s d
  | finish st => exact key_completeSession s _

theorem settled (h : SlotStep hz cb s d out s') (before : s.state ≠ .lastPacketReceived) :
    s'.state ≠ .lastPacketReceived := by
  cases h with
  | resend => exact before
  | start => simp [startSession]
  | count st ongoing =>
      rw [state_countData]
      exact before
  | finish => simp [completeSession]

theorem open_advance (h : SlotStep hz cb s d out s') :
    s'.open? = (udpDiscipline hz).advance d s.open? := by
  cases h with
  | resend closed isEnd => rw [(udpDiscipline hz).advance_closes isEnd, closed]
  | start closed data =>
      rw [closed, (udpDiscipline hz).advance_start data, open_startSession]
      rfl
  | count st ongoing data =>
      rw [open_countData hz ongoing, ongoing, (udpDiscipline hz).advance_next data]
      rfl
  | finish st results ongoing isEnd =>
      rw [open_completeSession, (udpDiscipline hz).advance_closes isEnd]

end SlotStep

/-- The `switch` traps on the end datagram of a session with a zero counter only. -/
theorem sessionReceived_eq_none_iff (hz : UInt64) (cb : Bool) (s : Session) (d : Arrival)
    (settled : s.state ≠ .lastPacketReceived) :
    (sessionReceived hz cb s d).2 = none ↔
      d.isEnd = true ∧ ∃ st, s.open? = some st ∧ st.counter = 0 := by
  rcases sessionReceived_cases hz cb s d settled with
    ⟨hs, he, eq⟩ | ⟨hs, he, eq⟩ | ⟨hs, he, eq⟩ | ⟨hs, he, eq⟩
  · simp [eq, Session.open_eq_none.mpr hs]
  · simp [eq, he]
  · simp [eq, he]
  · have was : s.open? = some s.stats := Session.open_eq_some.mpr ⟨hs, rfl⟩
    have counter : s.stats.counter = s.counter := rfl
    rw [eq]
    rcases finishSession_eq hz cb s d with ⟨hc, trap⟩ | ⟨hc, results, -, fin⟩
    · simp [trap, he, was, counter, hc]
    · simp [fin, was, counter, hc]

end Zperf
