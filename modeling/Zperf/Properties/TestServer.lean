import Zperf.Core.UdpTest
import Zperf.Properties.StatsBlock
import Zperf.Properties.UdpSession

/-!
What the server of a test keeps, and what its replies carry.

A property of open sessions and a property of statistics blocks go together: sessions keep
the one, a session that ends gives a block with the other, and every reply carries a block.
The reply to an end datagram is sent before the division, so it is there after a trap too.
-/

namespace Zperf

open Base

/-- A slot whose open session has statistics of the one kind, and its block is of the other. -/
structure SlotFits (S : Stats → Prop) (B : ServerHdr → Prop) (s : Session) : Prop where
  session : ∀ st, s.open? = some st → S st
  block : B s.stat

def SlotsFit (S : Stats → Prop) (B : ServerHdr → Prop) (row : Row) : Prop :=
  ∀ i, SlotFits S B (row i)

/-- The reply that a datagram is answered with, if it carries a block of the right kind. -/
def RepliesFit (B : ServerHdr → Prop) (d : Arrival) (out : List Event) : Prop :=
  ∀ addr reply, Event.sendto addr reply ∈ out → ∃ hdr stat,
    hdr.length = sizeofUdpDatagram ∧ B stat ∧ reply = buildReply hdr stat ∧ addr = d.addr

/-- What a datagram may do to the two properties; the block of a session that ends may rest
on what is seen of the call. -/
structure ServerRule (hz : UInt64) (cb : Bool) (S S' : Stats → Prop) (B B' : ServerHdr → Prop)
    (d : Arrival) (out : List Event) (trapped : Prop) : Prop where
  session : ∀ st, S st → S' st
  block : ∀ b, B b → B' b
  start : d.isEnd = false → S' (openStats d)
  next : ∀ st, S st → d.isEnd = false → S' (dataStats hz st d)
  close : ∀ st, S st → d.isEnd = true →
    (∃ results, st.results hz d = some results ∧ callSessionCb cb (.finished results) ⊆ out) ∨
      (st.counter = 0 ∧ trapped) → B' (st.block hz d)

theorem bootRow_fits {S : Stats → Prop} {B : ServerHdr → Prop} (zero : B .zero) :
    SlotsFit S B bootRow := by
  refine fun i => ⟨fun st h => ?_, zero⟩
  simp [bootRow, zperfSessionInit, zperfResetSessionStats, Session.open?] at h

theorem RepliesFit.of_callback {B : ServerHdr → Prop} {d : Arrival} (cb : Bool)
    (status : Status) : RepliesFit B d (callSessionCb cb status) := by
  intro addr reply sent
  cases cb <;> simp [callSessionCb] at sent

theorem RepliesFit.cons_reply {B : ServerHdr → Prop} {d : Arrival} (long : d.short = false)
    {stat : ServerHdr} (fits : B stat) {out : List Event} (rest : RepliesFit B d out) :
    RepliesFit B d
      (zperfReceiverSendStat d.addr (d.data.take sizeofUdpDatagram) stat :: out) := by
  intro addr reply sent
  rcases List.mem_cons.mp sent with here | later
  · obtain ⟨rfl, rfl⟩ := Event.sendto.inj here
    exact ⟨_, stat, length_take_header long, fits, rfl, rfl⟩
  · exact rest addr reply later

theorem RepliesFit.nil {B : ServerHdr → Prop} {d : Arrival} : RepliesFit B d [] := by
  intro addr reply sent
  cases sent

section Rule

variable {hz : UInt64} {cb : Bool} {S S' : Stats → Prop} {B B' : ServerHdr → Prop}

theorem SlotFits.assign {s : Session} (fits : SlotFits S B s) (addr : SockAddr) :
    SlotFits S B (s.assign addr) where
  session st h := fits.session st (by rwa [Session.open_assign] at h)
  block := by
    rw [Session.stat_assign]
    exact fits.block

theorem ServerRule.slot {d : Arrival} {out : List Event} {trapped : Prop}
    (rule : ServerRule hz cb S S' B B' d out trapped) {s : Session} (fits : SlotFits S B s) :
    SlotFits S' B' s :=
  ⟨fun st h => rule.session st (fits.session st h), rule.block _ fits.block⟩

theorem SlotsFit.update {row : Row} (fits : SlotsFit S B row) {i : Fin sessionMax} {s : Session}
    (slot : SlotFits S B s) : SlotsFit S B (Function.update row i s) := by
  intro j
  by_cases here : j = i
  · rwa [here, Function.update_self]
  · rw [Function.update_of_ne here]
    exact fits j

/-- What the `switch` does with one slot, traps included. -/
theorem sessionReceived_fits {s : Session} {d : Arrival} (settled : s.state ≠ .lastPacketReceived)
    (long : d.short = false) (fits : SlotFits S B s)
    (rule : ServerRule hz cb S S' B B' d (sessionReceived hz cb s d).1
      ((sessionReceived hz cb s d).2 = none)) :
    RepliesFit B' d (sessionReceived hz cb s d).1 ∧
      ∀ s', (sessionReceived hz cb s d).2 = some s' → SlotFits S' B' s' := by
  rcases sessionReceived_cases hz cb s d settled with
    ⟨idle, -, eq⟩ | ⟨-, data, eq⟩ | ⟨busy, data, eq⟩ | ⟨busy, isEnd, eq⟩
  · rw [eq]
    refine ⟨RepliesFit.nil.cons_reply long (rule.block _ fits.block), fun s' next => ?_⟩
    obtain rfl := Option.some.inj next
    exact rule.slot fits
  · rw [eq]
    refine ⟨.of_callback cb .started, fun s' next => ?_⟩
    obtain rfl := Option.some.inj next
    refine ⟨fun st h => ?_, rule.block _ fits.block⟩
    obtain rfl := Option.some.inj ((open_startSession s d).symm.trans h)
    exact rule.start data
  · rw [eq]
    refine ⟨RepliesFit.nil, fun s' next => ?_⟩
    obtain rfl := Option.some.inj next
    have ongoing : s.open? = some s.stats := Session.open_eq_some.mpr ⟨busy, rfl⟩
    refine ⟨fun st h => ?_, ?_⟩
    · obtain rfl := Option.some.inj ((open_countData hz ongoing d).symm.trans h)
      exact rule.next _ (fits.session _ ongoing) data
    · rw [stat_countData]
      exact rule.block _ fits.block
  · have session := fits.session _ (Session.open_eq_some.mpr ⟨busy, rfl⟩)
    have same : s.stats = s.stats.slot.stats := rfl
    have duration := sessionDuration_congr same hz d.tick
    have block : fillStat s (sessionDuration hz s d.tick) = s.stats.block hz d := by
      rw [fillStat_congr same, duration]
      rfl
    rcases finishSession_eq hz cb s d with ⟨zero, trap⟩ | ⟨-, results, divided, fin⟩
    · have whole := eq.trans trap
      have closes := rule.close _ session isEnd (.inr ⟨zero, by rw [whole]⟩)
      rw [whole, block]
      exact ⟨RepliesFit.nil.cons_reply long closes, fun s' next => by cases next⟩
    · have whole := eq.trans fin
      rw [finishResults_congr same, duration] at divided
      have closes := rule.close _ session isEnd
        (.inl ⟨results, divided, by rw [whole]; exact List.subset_cons_self _ _⟩)
      rw [whole, block]
      refine ⟨(RepliesFit.of_callback _ _).cons_reply long closes, fun s' next => ?_⟩
      obtain rfl := Option.some.inj next
      refine ⟨fun st h => ?_, closes⟩
      rw [open_completeSession] at h
      cases h

/-- What the receiver does with one datagram, traps included. -/
theorem udpReceived_fits {row : Row} {d : Arrival} (ok : RowOk row) (fits : SlotsFit S B row)
    (rule : ServerRule hz cb S S' B B' d (udpReceived hz cb row d).1
      ((udpReceived hz cb row d).2 = none)) :
    RepliesFit B' d (udpReceived hz cb row d).1 ∧
      ∀ row', (udpReceived hz cb row d).2 = some row' → RowOk row' ∧ SlotsFit S' B' row' := by
  rcases udpReceived_cases hz cb row ok.settled d with
    ⟨-, eq⟩ | ⟨-, -, -, eq⟩ | ⟨long, i, -, -, eq⟩
  · rw [eq]
    refine ⟨RepliesFit.nil, fun row' next => ?_⟩
    obtain rfl := Option.some.inj next
    exact ⟨ok, fun i => rule.slot (fits i)⟩
  · rw [eq]
    refine ⟨RepliesFit.nil, fun row' next => ?_⟩
    obtain rfl := Option.some.inj next
    exact ⟨ok, fun i => rule.slot (fits i)⟩
  · rw [eq] at rule
    simp only [Option.map_eq_none_iff] at rule
    obtain ⟨replies, slot⟩ := sessionReceived_fits (by simpa using ok.settled i) long
      ((fits i).assign (some d.addr)) rule
    refine ⟨by rwa [eq], fun row' next => ⟨ok.step (Prod.ext rfl next), ?_⟩⟩
    rw [eq] at next
    obtain ⟨s', after, rfl⟩ := Option.map_eq_some_iff.mp next
    exact SlotsFit.update (fun i => rule.slot (fits i)) (slot s' after)

end Rule

end Zperf
