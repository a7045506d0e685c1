import Zperf.Base.Switchboard
import Zperf.Core.TcpReceiver
import Zperf.Properties.UdpSession

/-!
The session callbacks against the session table.

Each slot is a switch: `ZPERF_SESSION_STARTED` turns it on and
`ZPERF_SESSION_FINISHED` off, whoever owns it. A call of either receiver uses at most
one switch.
-/

namespace Zperf

open Base

/-- Which of the two callbacks an event is, if any. -/
def Event.toggle : Event → Option Bool
  | .sessionCb .started => some true
  | .sessionCb (.finished _) => some false
  | _ => none

def toggles (out : List Event) : List Bool := out.filterMap Event.toggle

/-- The callbacks among the labelled events of a run. -/
def callbackLog (calls : List (Option (Fin sessionMax) × Event)) :
    List (Fin sessionMax × Bool) :=
  calls.filterMap fun e => e.1.bind fun i => e.2.toggle.map fun k => (i, k)

def ongoing (row : Row) (i : Fin sessionMax) : Bool := (row i).state = .ongoing

/-- The slot that a call is about. -/
def udpSlot (row : Row) (d : Arrival) : Option (Fin sessionMax) :=
  if d.short then none else (getSession row (some d.addr)).1

def tcpSlot (row : Row) (d : TcpArrival) : Option (Fin sessionMax) :=
  (getSession row d.addr).1

/-- As many sessions have started and not finished as there are ongoing slots; in each
slot the two callbacks alternate, and start with the former. -/
structure CallbacksBalanced (row : Row) (calls : List (Option (Fin sessionMax) × Event)) :
    Prop where
  count : (calls.filterMap fun e => e.2.toggle).count true =
    (calls.filterMap fun e => e.2.toggle).count false +
      (Finset.univ.filter fun i => (row i).state = .ongoing).card
  atMost : (Finset.univ.filter fun i => (row i).state = .ongoing).card ≤ sessionMax
  alternate : ∀ i, switchRun false (switchLog i (callbackLog calls)) = some (ongoing row i)

/-- What a call does to the table, in terms of the callbacks it makes. -/
inductive CallStep (row : Row) (out : List Event) (row' : Row) :
    Option (Fin sessionMax) → Prop where
  | quiet (silent : toggles out = []) (same : ongoing row' = ongoing row) :
      CallStep row out row' none
  | slot (i : Fin sessionMax)
      (switched : Switched (ongoing row) (ongoing row') i (toggles out)) :
      CallStep row out row' (some i)

theorem switchesOn_ongoing (row : Row) :
    switchesOn (ongoing row) = (Finset.univ.filter fun i => (row i).state = .ongoing).card := by
  rw [switchesOn, Finset.card_filter]
  apply Finset.sum_congr rfl
  intro i _
  unfold ongoing
  split <;> simp_all

theorem callbackLog_append (calls calls' : List (Option (Fin sessionMax) × Event)) :
    callbackLog (calls ++ calls') = callbackLog calls ++ callbackLog calls' :=
  List.filterMap_append

theorem callbackLog_slot (i : Fin sessionMax) (out : List Event) :
    callbackLog (out.map fun e => (some i, e)) = (toggles out).map fun k => (i, k) := by
  rw [callbackLog, toggles, List.filterMap_map, List.map_filterMap]
  rfl

theorem callbackLog_none (out : List Event) :
    callbackLog (out.map fun e => (none, e)) = [] := by
  simp [callbackLog]

theorem toggles_labelled (label : Option (Fin sessionMax)) (out : List Event) :
    ((out.map fun e => (label, e)).filterMap fun e => e.2.toggle) = toggles out := by
  rw [List.filterMap_map]
  rfl

/-- The log of a run tells the table, and no callback is missing from it. -/
structure LogKept (row : Row) (calls : List (Option (Fin sessionMax) × Event)) : Prop where
  tells : LogTells (ongoing row) (callbackLog calls)
  whole : (callbackLog calls).map Prod.snd = calls.filterMap fun e => e.2.toggle

theorem LogKept.step {row row' : Row} {calls : List (Option (Fin sessionMax) × Event)}
    {label : Option (Fin sessionMax)} {out : List Event} (h : LogKept row calls)
    (step : CallStep row out row' label) :
    LogKept row' (calls ++ out.map fun e => (label, e)) := by
  have before := h.whole
  cases step with
  | quiet silent same =>
      refine ⟨?_, ?_⟩
      · rw [callbackLog_append, callbackLog_none, List.append_nil, same]
        exact h.tells
      · rw [callbackLog_append, callbackLog_none, List.append_nil, List.filterMap_append,
          toggles_labelled, silent, List.append_nil, before]
  | slot i switched =>
      refine ⟨?_, ?_⟩
      · rw [callbackLog_append, callbackLog_slot]
        exact h.tells.switched switched
      · rw [callbackLog_append, callbackLog_slot, List.map_append, List.filterMap_append,
          toggles_labelled, before, List.map_map]
        exact congrArg _ (List.map_id (toggles out))

theorem LogKept.balanced {row : Row} {calls : List (Option (Fin sessionMax) × Event)}
    (h : LogKept row calls) : CallbacksBalanced row calls := by
  have count := h.tells.count
  have atMost := switchesOn_le (ongoing row)
  rw [switchesOn_ongoing] at count atMost
  rw [h.whole] at count
  exact ⟨count, by simpa using atMost, h.tells.each⟩

theorem LogKept.boot : LogKept bootRow [] where
  tells := LogTells.start fun _ => rfl
  whole := rfl

/-- The balance of any machine on the table whose steps are such calls. -/
theorem balanced_of_callSteps {α : Type} {m : Machine Row α Event}
    {label : Row → α → Option (Fin sessionMax)} (Ok : Row → Prop) (boot : Ok bootRow)
    (step : ∀ row a out row', Ok row → m.step row a = (out, some row') →
      Ok row' ∧ CallStep row out row' (label row a))
    {as : List α} {calls : List (Option (Fin sessionMax) × Event)} {row : Row}
    (run : (m.labelled label).Reaches bootRow as calls row) : CallbacksBalanced row calls := by
  have kept := @Machine.Reaches.invariant _ _ _ (m.labelled label)
    (fun _ calls row => Ok row ∧ LogKept row calls)
    (fun _ calls row a out row' inv hstep => by
      obtain ⟨o, here, rfl⟩ := Machine.labelled_step hstep
      have next := step row a o row' inv.1 here
      exact ⟨next.1, inv.2.step next.2⟩)
    bootRow row [] as [] calls ⟨boot, LogKept.boot⟩ run
  exact kept.2.balanced

theorem toggles_started : toggles (callSessionCb true .started) = [true] := rfl

theorem toggles_finished (results : Results) :
    toggles (callSessionCb true (.finished results)) = [false] := rfl

theorem toggles_append (out out' : List Event) :
    toggles (out ++ out') = toggles out ++ toggles out' := List.filterMap_append

theorem toggles_reply (addr : Peer) (hdr : List UInt8) (stat : ServerHdr) (out : List Event) :
    toggles (zperfReceiverSendStat addr hdr stat :: out) = toggles out := rfl

theorem ongoing_eq_open (row : Row) (i : Fin sessionMax) :
    ongoing row i = (row i).open?.isSome := by
  unfold ongoing Session.open?
  split <;> simp_all

theorem ongoing_update (row : Row) (i : Fin sessionMax) (s : Session) :
    (∀ j, j ≠ i → ongoing (Function.update row i s) j = ongoing row j) ∧
      ongoing (Function.update row i s) i = s.open?.isSome := by
  refine ⟨fun j hj => ?_, ?_⟩
  · rw [ongoing, ongoing, Function.update_of_ne hj]
  · rw [ongoing_eq_open, Function.update_self]

theorem SlotStep.switchRun {hz : UInt64} {s s' : Session} {d : Arrival} {out : List Event}
    (h : SlotStep hz true s d out s') :
    Base.switchRun s.open?.isSome (toggles out) = some s'.open?.isSome := by
  cases h with
  | resend closed isEnd =>
      rw [toggles_reply, closed]
      simp [toggles]
  | start closed data => simp [closed, open_startSession, toggles_started, Base.switchRun]
  | count st ongoing data => simp [open_countData hz ongoing, ongoing, toggles]
  | finish st results ongoing isEnd =>
      simp [toggles_reply, ongoing, open_completeSession, toggles_finished, Base.switchRun]

theorem switched_update {row : Row} {i : Fin sessionMax} {s' : Session} {ks : List Bool}
    (own : switchRun (row i).open?.isSome ks = some s'.open?.isSome) :
    Switched (ongoing row) (ongoing (Function.update row i s')) i ks where
  others := (ongoing_update row i s').1
  own := by rw [(ongoing_update row i s').2, ongoing_eq_open, own]

theorem udpReceived_callStep {hz : UInt64} {row row' : Row} (ok : RowOk row) {d : Arrival}
    {out : List Event} (h : udpReceived hz true row d = (out, some row')) :
    CallStep row out row' (udpSlot row d) := by
  cases udpReceived_eq_some ok.settled h with
  | inl quiet =>
      obtain ⟨rfl, rfl, nobody⟩ := quiet
      have none : udpSlot row' d = none := by
        cases nobody with
        | inl short =>
            simp only [Arrival.sender, ite_eq_left_iff, reduceCtorEq, imp_false,
              Bool.not_eq_true, Bool.not_eq_false] at short
            simp [udpSlot, short]
        | inr refused => simp [udpSlot, refused.2.2]
      rw [none]
      exact .quiet rfl rfl
  | inr slot =>
      obtain ⟨i, s', sender, -, found, slot, rfl⟩ := slot
      have long : d.short = false := by
        cases hd : d.short with
        | false => rfl
        | true => simp [Arrival.sender, hd] at sender
      have own := slot.switchRun
      rw [Session.open_assign] at own
      rw [udpSlot, long, found]
      exact .slot i (switched_update own)

/-- `get_session` for any address changes no more than the key of the slot it finds. -/
theorem getSession_slot (row : Row) (addr : SockAddr) :
    getSession row addr = (none, row) ∨
      ∃ i, getSession row addr = (some i, row) ∨
        getSession row addr = (some i, Function.update row i ((row i).assign addr)) := by
  unfold getSession
  split
  · exact .inr ⟨_, .inl rfl⟩
  · exact .inr ⟨_, .inr rfl⟩
  · exact .inl rfl

theorem open_updateCounter (s : Session) (n : Nat) :
    (updateCounter s n).open?.isSome = s.open?.isSome := by
  have state : (updateCounter s n).state = s.state := rfl
  simp only [Session.open?, state]
  split <;> rfl

theorem tcpOngoing_switchRun (hz : UInt64) {s : Session} (d : TcpArrival)
    (ongoing : s.state = .ongoing) :
    switchRun true (toggles (tcpOngoing hz true s d).1) =
      some (tcpOngoing hz true s d).2.open?.isSome := by
  unfold tcpOngoing
  split
  · simp [toggles_finished, switchRun, Session.open?]
  · rw [open_updateCounter, Session.open_eq_some.mpr ⟨ongoing, rfl⟩]
    rfl

/-- The fall-through turns the switch of a slot on, and may turn it off again. -/
theorem tcpSessionReceived_switchRun (hz : UInt64) (s : Session) (d : TcpArrival) :
    switchRun s.open?.isSome (toggles (tcpSessionReceived hz true s d).1) =
      some (tcpSessionReceived hz true s d).2.open?.isSome := by
  have fresh := tcpOngoing_switchRun hz (s := startTcpSession s d) d rfl
  unfold tcpSessionReceived
  cases state : s.state with
  | completed | null =>
      have closed : s.open? = none := Session.open_eq_none.mpr (by simp [state])
      simp [closed, toggles_append, toggles_started, switchRun, fresh]
  | ongoing =>
      rw [Session.open_eq_some.mpr ⟨state, rfl⟩]
      exact tcpOngoing_switchRun hz d state
  | lastPacketReceived =>
      rw [Session.open_eq_none.mpr (by simp [state])]
      rfl

theorem tcpReceived_callStep (hz : UInt64) (row : Row) (d : TcpArrival) :
    CallStep row (tcpReceived hz true row d).1 (tcpReceived hz true row d).2
      (tcpSlot row d) := by
  unfold tcpReceived tcpSlot
  cases getSession_slot row d.addr with
  | inl refused =>
      rw [refused]
      exact .quiet rfl rfl
  | inr found =>
      obtain ⟨i, known | taken⟩ := found
      · rw [known]
        exact .slot i (switched_update (tcpSessionReceived_switchRun hz (row i) d))
      · rw [taken]
        have own := tcpSessionReceived_switchRun hz ((row i).assign d.addr) d
        rw [Session.open_assign] at own
        simp only [Function.update_self, Function.update_idem]
        exact .slot i (switched_update own)

/-- The callbacks of both receivers balance, whatever they receive and in whatever
order. -/
theorem callbacks_balanced (hz : UInt64) :
    (∀ ds calls row, ((udpReceiver hz true).labelled udpSlot).Reaches bootRow ds calls row →
      CallbacksBalanced row calls) ∧
    (∀ ds calls row, ((tcpReceiver hz true).labelled tcpSlot).Reaches bootRow ds calls row →
      CallbacksBalanced row calls) := by
  constructor
  · intro ds calls row run
    apply balanced_of_callSteps RowOk bootRow_ok _ run
    exact fun row d out row' ok step => ⟨ok.step step, udpReceived_callStep ok step⟩
  · intro ds calls row run
    apply balanced_of_callSteps (fun _ => True) trivial _ run
    intro row d out row' _ step
    obtain ⟨rfl, rfl⟩ := goesOn_inj step
    exact ⟨trivial, tcpReceived_callStep hz row d⟩

/-- A connection that is closed before it sent anything: its session starts and
finishes in one call. -/
theorem callbacks_balanced_empty_connection :
    ∃ calls row, ((tcpReceiver 1000 true).labelled tcpSlot).Reaches bootRow
      [⟨some (.inet 6000 0x0A000002), 0, 5, 5⟩] calls row ∧ CallbacksBalanced row calls := by
  have run := ((tcpReceiver 1000 true).labelled tcpSlot).reaches_of_isSome bootRow
    [⟨some (.inet 6000 0x0A000002), 0, 5, 5⟩] (by decide +kernel)
  exact ⟨_, _, run, (callbacks_balanced 1000).2 _ _ _ run⟩

end Zperf
