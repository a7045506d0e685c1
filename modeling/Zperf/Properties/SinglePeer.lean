import Zperf.Properties.StatsReplies

/-!
Runs in which one peer alone is active.

All its datagrams go to one slot, so the receiver is the `switch` on that slot,
datagram after datagram (`slotServer`), traps included.
-/

namespace Zperf

open Base

/-- The `switch` of `udp_received` on one slot. -/
def slotServer (hz : UInt64) (cb : Bool) : Machine Session Arrival Event where
  step := sessionReceived hz cb

theorem getSession_of_key {row : Row} (ok : RowOk row) {p : Peer} {i : Fin sessionMax}
    (hkey : (row i).key = some p) : (getSession row (some p)).1 = some i := by
  rcases getSession_cases row ok.settled p with ⟨j, grant, eq⟩ | ⟨refused, -⟩
  · rcases grant with hj | ⟨none, -⟩
    · rw [eq, ok.wellKeyed.unique i j p hkey hj]
    · exact absurd hkey (none i)
  · exact absurd hkey (refused.1 i)

theorem udpReceived_found (hz : UInt64) (cb : Bool) {row : Row} (ok : RowOk row) {d : Arrival}
    {p : Peer} {i : Fin sessionMax} (found : (getSession row (some p)).1 = some i)
    (own : d.sender = some p) :
    udpReceived hz cb row d =
      ((sessionReceived hz cb ((row i).assign (some p)) d).1,
        (sessionReceived hz cb ((row i).assign (some p)) d).2.map (Function.update row i)) := by
  obtain rfl := Arrival.addr_of_sender own
  rcases udpReceived_cases hz cb row ok.settled d with
    ⟨hd, -⟩ | ⟨-, -, refused, -⟩ | ⟨-, j, -, found', eq⟩
  · simp [Arrival.sender, hd] at own
  · simp [refused] at found
  · obtain rfl := Option.some.inj (found.symm.trans found')
    exact eq

theorem run_eq_slotServer {hz : UInt64} {cb : Bool} {row : Row} (ok : RowOk row) {p : Peer}
    {i : Fin sessionMax} (found : (getSession row (some p)).1 = some i) (d : Arrival)
    (ds : List Arrival) (own : ∀ e ∈ d :: ds, e.sender = some p) :
    (udpReceiver hz cb).run row (d :: ds) =
      (((slotServer hz cb).run ((row i).assign (some p)) (d :: ds)).1,
        ((slotServer hz cb).run ((row i).assign (some p)) (d :: ds)).2.map
          (Function.update row i)) := by
  induction ds generalizing row d with
  | nil =>
      have step := udpReceived_found hz cb ok found (own d List.mem_cons_self)
      simp only [Machine.run, udpReceiver, slotServer, step]
      rcases sessionReceived hz cb ((row i).assign (some p)) d with ⟨out, _ | s'⟩ <;> rfl
  | cons e ds ih =>
      have step := udpReceived_found hz cb ok found (own d List.mem_cons_self)
      rcases hs : sessionReceived hz cb ((row i).assign (some p)) d with ⟨out, _ | s'⟩
      · simp only [Machine.run, udpReceiver, slotServer, step, hs, Option.map_none]
      · rw [hs, Option.map_some] at step
        have kept : ((row i).assign (some p)).state ≠ .lastPacketReceived := by
          simpa using ok.settled i
        have key : s'.key = some p :=
          (sessionReceived_slotStep kept hs).key.trans (Session.key_assign _ _)
        have ok' : RowOk (Function.update row i s') := ok.step step
        have next := ih ok' (getSession_of_key ok' (by rwa [Function.update_self])) e
          (fun e' he' => own e' (List.mem_cons_of_mem d he'))
        rw [Function.update_self, Session.assign_of_key _ _ key] at next
        have idem : Function.update (Function.update row i s') i = Function.update row i :=
          funext fun s => Function.update_idem _ _ _
        have here : (udpReceiver hz cb).step row d = (out, some (Function.update row i s')) := step
        have there : (slotServer hz cb).step ((row i).assign (some p)) d = (out, some s') := hs
        rw [Machine.run, here, Machine.run, there]
        simp only [next, idem]

theorem run_refused {hz : UInt64} {cb : Bool} {row : Row} (ok : RowOk row) {p : Peer}
    (refused : (getSession row (some p)).1 = none) (ds : List Arrival)
    (own : ∀ e ∈ ds, e.sender = some p) : (udpReceiver hz cb).run row ds = ([], some row) := by
  induction ds with
  | nil => rfl
  | cons d ds ih =>
      obtain rfl := Arrival.addr_of_sender (own d List.mem_cons_self)
      have step : (udpReceiver hz cb).step row d = ([], some row) := by
        rcases udpReceived_cases hz cb row ok.settled d with
          ⟨-, eq⟩ | ⟨-, -, -, eq⟩ | ⟨-, j, -, found, -⟩
        · exact eq
        · exact eq
        · simp [refused] at found
      rw [Machine.run, step]
      simp only [ih fun e he => own e (List.mem_cons_of_mem d he), List.nil_append]

end Zperf
