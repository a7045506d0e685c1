import Zperf.Properties.UdpSession

/-!
Whose statistics block a peer is sent.

A slot keeps its block when it is handed to another peer, so what an end datagram
without a session is answered with depends on the slot. `ownServer` is the
purpose: a server that knows one peer only. The receiver answers a peer as its
own server does while no recycled slot answers an end datagram of that peer.
-/

namespace Zperf

open Base

/-- The statistics block of a reply to `p`. -/
def Event.blockTo (p : Peer) : Event → Option (List UInt8)
  | .sendto addr reply => if addr = p then some (reply.drop sizeofUdpDatagram) else none
  | .sessionCb _ => none

def blocksTo (p : Peer) (out : List Event) : List (List UInt8) :=
  out.filterMap (Event.blockTo p)

/-- A server's view of one peer: its session and the block of its last completed one. -/
structure OwnState where
  session : Option Stats
  last : Option ServerHdr

/-- The block that answers an end datagram. -/
def OwnState.reply (hz : UInt64) (o : OwnState) (d : Arrival) : ServerHdr :=
  o.session.elim (o.last.getD .zero) fun st => st.block hz d

def OwnState.next (hz : UInt64) (o : OwnState) (d : Arrival) : OwnState where
  session := (udpDiscipline hz).advance d o.session
  last := if d.isEnd = true ∧ o.session.isSome then some (o.reply hz d) else o.last

/-- A server for one peer alone. -/
def ownServer (hz : UInt64) : Machine OwnState Arrival (List UInt8) where
  step o d := (if d.isEnd then [(o.reply hz d).bytes] else [], some (o.next hz d))

def ownDatagrams (p : Peer) (ds : List Arrival) : List Arrival :=
  ds.filter fun d => d.sender = some p

/-- What the datagrams of `p` alone come to. -/
def ownState (hz : UInt64) (p : Peer) (ds : List Arrival) : OwnState :=
  (ownDatagrams p ds).foldl (OwnState.next hz) ⟨none, none⟩

def ownBlocks (hz : UInt64) (p : Peer) (ds : List Arrival) : List (List UInt8) :=
  ((ownServer hz).run ⟨none, none⟩ (ownDatagrams p ds)).1

/-- A datagram of `p` obtains a slot. -/
def Served (p : Peer) (_ : List Arrival) (row : Row) (d : Arrival) : Prop :=
  d.sender = some p → (getSession row (some p)).1 ≠ none

/-- The first slot that is not ongoing was never used. -/
def UnusedNext (row : Row) : Prop :=
  ∃ i, (row i).state = .null ∧ ∀ j < i, (row j).state = .ongoing

/-- An end datagram of `p` comes when a slot has the key of `p`, or, as long as `p`
has completed no session, when the next slot was never used. -/
def BlockKept (hz : UInt64) (p : Peer) (past : List Arrival) (row : Row) (d : Arrival) : Prop :=
  d.sender = some p → d.isEnd = true →
    (∃ i, (row i).key = some p) ∨ (ownState hz p past).last = none ∧ UnusedNext row

instance (p : Peer) (past : List Arrival) (row : Row) (d : Arrival) :
    Decidable (Served p past row d) :=
  inferInstanceAs (Decidable (_ → _))

instance (row : Row) : Decidable (UnusedNext row) :=
  inferInstanceAs (Decidable (∃ _, _ ∧ _))

instance (hz : UInt64) (p : Peer) (past : List Arrival) (row : Row) (d : Arrival) :
    Decidable (BlockKept hz p past row d) :=
  inferInstanceAs (Decidable (_ → _ → _ ∨ _))

/-- Two runs that differ only in the datagrams of other peers send `p` the same
blocks, its own, if both give it a slot each time. -/
def LeakFree (hz : UInt64) (cb : Bool) (p : Peer) (ds ds' : List Arrival) : Prop :=
  ∀ out row out' row', (udpReceiver hz cb).Reaches bootRow ds out row →
    (udpReceiver hz cb).Reaches bootRow ds' out' row' →
    (ds.filter fun d => d.addr = p) = (ds'.filter fun d => d.addr = p) →
    (udpReceiver hz cb).Along (Served p) [] bootRow ds →
    (udpReceiver hz cb).Along (Served p) [] bootRow ds' →
    blocksTo p out = blocksTo p out' ∧ blocksTo p out = ownBlocks hz p ds

/-- The receiver's row as the peer's own server sees it. -/
structure OwnView (o : OwnState) (p : Peer) (row : Row) : Prop where
  session : ∀ st, sessionReading.Holds row p st ↔ o.session = some st
  block : ∀ i, (row i).key = some p → (row i).open? = none →
    (row i).stat = o.last.getD .zero

/-- A slot that no session has completed in has no block yet. -/
def NullBlank (row : Row) : Prop := ∀ i, (row i).state = .null → (row i).stat = .zero

theorem blocksTo_append (p : Peer) (out out' : List Event) :
    blocksTo p (out ++ out') = blocksTo p out ++ blocksTo p out' :=
  List.filterMap_append

theorem blocksTo_callSessionCb (p : Peer) (cb : Bool) (status : Status) :
    blocksTo p (callSessionCb cb status) = [] := by
  cases cb <;> rfl

theorem blocksTo_reply_other {p addr : Peer} (h : addr ≠ p) (hdr : List UInt8)
    (stat : ServerHdr) (out : List Event) :
    blocksTo p (zperfReceiverSendStat addr hdr stat :: out) = blocksTo p out := by
  simp [blocksTo, zperfReceiverSendStat, Event.blockTo, h]

theorem blocksTo_reply (p : Peer) {data : List UInt8} (long : sizeofUdpDatagram ≤ data.length)
    (stat : ServerHdr) (out : List Event) :
    blocksTo p (zperfReceiverSendStat p (data.take sizeofUdpDatagram) stat :: out) =
      stat.bytes :: blocksTo p out := by
  have drop : (buildReply (data.take sizeofUdpDatagram) stat).drop sizeofUdpDatagram =
      stat.bytes := by
    rw [buildReply, List.drop_append_of_le_length (by rw [List.length_take]; omega),
      List.drop_eq_nil_of_le (by rw [List.length_take]; omega), List.nil_append]
  simp [blocksTo, zperfReceiverSendStat, Event.blockTo, drop]

theorem NullBlank.step {hz : UInt64} {cb : Bool} {row row' : Row} {d : Arrival}
    {out : List Event} (blank : NullBlank row) (settled : Settled row)
    (h : udpReceived hz cb row d = (out, some row')) : NullBlank row' := by
  rcases udpReceived_eq_some settled h with
    ⟨-, rfl, -⟩ | ⟨i, s', -, -, -, slot, rfl⟩
  · exact blank
  · intro j hj
    by_cases here : j = i
    · subst here
      rw [Function.update_self] at hj ⊢
      cases slot with
      | resend => simpa using blank j (by simpa using hj)
      | start => simp [startSession] at hj
      | count st ongoing =>
          rw [state_countData, (Session.open_eq_some.mp ongoing).1] at hj
          simp at hj
      | finish => simp [completeSession] at hj
    · rw [Function.update_of_ne here] at hj ⊢
      exact blank j hj

theorem OwnView.other {hz : UInt64} {cb : Bool} {o : OwnState} {p : Peer} {row row' : Row}
    {d : Arrival} {out : List Event} (view : OwnView o p row) (ok : RowOk row)
    (h : udpReceived hz cb row d = (out, some row')) (other : d.sender ≠ some p) :
    blocksTo p out = [] ∧ OwnView o p row' := by
  rcases udpReceived_eq_some ok.settled h with
    ⟨rfl, rfl, -⟩ | ⟨i, s', sender, grant, -, slot, rfl⟩
  · exact ⟨rfl, view⟩
  · have ne : d.addr ≠ p := by
      rintro rfl
      exact other sender
    have key : s'.key = some d.addr := slot.key.trans (Session.key_assign _ _)
    refine ⟨?_, fun st => ?_, fun j hkey closed => ?_⟩
    · cases slot with
      | resend => exact blocksTo_reply_other ne _ _ []
      | start => exact blocksTo_callSessionCb p cb _
      | count => rfl
      | finish => rw [blocksTo_reply_other ne, blocksTo_callSessionCb]
    · rw [← view.session st]
      exact grant.holds_update_ne key ne.symm st
    · have away : j ≠ i := by
        rintro rfl
        rw [Function.update_self, key] at hkey
        exact ne (Option.some.inj hkey)
      rw [Function.update_of_ne away] at hkey closed ⊢
      exact view.block j hkey closed

/-- The block in the slot that an end datagram without a session is granted. -/
theorem OwnView.block_granted {o : OwnState} {p : Peer} {row : Row} {i : Fin sessionMax}
    (view : OwnView o p row) (blank : NullBlank row) (grant : sessionReading.Grants row p i)
    (found : (getSession row (some p)).1 = some i) (closed : (row i).open? = none)
    (kept : (∃ j, (row j).key = some p) ∨ o.last = none ∧ UnusedNext row) :
    (row i).stat = o.last.getD .zero := by
  cases grant with
  | inl key => exact view.block i key closed
  | inr missing =>
      obtain ⟨none, -⟩ := missing
      cases kept with
      | inl held =>
          obtain ⟨j, key⟩ := held
          exact absurd key (none j)
      | inr unused =>
          obtain ⟨noLast, j, null, before⟩ := unused
          have first := getSession_first_free row p none j
            (by simp [Session.isFree, null]) (fun k hk => by simp [Session.isFree, before k hk])
          obtain rfl := Option.some.inj (found.symm.trans first)
          rw [blank i null, noLast]
          rfl

theorem OwnView.own {hz : UInt64} {cb : Bool} {o : OwnState} {p : Peer} {row row' : Row}
    {d : Arrival} {out : List Event} (view : OwnView o p row) (ok : RowOk row)
    (blank : NullBlank row) (h : udpReceived hz cb row d = (out, some row'))
    (sender : d.sender = some p) (served : (getSession row (some p)).1 ≠ none)
    (kept : d.isEnd = true →
      (∃ i, (row i).key = some p) ∨ o.last = none ∧ UnusedNext row) :
    blocksTo p out = (if d.isEnd then [(o.reply hz d).bytes] else []) ∧
      OwnView (o.next hz d) p row' := by
  obtain rfl := Arrival.addr_of_sender sender
  rcases udpReceived_eq_some ok.settled h with
    ⟨-, -, nobody | ⟨-, -, refused⟩⟩ | ⟨i, s', -, grant, found, slot, rfl⟩
  · simp [nobody] at sender
  · exact absurd refused served
  · have long := Arrival.long_of_sender sender
    have key : s'.key = some d.addr := slot.key.trans (Session.key_assign _ _)
    have same : (row i).open? = o.session :=
      Option.ext fun st => (grant.holds_iff ok.wellKeyed st).symm.trans (view.session st)
    have advance := slot.open_advance
    have only (j : Fin sessionMax)
        (hj : (Function.update row i s' j).key = some d.addr) : j = i := by
      by_contra away
      rw [Function.update_of_ne away] at hj
      rcases grant with hi | ⟨none, -⟩
      · exact away (ok.wellKeyed.unique j i d.addr hj hi)
      · exact none j hj
    rw [Session.open_assign, same] at advance
    have session (st : Stats) :
        sessionReading.Holds (Function.update row i s') d.addr st ↔
          (o.next hz d).session = some st := by
      rw [grant.holds_update_self ok.wellKeyed key]
      exact (Eq.congr_left advance)
    suffices answer : blocksTo d.addr out = (if d.isEnd then [(o.reply hz d).bytes] else []) ∧
        (s'.open? = none → s'.stat = (o.next hz d).last.getD .zero) by
      refine ⟨answer.1, session, fun j hj closed => ?_⟩
      obtain rfl := only j hj
      rw [Function.update_self] at closed ⊢
      exact answer.2 closed
    cases slot with
    | resend closed isEnd =>
        rw [Session.open_assign, same] at closed
        have block := view.block_granted blank grant found (same.trans closed) (kept isEnd)
        have reply : o.reply hz d = (row i).stat := by
          rw [OwnState.reply, closed, block]
          rfl
        refine ⟨?_, fun _ => ?_⟩
        · rw [blocksTo_reply d.addr long, isEnd, reply, Session.stat_assign]
          rfl
        · rw [Session.stat_assign, block, OwnState.next, closed]
          simp
    | start closed data =>
        refine ⟨by rw [blocksTo_callSessionCb, data]; rfl, fun now => ?_⟩
        simp at now
    | count st ongoing data =>
        refine ⟨by rw [data]; rfl, fun now => ?_⟩
        rw [open_countData hz ongoing] at now
        simp at now
    | finish st results ongoing isEnd =>
        rw [Session.open_assign, same] at ongoing
        have reply : o.reply hz d = st.block hz d := by
          rw [OwnState.reply, ongoing]
          rfl
        refine ⟨?_, fun _ => ?_⟩
        · rw [blocksTo_reply d.addr long, isEnd, reply, blocksTo_callSessionCb]
          rfl
        · rw [OwnState.next, ongoing, reply]
          simp [isEnd, completeSession]

/-- Everything that is known after a run in which `p` was served as its own server
would have. -/
structure OwnServed (hz : UInt64) (p : Peer) (past : List Arrival) (emitted : List Event)
    (row : Row) : Prop where
  ok : RowOk row
  blank : NullBlank row
  answered : (ownServer hz).Reaches ⟨none, none⟩ (ownDatagrams p past) (blocksTo p emitted)
    (ownState hz p past)
  view : OwnView (ownState hz p past) p row

theorem OwnServed.boot (hz : UInt64) (p : Peer) : OwnServed hz p [] [] bootRow where
  ok := bootRow_ok
  blank := fun i _ => by
    simp [bootRow, zperfSessionInit, zperfResetSessionStats, Session.zero]
  answered := ((ownServer hz).reaches_nil _ _ _).mpr ⟨rfl, rfl⟩
  view :=
    { session := fun st => by
        rw [← bootRow_refines p st, AList.lookup_empty]
        rfl
      block := fun i hkey _ => by
        simp [bootRow, zperfSessionInit, zperfResetSessionStats, Session.zero,
          Session.key] at hkey }

theorem ownDatagrams_append (p : Peer) (ds : List Arrival) (d : Arrival) :
    ownDatagrams p (ds ++ [d]) = ownDatagrams p ds ++ if d.sender = some p then [d] else [] := by
  by_cases h : d.sender = some p <;> simp [ownDatagrams, h]

theorem OwnServed.step {hz : UInt64} {cb : Bool} {p : Peer} {past : List Arrival}
    {emitted out : List Event} {row row' : Row} {d : Arrival}
    (before : OwnServed hz p past emitted row)
    (cond : Served p past row d ∧ BlockKept hz p past row d)
    (h : udpReceived hz cb row d = (out, some row')) :
    OwnServed hz p (past ++ [d]) (emitted ++ out) row' := by
  have ok' := before.ok.step h
  have blank' := before.blank.step before.ok.settled h
  by_cases sender : d.sender = some p
  · obtain ⟨answer, view⟩ := before.view.own before.ok before.blank h sender
      (cond.1 sender) (cond.2 sender)
    have own : ownDatagrams p (past ++ [d]) = ownDatagrams p past ++ [d] := by
      rw [ownDatagrams_append, if_pos sender]
    have state : ownState hz p (past ++ [d]) = (ownState hz p past).next hz d := by
      rw [ownState, own, List.foldl_append]
      rfl
    refine ⟨ok', blank', ?_, by rwa [state]⟩
    rw [own, state, blocksTo_append, answer]
    exact before.answered.append (Machine.Reaches.single rfl)
  · obtain ⟨silent, view⟩ := before.view.other before.ok h sender
    have own : ownDatagrams p (past ++ [d]) = ownDatagrams p past := by
      rw [ownDatagrams_append, if_neg sender, List.append_nil]
    have state : ownState hz p (past ++ [d]) = ownState hz p past := by
      rw [ownState, own, ownState]
    refine ⟨ok', blank', ?_, by rwa [state]⟩
    rw [own, state, blocksTo_append, silent, List.append_nil]
    exact before.answered

/-- The receiver's blocks for `p` are those of a server for `p` alone. -/
theorem blocksTo_eq_ownBlocks {hz : UInt64} {cb : Bool} {p : Peer} {ds : List Arrival}
    {out : List Event} {row : Row} (run : (udpReceiver hz cb).Reaches bootRow ds out row)
    (served : (udpReceiver hz cb).Along (Served p) [] bootRow ds)
    (kept : (udpReceiver hz cb).Along (BlockKept hz p) [] bootRow ds) :
    blocksTo p out = ownBlocks hz p ds := by
  have all := run.invariant_along (OwnServed hz p)
    (fun _ _ _ _ _ _ before cond h => before.step cond h) (OwnServed.boot hz p)
    (served.and kept)
  exact (congrArg Prod.fst (show (ownServer hz).run _ _ = _ from all.answered)).symm

theorem ownDatagrams_eq_filter (p : Peer) (ds : List Arrival) :
    ownDatagrams p ds = ownDatagrams p (ds.filter fun d => d.addr = p) := by
  rw [ownDatagrams, ownDatagrams, List.filter_filter]
  refine List.filter_congr fun d _ => ?_
  by_cases hd : d.sender = some p
  · simp [hd, Arrival.addr_of_sender hd]
  · simp [hd]

/-- No leak between peers, in runs that never answer an end datagram of `p` from a
slot that was another peer's. -/
theorem stats_replies_leak_free (hz : UInt64) (cb : Bool) (p : Peer) (ds ds' : List Arrival)
    (kept : (udpReceiver hz cb).Along (BlockKept hz p) [] bootRow ds)
    (kept' : (udpReceiver hz cb).Along (BlockKept hz p) [] bootRow ds') :
    LeakFree hz cb p ds ds' := by
  intro out row out' row' run run' same served served'
  have own := blocksTo_eq_ownBlocks run served kept
  have own' := blocksTo_eq_ownBlocks run' served' kept'
  have equal : ownBlocks hz p ds = ownBlocks hz p ds' := by
    rw [ownBlocks, ownBlocks, ownDatagrams_eq_filter p ds, ownDatagrams_eq_filter p ds', same]
  exact ⟨own.trans (equal.trans own'.symm), own⟩

/-- Another peer's completed session leaks to a peer that sends an end datagram only. -/
theorem recycled_slot_leaks :
    ¬ LeakFree 1000 true (.inet 6000 0x0A000002)
      [⟨.inet 6001 0x0A000003, (UdpDatagram.mk 0 0 0).bytes, 5⟩,
        ⟨.inet 6001 0x0A000003, (UdpDatagram.mk 1 0 0).bytes, 6⟩,
        ⟨.inet 6001 0x0A000003, (UdpDatagram.mk (-2) 0 0).bytes, 7⟩,
        ⟨.inet 6000 0x0A000002, (UdpDatagram.mk (-1) 0 0).bytes, 8⟩]
      [⟨.inet 6000 0x0A000002, (UdpDatagram.mk (-1) 0 0).bytes, 8⟩] := by
  intro free
  let m := udpReceiver 1000 true
  obtain ⟨equal, -⟩ := free _ _ _ _ (m.reaches_of_isSome _ _ (by decide +kernel))
    (m.reaches_of_isSome _ _ (by decide +kernel)) (by decide +kernel) (by decide +kernel)
    (by decide +kernel)
  exact absurd equal (by decide +kernel)

/-- Two runs in which another peer does and does not take part. -/
theorem stats_replies_leak_free_two_runs :
    let data (port : UInt16) (id : Int32) (tick : UInt32) : Arrival :=
      ⟨.inet port 0x0A000002, (UdpDatagram.mk id 0 0).bytes, tick⟩
    let m := udpReceiver 1000 true
    let p : Peer := .inet 6000 0x0A000002
    blocksTo p (m.run bootRow [data 6000 0 5, data 6001 0 6, data 6000 1 7, data 6000 (-2) 8]).1 =
      blocksTo p (m.run bootRow [data 6000 0 5, data 6000 1 7, data 6000 (-2) 8]).1 := by
  intro data m p
  exact (stats_replies_leak_free 1000 true p _ _ (by decide +kernel) (by decide +kernel) _ _ _ _
    (m.reaches_of_isSome _ _ (by decide +kernel)) (m.reaches_of_isSome _ _ (by decide +kernel))
    (by decide +kernel) (by decide +kernel) (by decide +kernel)).1

end Zperf
