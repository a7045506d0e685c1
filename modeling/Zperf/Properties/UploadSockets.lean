import Zperf.Core.UploadSocket

/-!
The socket of an upload is closed before the upload returns.

`zperf_prepare_upload_sock` closes the socket it cannot connect, and its callers close
the one they are given. `zperf_tcp_upload` has one more way out, between the two.
-/

namespace Zperf

open Base

/-- The event as a lease of the descriptor. -/
def SocketEvent.lease : SocketEvent → Option (Int × LeaseAct SessionProto)
  | .socket fd proto => some (fd, .take proto)
  | .close fd => some (fd, .drop)
  | .setTos _ _ | .setNodelay _ _ | .connect _ _ => none

def socketLeases (log : List SocketEvent) : List (Int × LeaseAct SessionProto) :=
  log.filterMap SocketEvent.lease

/-- Every socket that was opened has been closed once. -/
def SocketsClosed (log : List SocketEvent) : Prop :=
  ∀ fd, leaseOf fd (socketLeases log) = some none

def zperfUpload (hz : UInt64) (pdMsToTicks : UInt32 → UInt32) (proto : SessionProto)
    (param : UploadParams) (calls : UploadCalls) (results : Results) :
    Option (Int × Results × List SocketEvent) :=
  match proto with
  | .udp => zperfUdpUpload hz param calls results
  | .tcp => zperfTcpUpload hz pdMsToTicks param calls results

/-- The connected socket of a TCP upload refuses the option `TCP_NODELAY`. -/
structure NodelayRefused (proto : SessionProto) (param : UploadParams) (calls : UploadCalls) :
    Prop where
  tcp : proto = .tcp
  family : param.peerAddr.isSome
  opened : calls.socket.toOption.isSome
  connected : calls.connect.toOption.isSome
  wanted : param.tcpNodelay ≠ 0
  refused : calls.nodelay ≠ 0

theorem socketLeases_append (log log' : List SocketEvent) :
    socketLeases (log ++ log') = socketLeases log ++ socketLeases log' :=
  List.filterMap_append

theorem socketLeases_tosEvents (peer : Peer) (tos : UInt8) (fd : Int) :
    socketLeases (tosEvents peer tos fd) = [] := by
  cases peer with
  | inet port addr =>
      simp only [tosEvents]
      split <;> rfl
  | inet6 port addr => rfl

theorem socketsClosed_nil : SocketsClosed [] := fun _ => rfl

theorem SocketsClosed.of_close {log : List SocketEvent} {fd : Int} {proto : SessionProto}
    (held : socketLeases log = [(fd, .take proto)]) : SocketsClosed (log ++ [.close fd]) := by
  intro fd'
  have both : socketLeases (log ++ [.close fd]) = [(fd, .take proto)] ++ [(fd, .drop)] := by
    rw [socketLeases_append, held]
    rfl
  rw [both]
  by_cases same : fd = fd'
  · subst same
    simp [leaseOf, actsOn, leaseRun]
  · simp [leaseOf, actsOn, leaseRun, same]

theorem not_socketsClosed {log : List SocketEvent} {fd : Int} {proto : SessionProto}
    (held : socketLeases log = [(fd, .take proto)]) : ¬ SocketsClosed log := by
  intro closed
  have own := closed fd
  rw [held] at own
  simp [leaseOf, actsOn, leaseRun] at own

/-- `zperf_prepare_upload_sock` fails with all closed, or hands over the one socket it has
opened. -/
theorem zperfPrepareUploadSock_cases (peerAddr : SockAddr) (tos : UInt8) (proto : SessionProto)
    (calls : UploadCalls) :
    ((zperfPrepareUploadSock peerAddr tos proto calls).1 < 0 ∧
        SocketsClosed (zperfPrepareUploadSock peerAddr tos proto calls).2 ∧
        ¬ (peerAddr.isSome ∧ calls.socket.toOption.isSome ∧ calls.connect.toOption.isSome)) ∨
      (0 ≤ (zperfPrepareUploadSock peerAddr tos proto calls).1 ∧
        socketLeases (zperfPrepareUploadSock peerAddr tos proto calls).2 =
          [((zperfPrepareUploadSock peerAddr tos proto calls).1, .take proto)] ∧
        peerAddr.isSome ∧ calls.socket.toOption.isSome ∧ calls.connect.toOption.isSome) := by
  have negative (errno : Errno) : -(errno : Int) < 0 := by
    have positive := errno.property
    omega
  have invalid : -einval < 0 := by decide
  unfold zperfPrepareUploadSock
  cases peerAddr with
  | none => exact .inl ⟨invalid, socketsClosed_nil, by simp⟩
  | some peer =>
      cases socket : calls.socket with
      | error errno =>
          exact .inl ⟨negative errno, socketsClosed_nil, by simp [Except.toOption]⟩
      | ok fd =>
          have opened : socketLeases (.socket fd proto :: (tosEvents peer tos fd ++
              [.connect fd peer])) = [((fd : Int), .take proto)] := by
            have tail : socketLeases (tosEvents peer tos fd ++ [.connect fd peer]) = [] := by
              rw [socketLeases_append, socketLeases_tosEvents]
              rfl
            have first : SocketEvent.lease (.socket fd proto) = some ((fd : Int), .take proto) := rfl
            unfold socketLeases at tail ⊢
            rw [List.filterMap_cons_some first, tail]
          cases connect : calls.connect with
          | error errno =>
              exact .inl ⟨negative errno, SocketsClosed.of_close opened,
                by simp [Except.toOption]⟩
          | ok _ => exact .inr ⟨fd.property, opened, by simp [Except.toOption]⟩

theorem zperfUdpUpload_closed {hz : UInt64} {param : UploadParams} {calls : UploadCalls}
    {before after : Results} {ret : Int} {log : List SocketEvent}
    (returned : zperfUdpUpload hz param calls before = some (ret, after, log)) :
    SocketsClosed log := by
  have prepared := zperfPrepareUploadSock_cases param.peerAddr param.tos .udp calls
  unfold zperfUdpUpload at returned
  cases family : param.peerAddr with
  | none =>
      simp only [family, Option.some.injEq, Prod.mk.injEq] at returned
      obtain ⟨-, -, rfl⟩ := returned
      exact socketsClosed_nil
  | some peer =>
      rw [family] at prepared returned
      dsimp only at returned
      split at returned
      · rename_i failed
        obtain ⟨-, rest⟩ := Prod.mk.inj (Option.some.inj returned)
        obtain ⟨-, rfl⟩ := Prod.mk.inj rest
        cases prepared with
        | inl h => exact h.2.1
        | inr h => omega
      · rename_i passes
        obtain ⟨⟨ret', after'⟩, -, same⟩ := Option.map_eq_some_iff.mp returned
        obtain ⟨-, rest⟩ := Prod.mk.inj same
        obtain ⟨-, rfl⟩ := Prod.mk.inj rest
        cases prepared with
        | inl h => exact absurd h.1 passes
        | inr h => exact SocketsClosed.of_close h.2.1

theorem zperfTcpUpload_closed_iff {hz : UInt64} {pdMsToTicks : UInt32 → UInt32}
    {param : UploadParams} {calls : UploadCalls} {before after : Results} {ret : Int}
    {log : List SocketEvent}
    (returned : zperfTcpUpload hz pdMsToTicks param calls before = some (ret, after, log)) :
    SocketsClosed log ↔ ¬ NodelayRefused .tcp param calls := by
  have prepared := zperfPrepareUploadSock_cases param.peerAddr param.tos .tcp calls
  simp only [zperfTcpUpload] at returned
  split at returned
  · rename_i failed
    obtain ⟨-, rest⟩ := Prod.mk.inj (Option.some.inj returned)
    obtain ⟨-, rfl⟩ := Prod.mk.inj rest
    cases prepared with
    | inl h => exact ⟨fun _ refused => h.2.2 ⟨refused.family, refused.opened, refused.connected⟩,
        fun _ => h.2.1⟩
    | inr h => omega
  · rename_i passes
    obtain ⟨-, held, family, opened, connected⟩ := prepared.resolve_left (fun h => passes h.1)
    have option : socketLeases ((zperfPrepareUploadSock param.peerAddr param.tos .tcp calls).2 ++
        [.setNodelay (zperfPrepareUploadSock param.peerAddr param.tos .tcp calls).1
          param.tcpNodelay]) = [((zperfPrepareUploadSock param.peerAddr param.tos .tcp calls).1,
            .take .tcp)] := by
      rw [socketLeases_append, held]
      rfl
    split at returned
    · rename_i leaks
      obtain ⟨-, rest⟩ := Prod.mk.inj (Option.some.inj returned)
      obtain ⟨-, rfl⟩ := Prod.mk.inj rest
      constructor
      · intro closed
        exact absurd closed (not_socketsClosed option)
      · intro accepted
        exact absurd ⟨rfl, family, opened, connected, leaks.1, leaks.2⟩ accepted
    · rename_i noLeak
      obtain ⟨⟨ret', after'⟩, -, same⟩ := Option.map_eq_some_iff.mp returned
      obtain ⟨-, rest⟩ := Prod.mk.inj same
      obtain ⟨-, rfl⟩ := Prod.mk.inj rest
      refine ⟨fun _ refused => noLeak ⟨refused.wanted, refused.refused⟩, fun _ => ?_⟩
      split
      · exact SocketsClosed.of_close option
      · exact SocketsClosed.of_close held

/-- An upload that returns leaves no socket open unless `TCP_NODELAY` is refused. -/
theorem socketsClosed_iff (hz : UInt64) (pdMsToTicks : UInt32 → UInt32) (proto : SessionProto)
    (param : UploadParams) (calls : UploadCalls) (before after : Results) (ret : Int)
    (log : List SocketEvent)
    (returned : zperfUpload hz pdMsToTicks proto param calls before = some (ret, after, log)) :
    SocketsClosed log ↔ ¬ NodelayRefused proto param calls := by
  cases proto with
  | udp =>
      have notTcp : ¬ NodelayRefused .udp param calls := fun h => by simpa using h.tcp
      exact ⟨fun _ => notTcp, fun _ => zperfUdpUpload_closed returned⟩
  | tcp => exact zperfTcpUpload_closed_iff returned

/-- A peer at 192.0.2.1, and calls that all succeed for one TCP packet or one datagram. -/
def examplePeer : SockAddr := some (.inet 5001 0xC0000201)

def exampleCalls (nodelay : Int) : UploadCalls where
  socket := .ok ⟨3, by decide⟩
  connect := .ok ()
  nodelay := nodelay
  udp := ⟨0, [⟨1, true⟩], ⟨12, by decide⟩, 1, [⟨12, 0, .ok (List.replicate 52 0)⟩],
    [.error ⟨-1, by decide⟩]⟩
  tcp := ⟨0, 0, [⟨[1], 0, 1⟩], 1⟩

theorem upload_closes_its_socket :
    ∃ ret after log, zperfUpload 1000 id .udp ⟨examplePeer, 1, 10, 12, 0, 0, -1⟩ (exampleCalls 0)
        .zero = some (ret, after, log) ∧ SocketsClosed log := by
  have returned : (zperfUpload 1000 id .udp ⟨examplePeer, 1, 10, 12, 0, 0, -1⟩ (exampleCalls 0)
      .zero).isSome = true := by decide +kernel
  obtain ⟨⟨ret, after, log⟩, returned⟩ := Option.isSome_iff_exists.mp returned
  exact ⟨ret, after, log, returned, (socketsClosed_iff 1000 id .udp _ (exampleCalls 0) .zero after
    ret log returned).mpr fun refused => by simpa using refused.tcp⟩

/-- A socket that refuses `TCP_NODELAY` stays open. -/
theorem refused_nodelay_leaks :
    ∃ log, zperfUpload 1000 id .tcp ⟨examplePeer, 1, 10, 1, 0, 1, -1⟩ (exampleCalls (-1)) .zero =
      some (-einval, .zero, log) ∧ ¬ SocketsClosed log := by
  refine ⟨_, rfl, fun closed => ?_⟩
  exact absurd (closed 3) (by decide)

end Zperf
