import Zperf.Core.ShellDownload
import Zperf.Properties.HostText
import Zperf.Properties.StartStop
import Zperf.Properties.UploadTarget

/-!
A server that is started with a host text.

`zperf_bind_host` looks for a negative value of `net_ipaddr_parse`, which is a `bool`, and so
it takes the address whether or not the text was parsed.
-/

namespace Zperf

open Base

variable {σ α δ : Type}

/-- The writes of the controller, one after the other, are the call. -/
theorem reaches_zperfDownload (S : ServerSession σ α δ) (param : DownloadArgs)
    (s : ServerControl σ) (idle : s.controller = .idle) :
    (serverControl S).Reaches s (.call (.download param) :: List.replicate 7 .controller)
      (if param.callback = 0 ∨ s.serverRunning then [.refused] else [.accepted param, .given])
      (zperfDownload param s).2 := by
  obtain ⟨sessionCb, userData, running, stop, port, addr, run, controller, serving, session⟩ := s
  obtain rfl : controller = .idle := idle
  by_cases refused : param.callback = 0 ∨ running = true
  · have after : (zperfDownload param (⟨sessionCb, userData, running, stop, port, addr, run, .idle,
        serving, session⟩ : ServerControl σ)).2 =
          ⟨sessionCb, userData, running, stop, port, addr, run, .idle, serving, session⟩ := by
      unfold zperfDownload
      cases refused with
      | inl none => rw [if_pos none]
      | inr set => split <;> simp [set]
    rw [after]
    simp [Machine.Reaches, Machine.run, serverControl, beginCall, controllerStep, refused,
      List.replicate]
  · have apart : ¬ param.callback = 0 ∧ ¬ running = true := not_or.mp refused
    simp [Machine.Reaches, Machine.run, serverControl, beginCall, controllerStep, apart,
      zperfDownload, List.replicate]

/-- The parser returns false for the host. -/
def Rejects (pton : InetPton) (host : CString) : Prop :=
  ∃ stores, netIpaddrParse pton (terminated host) host.length = .ok (false, stores)

/-- An IPv6 address in brackets with a colon behind them. -/
def BracketedInet6 (pton : InetPton) (host : CString) : Prop :=
  ∃ h p, host = '[' :: (h ++ ']' :: ':' :: p) ∧ ']' ∉ h ∧ h.length ≤ 44 ∧
    (pton.inet6 h).isSome = true

/-- The command returns an error and leaves the server as it was. -/
def StartsNothing (outcome : Except Fault (ShellStatus × ServerControl σ))
    (s : ServerControl σ) : Prop :=
  ∃ status, outcome = .ok (status, s) ∧ status ≠ kStatusShellSuccess

theorem stores_of_portOutcome {room size : Nat} {before stores : List Store} {p : CString}
    (rejected : portOutcome room size before p = .ok (false, stores)) : stores = before := by
  rw [portOutcome] at rejected
  split at rejected
  · cases converted : convertPort p with
    | none =>
        rw [converted] at rejected
        exact (Prod.mk.inj (Except.ok.inj rejected)).2.symm
    | some port =>
        rw [converted] at rejected
        cases rejected
  · cases rejected

theorem inside_inetStores (addr : BitVec 32) :
    ∀ store ∈ inetStores addr, store.Inside sizeofSockaddr := by
  intro store among
  simp only [inetStores, List.mem_cons, List.not_mem_nil, or_false] at among
  cases among with
  | inl same =>
      rw [same]
      simp only [Store.Inside, storeInet, networkBytes, List.length_map, List.length_range]
      decide
  | inr same =>
      rw [same]
      decide

theorem outside_inet6Stores (addr : BitVec 128) :
    ¬ ∀ store ∈ inet6Stores addr, store.Inside sizeofSockaddr := by
  intro inside
  have first := inside (storeInet6 addr) List.mem_cons_self
  simp only [Store.Inside, storeInet6, networkBytes, List.length_map, List.length_range] at first
  exact absurd first (by decide)

/-- What a rejected text leaves in the address is outside a `struct sockaddr` only behind
brackets. -/
theorem stores_of_rejects {pton : InetPton} {host : CString} {stores : List Store}
    (noNul : '\x00' ∉ host)
    (rejected : netIpaddrParse pton (terminated host) host.length = .ok (false, stores)) :
    (∀ store ∈ stores, store.Inside sizeofSockaddr) ↔ ¬ BracketedInet6 pton host := by
  by_cases bracketed : BracketedInet6 pton host
  · refine iff_of_false ?_ (fun none => none bracketed)
    obtain ⟨h, p, rfl, notIn, near, valid⟩ := bracketed
    obtain ⟨addr, valid⟩ := Option.isSome_iff_exists.mp valid
    rw [netIpaddrParse_closed noNul notIn near, valid] at rejected
    rw [stores_of_portOutcome rejected]
    exact outside_inet6Stores addr
  · refine iff_of_true ?_ bracketed
    generalize result : netIpaddrParse pton (terminated host) host.length = outcome at rejected
    have shape := hostOutcome pton noNul
    rw [result] at shape
    cases shape with
    | empty | unclosed | noInet6 | far | noInet | refused =>
        obtain ⟨-, rfl⟩ := Prod.mk.inj (Except.ok.inj rejected)
        exact nofun
    | inet | inet6 => cases rejected
    | port noBracket notIn once near valid =>
        rw [stores_of_portOutcome rejected]
        exact inside_inetStores _
    | @bracket h rest addr notIn near valid =>
        unfold bracketOutcome at rejected
        split at rejected
        · rename_i p
          exact absurd ⟨h, p, rfl, notIn, near, by rw [valid]; rfl⟩ bracketed
        · cases rejected

theorem zperfBindHost_of_rejects {pton : InetPton} {argv : List CString} {host : CString}
    (given : argv[2]? = some host) (noNul : '\x00' ∉ host) (rejected : Rejects pton host) :
    (BracketedInet6 pton host → ∃ fault, zperfBindHost pton argv = .error fault) ∧
    (¬ BracketedInet6 pton host →
      ∃ port addr, zperfBindHost pton argv = .ok (kStatusShellSuccess, port, addr)) := by
  obtain ⟨stores, rejected⟩ := rejected
  have inside := stores_of_rejects noNul rejected
  have notNegative : ¬ (0 : Int32) < 0 := by decide
  have length : (List.replicate sizeofSockaddr (0 : UInt8)).length = sizeofSockaddr :=
    List.length_replicate
  simp only [zperfBindHost, given, rejected, bind, Except.bind, storeAll, length]
  constructor
  · intro bracketed
    rw [if_neg (fun all => inside.mp all bracketed)]
    exact ⟨_, rfl⟩
  · intro plain
    rw [if_pos (inside.mpr plain)]
    simp only [Bool.false_eq_true, if_false, if_neg notNegative]
    exact ⟨_, _, rfl⟩

theorem zperfDownload_refused {param : DownloadArgs} {s : ServerControl σ}
    (callback : param.callback ≠ 0) (running : s.serverRunning = true) :
    zperfDownload param s = (-ealready, s) := by
  rw [zperfDownload, if_neg callback, if_pos running]

theorem zperfDownload_started {param : DownloadArgs} {s : ServerControl σ}
    (callback : param.callback ≠ 0) (idle : s.serverRunning = false) :
    (zperfDownload param s).1 = 0 := by
  rw [zperfDownload, if_neg callback, if_neg (by rw [idle]; decide)]

theorem cmdDownload_startsNothing_iff {pton : InetPton} (sessionCb : FunctionAddr) (sh : UInt32)
    {argv : List CString} {host : CString} (s : ServerControl σ)
    (given : argv[2]? = some host) (noNul : '\x00' ∉ host) (rejected : Rejects pton host) :
    StartsNothing (cmdDownload pton sessionCb sh argv s) s ↔
      s.serverRunning = true ∧ ¬ BracketedInet6 pton host := by
  obtain ⟨faults, goesOn⟩ := zperfBindHost_of_rejects given noNul rejected
  by_cases bracketed : BracketedInet6 pton host
  · obtain ⟨fault, bound⟩ := faults bracketed
    refine iff_of_false ?_ (fun both => both.2 bracketed)
    intro nothing
    obtain ⟨status, outcome, -⟩ := nothing
    rw [cmdDownload, bound] at outcome
    cases outcome
  · obtain ⟨port, addr, bound⟩ := goesOn bracketed
    have notNegative : ¬ kStatusShellSuccess.toInt32 < 0 := by decide
    simp only [cmdDownload, bound, bind, Except.bind, if_neg notNegative]
    cases running : s.serverRunning with
    | true =>
        have refused := @zperfDownload_refused _ ⟨sessionCb, sh, port, addr⟩ s sessionCb.2 running
        refine iff_of_true ⟨-kStatusShellError, ?_, by decide⟩ ⟨rfl, bracketed⟩
        rw [refused]
        rfl
    | false =>
        have started := @zperfDownload_started _ ⟨sessionCb, sh, port, addr⟩ s sessionCb.2 running
        refine iff_of_false ?_ (fun both => nomatch both.1)
        intro nothing
        obtain ⟨status, outcome, failed⟩ := nothing
        rw [started, if_neg (by decide), if_neg (by decide)] at outcome
        exact failed (Prod.mk.inj (Except.ok.inj outcome)).1.symm

/-- With a host that is rejected the commands start nothing only where a server runs already,
and where nothing is written outside the address. -/
theorem bad_address_starts_nothing_iff (pton : InetPton) (udpSessionCb tcpSessionCb : FunctionAddr)
    (sh : UInt32) (argv : List CString) (host : CString) (udp tcp : ServerControl σ)
    (given : argv[2]? = some host) (noNul : '\x00' ∉ host) (rejected : Rejects pton host) :
    (StartsNothing (cmdUdpDownload pton udpSessionCb sh argv udp) udp ↔
      udp.serverRunning = true ∧ ¬ BracketedInet6 pton host) ∧
    (StartsNothing (cmdTcpDownload pton tcpSessionCb sh argv tcp) tcp ↔
      tcp.serverRunning = true ∧ ¬ BracketedInet6 pton host) :=
  ⟨cmdDownload_startsNothing_iff udpSessionCb sh udp given noNul rejected,
    cmdDownload_startsNothing_iff tcpSessionCb sh tcp given noNul rejected⟩

def exampleDownload (host : CString) : List CString := [['d', 'o', 'w', 'n'], examplePort, host]

/-- A server that has not been started, and one that has. -/
def exampleServer (running : Bool) : ServerControl Unit :=
  { ServerControl.init () with serverRunning := running }

theorem starts_nothing_when_running :
    StartsNothing (cmdUdpDownload examplePton ⟨1, by decide⟩ 0 (exampleDownload ['x'])
        (exampleServer true)) (exampleServer true) ∧
      StartsNothing (cmdTcpDownload examplePton ⟨2, by decide⟩ 0 (exampleDownload ['x'])
        (exampleServer true)) (exampleServer true) := by
  have plain : ¬ BracketedInet6 examplePton ['x'] := by
    intro bracketed
    obtain ⟨h, p, same, -⟩ := bracketed
    cases (List.cons.inj same).1
  have both := bad_address_starts_nothing_iff examplePton ⟨1, by decide⟩ ⟨2, by decide⟩ 0
    (exampleDownload ['x']) ['x'] (exampleServer true) (exampleServer true) rfl (by decide)
    ⟨[], by decide⟩
  exact ⟨both.1.mpr ⟨rfl, plain⟩, both.2.mpr ⟨rfl, plain⟩⟩

/-- What the command returns, and the running flag, the port and the semaphore after it. -/
def startOf (outcome : Except Fault (ShellStatus × ServerControl Unit)) :
    Option (ShellStatus × Bool × UInt16 × Nat) :=
  match outcome with
  | .ok (status, s) => some (status, s.serverRunning, s.serverPort, s.serverRun)
  | .error _ => none

/-- The host `x` is rejected, and a server is started. -/
theorem bad_address_starts_server :
    netIpaddrParse examplePton (terminated ['x']) 1 = .ok (false, []) ∧
      startOf (cmdUdpDownload examplePton ⟨1, by decide⟩ 0 (exampleDownload ['x'])
        (exampleServer false)) = some (kStatusShellSuccess, true, 5001, 1) ∧
      ¬ StartsNothing (cmdUdpDownload examplePton ⟨1, by decide⟩ 0 (exampleDownload ['x'])
        (exampleServer false)) (exampleServer false) := by
  have started : startOf (cmdUdpDownload examplePton ⟨1, by decide⟩ 0 (exampleDownload ['x'])
      (exampleServer false)) = some (kStatusShellSuccess, true, 5001, 1) := by decide
  refine ⟨by decide, started, ?_⟩
  intro nothing
  obtain ⟨status, outcome, -⟩ := nothing
  rw [outcome] at started
  cases (Prod.mk.inj (Prod.mk.inj (Option.some.inj started)).2).1

end Zperf
