import Zperf.Properties.HostForms
import Zperf.Properties.StartStop

/-!
The address that a server binds.

A start copies `sizeof(struct sockaddr)` bytes of the address that is asked for, and the
session reads it back as an IPv4 and as an IPv6 address. The rest of the variable is never
written.
-/

namespace Zperf

open Base

variable {σ α δ : Type}

/-- A `struct sockaddr_storage` with an IPv4 or an IPv6 address in it. -/
inductive BindRequest where
  | inet (len : UInt8) (port : UInt16) (addr : BitVec 32)
  | inet6 (len : UInt8) (port : UInt16) (flowinfo : BitVec 32) (addr : BitVec 128)
      (scopeId : BitVec 32)

namespace BindRequest

def bytes : BindRequest → List UInt8
  | inet len port addr => (len :: afInet :: (storePort port).bytes) ++
      (networkBytes 4 addr ++ List.replicate 20 0)
  | inet6 len port flowinfo addr scopeId => (len :: afInet6 :: (storePort port).bytes) ++
      (networkBytes 4 flowinfo ++ (networkBytes 16 addr ++ networkBytes 4 scopeId))

/-- What `udp_server_session` and `tcp_server_session` read through their casts: the address
of the family that was asked for, and none for the other. -/
def ReadsBack (serverAddr : List UInt8) : BindRequest → Prop
  | inet _ _ addr => field serverAddr 4 4 = networkBytes 4 addr ∧
      field serverAddr 8 16 = List.replicate 16 0
  | inet6 _ _ _ addr _ => field serverAddr 8 16 = networkBytes 16 addr ∧
      field serverAddr 4 4 = List.replicate 4 0

/-- Nothing of the address is in the part that is not copied, nor anything but zeros where the
address of the other family is. -/
def Kept : BindRequest → Prop
  | inet _ _ _ => True
  | inet6 _ _ flowinfo addr _ => (networkBytes 16 addr).drop 8 = List.replicate 8 0 ∧
      networkBytes 4 flowinfo = List.replicate 4 0

theorem length_bytes (r : BindRequest) : r.bytes.length = sizeofSockaddrStorage := by
  cases r with
  | inet len port addr | inet6 len port flowinfo addr scopeId =>
      simp [bytes, storePort, length_networkBytes, sizeofSockaddrStorage]

theorem zeros_append (m n : Nat) :
    List.replicate m (0 : UInt8) ++ List.replicate n 0 = List.replicate (m + n) 0 :=
  List.replicate_append_replicate

theorem readsBack_inet (len : UInt8) (port : UInt16) (addr : BitVec 32) :
    (inet len port addr).ReadsBack
      ((inet len port addr).bytes.take sizeofSockaddr ++ List.replicate 12 0) := by
  have address := length_networkBytes 4 addr
  have front : (len :: afInet :: (storePort port).bytes).length = 4 := rfl
  simp only [ReadsBack, bytes]
  generalize networkBytes 4 addr = address4 at *
  generalize len :: afInet :: (storePort port).bytes = head at *
  have split : head ++ (address4 ++ List.replicate 20 0) =
      (head ++ (address4 ++ List.replicate 8 0)) ++ List.replicate 12 0 := by
    rw [← zeros_append 8 12]
    simp only [List.append_assoc]
  have copied : (head ++ (address4 ++ List.replicate 20 0)).take sizeofSockaddr =
      head ++ (address4 ++ List.replicate 8 0) := by
    rw [split, List.take_left' (by simp [front, address, sizeofSockaddr])]
  have other : head ++ (address4 ++ List.replicate 20 0) =
      (head ++ address4) ++ (List.replicate 16 0 ++ List.replicate 4 0) := by
    rw [zeros_append, List.append_assoc]
  rw [copied, ← split]
  refine ⟨field_middle front address, ?_⟩
  rw [other]
  exact field_middle (by rw [List.length_append, front, address]) List.length_replicate

/-- The lower half of the address is not copied, and the label is where an IPv4 address is. -/
theorem readsBack_inet6 (len : UInt8) (port : UInt16) (flowinfo : BitVec 32)
    (addr : BitVec 128) (scopeId : BitVec 32) :
    (inet6 len port flowinfo addr scopeId).ReadsBack
        ((inet6 len port flowinfo addr scopeId).bytes.take sizeofSockaddr ++
          List.replicate 12 0) ↔
      (inet6 len port flowinfo addr scopeId).Kept := by
  have address := length_networkBytes 16 addr
  have flow := length_networkBytes 4 flowinfo
  have front : (len :: afInet6 :: (storePort port).bytes).length = 4 := rfl
  simp only [ReadsBack, Kept, bytes]
  generalize networkBytes 16 addr = address16 at *
  generalize networkBytes 4 flowinfo = flow4 at *
  generalize len :: afInet6 :: (storePort port).bytes = head at *
  obtain ⟨upper, lower, rfl, first⟩ :
      ∃ upper lower, address16 = upper ++ lower ∧ upper.length = 8 :=
    ⟨address16.take 8, address16.drop 8, (List.take_append_drop 8 address16).symm, by
      rw [List.length_take, address]; rfl⟩
  have copied : (head ++ (flow4 ++ ((upper ++ lower) ++ networkBytes 4 scopeId))).take
      sizeofSockaddr = head ++ (flow4 ++ upper) := by
    have split : head ++ (flow4 ++ ((upper ++ lower) ++ networkBytes 4 scopeId)) =
        (head ++ (flow4 ++ upper)) ++ (lower ++ networkBytes 4 scopeId) := by
      simp only [List.append_assoc]
    rw [split, List.take_left' (by simp [front, flow, first, sizeofSockaddr])]
  have read6 : field (head ++ (flow4 ++ upper) ++ List.replicate 12 0) 8 16 =
      upper ++ List.replicate 8 0 := by
    have own : head ++ (flow4 ++ upper) ++ List.replicate 12 0 =
        (head ++ flow4) ++ ((upper ++ List.replicate 8 0) ++ List.replicate 4 0) := by
      rw [← zeros_append 8 4]
      simp only [List.append_assoc]
    rw [own]
    exact field_middle (by rw [List.length_append, front, flow])
      (by rw [List.length_append, first, List.length_replicate])
  have read : field (head ++ (flow4 ++ upper) ++ List.replicate 12 0) 4 4 = flow4 := by
    rw [List.append_assoc, List.append_assoc]
    exact field_middle front flow
  rw [copied, read6, read, List.drop_left' first, List.append_cancel_left_eq]
  exact and_congr_left fun _ => eq_comm

/-- The variable after the copy, its second part still zero. -/
theorem readsBack_iff (r : BindRequest) :
    r.ReadsBack (r.bytes.take sizeofSockaddr ++ List.replicate 12 0) ↔ r.Kept := by
  cases r with
  | inet len port addr => exact iff_of_true (readsBack_inet len port addr) trivial
  | inet6 len port flowinfo addr scopeId => exact readsBack_inet6 len port flowinfo addr scopeId

end BindRequest

/-! ### Runs -/

def ControlEvent.acceptedArgs : ControlEvent δ → Option DownloadArgs
  | .accepted args => some args
  | .given | .refused | .stopped | .begun | .session _ | .cleared => none

/-- The last start that was accepted. -/
def lastAccepted (log : List (ControlEvent δ)) : Option DownloadArgs :=
  (log.filterMap ControlEvent.acceptedArgs).getLast?

theorem lastAccepted_quiet {log out : List (ControlEvent δ)}
    (quiet : ∀ e ∈ out, e.acceptedArgs = none) : lastAccepted (log ++ out) = lastAccepted log := by
  rw [lastAccepted, List.filterMap_append, List.filterMap_eq_nil_iff.mpr quiet, List.append_nil,
    lastAccepted]

theorem lastAccepted_accepted (log : List (ControlEvent δ)) (args : DownloadArgs) :
    lastAccepted (log ++ [.accepted args]) = some args := by
  have last : ([.accepted args] : List (ControlEvent δ)).filterMap ControlEvent.acceptedArgs =
      [args] := rfl
  rw [lastAccepted, List.filterMap_append, last, List.getLast?_concat]

/-- What a start has still to write. -/
def ControllerPc.args : ControllerPc → Option DownloadArgs
  | .setCallback args | .setUserData args | .setPort args | .setRunning args | .clearStop args
  | .setAddr args => some args
  | .idle | .give | .setStop | .clearCallback => none

/-- The address is of the last start that was accepted once it is copied, and the rest of the
variable is zero. -/
structure AddrOk (log : List (ControlEvent δ)) (s : ServerControl σ) : Prop where
  control : ControlOk s
  length : s.serverAddr.length = sizeofSockaddrStorage
  rest : s.serverAddr.drop sizeofSockaddr = List.replicate 12 0
  pending : ∀ args, s.controller.args = some args →
    lastAccepted log = some args ∧ args.addr.length = sizeofSockaddrStorage
  copied : s.controller = .give ∨ s.serverRun = 1 ∨ s.serving = true →
    ∃ args, lastAccepted log = some args ∧
      s.serverAddr.take sizeofSockaddr = args.addr.take sizeofSockaddr

theorem AddrOk.init (session : σ) : AddrOk (δ := δ) [] (ServerControl.init session) where
  control := ControlOk.init session
  length := List.length_replicate
  rest := by rw [ServerControl.init, List.drop_replicate]; rfl
  pending := nofun
  copied := by simp [ServerControl.init]

/-- A step that accepts nothing and leaves the address. -/
theorem AddrOk.keep {log out : List (ControlEvent δ)} {s t : ServerControl σ} (h : AddrOk log s)
    (ok : ControlOk t) (quiet : ∀ e ∈ out, e.acceptedArgs = none)
    (addr : t.serverAddr = s.serverAddr)
    (pending : ∀ args, t.controller.args = some args → s.controller.args = some args)
    (copied : t.controller = .give ∨ t.serverRun = 1 ∨ t.serving = true →
      s.controller = .give ∨ s.serverRun = 1 ∨ s.serving = true) :
    AddrOk (log ++ out) t := by
  refine ⟨ok, by rw [addr]; exact h.length, by rw [addr]; exact h.rest, ?_, ?_⟩
  · intro args writes
    rw [lastAccepted_quiet quiet]
    exact h.pending args (pending args writes)
  · intro done
    rw [lastAccepted_quiet quiet, addr]
    exact h.copied (copied done)

theorem AddrOk.call {log : List (ControlEvent δ)} {s : ServerControl σ} (h : AddrOk log s)
    (c : ControlCall)
    (sized : ∀ args, c = .download args → args.addr.length = sizeofSockaddrStorage) :
    AddrOk (log ++ (beginCall (δ := δ) s c).1) (beginCall (δ := δ) s c).2 := by
  have ok := h.control.call (δ := δ) c
  unfold beginCall at ok ⊢
  split at ok
  · rename_i args idle
    by_cases refused : args.callback = 0 ∨ s.serverRunning = true
    · rw [if_pos refused]
      exact h.keep h.control (by simp [ControlEvent.acceptedArgs]) rfl (fun _ same => same) id
    · rw [if_neg refused] at ok ⊢
      have still : s.serverRunning = false := by simpa using (not_or.mp refused).2
      refine ⟨ok, h.length, h.rest, ?_, ?_⟩
      · intro args' writes
        obtain rfl := Option.some.inj writes
        exact ⟨lastAccepted_accepted log args, sized args rfl⟩
      · intro done
        cases done with
        | inl give => cases give
        | inr runs =>
            rw [h.control.running runs] at still
            cases still
  · rename_i idle
    by_cases running : s.serverRunning = true
    · rw [if_pos running] at ok ⊢
      refine h.keep ok nofun rfl nofun fun done => .inr ?_
      exact done.resolve_left nofun
    · rw [if_neg running]
      exact h.keep h.control (by simp [ControlEvent.acceptedArgs]) rfl (fun _ same => same) id
  · exact h.keep h.control nofun rfl (fun _ same => same) id

theorem AddrOk.controller {log : List (ControlEvent δ)} {s : ServerControl σ} (h : AddrOk log s) :
    AddrOk (log ++ (controllerStep (δ := δ) s).1) (controllerStep (δ := δ) s).2 := by
  have ok := h.control.controller (δ := δ)
  have starting := h.control.starting
  have pending := h.pending
  unfold controllerStep at ok ⊢
  cases pc : s.controller with
  | idle => exact h.keep h.control nofun rfl (fun _ same => same) id
  | setStop | clearCallback =>
      rw [pc] at ok
      refine h.keep ok (by simp [ControlEvent.acceptedArgs]) rfl nofun fun done => .inr ?_
      exact done.resolve_left nofun
  | setCallback args | setUserData args | setPort args | setRunning args | clearStop args =>
      rw [pc] at ok pending starting
      refine h.keep ok nofun rfl (by rw [pc]; exact fun _ same => same) fun done => .inr ?_
      exact done.resolve_left nofun
  | setAddr args =>
      rw [pc] at ok pending starting
      obtain ⟨last, length⟩ := pending args rfl
      have front : (args.addr.take sizeofSockaddr).length = sizeofSockaddr := by
        rw [List.length_take, length]
        rfl
      refine ⟨ok, ?_, ?_, nofun, fun _ => ⟨args, ?_, ?_⟩⟩
      · rw [List.length_append, front, h.rest]
        rfl
      · dsimp only
        rw [List.drop_left' front, h.rest]
      · rw [List.append_nil, last]
      · exact List.take_left' front
  | give =>
      rw [pc] at ok
      refine h.keep ok (by simp [ControlEvent.acceptedArgs]) rfl nofun fun _ => .inl pc

theorem AddrOk.thread {S : ServerSession σ α δ} {log out : List (ControlEvent δ)}
    {s t : ServerControl σ} {outcome : α} (h : AddrOk log s)
    (step : ThreadStep S s outcome out t) : AddrOk (log ++ out) t := by
  have ok := h.control.thread step
  cases step with
  | blocked waiting none => exact h.keep ok nofun rfl (fun _ same => same) id
  | begun waiting some =>
      have one : s.serverRun = 1 := by
        have := h.control.atMost
        omega
      exact h.keep ok (by simp [ControlEvent.acceptedArgs]) rfl (fun _ same => same)
        fun _ => .inr (.inl one)
  | cleared serving returned =>
      exact h.keep ok (by simp [ControlEvent.acceptedArgs]) rfl (fun _ same => same)
        fun _ => .inr (.inr serving)
  | session serving returned events session step =>
      refine h.keep ok ?_ rfl (fun _ same => same) id
      intro e among
      obtain ⟨event, -, rfl⟩ := List.mem_map.mp among
      rfl

theorem AddrOk.step {S : ServerSession σ α δ} {log out : List (ControlEvent δ)}
    {s t : ServerControl σ} {a : ControlStep α} (h : AddrOk log s)
    (sized : ∀ args, a = .call (.download args) → args.addr.length = sizeofSockaddrStorage)
    (step : (serverControl S).step s a = (out, some t)) : AddrOk (log ++ out) t := by
  cases a with
  | call c =>
      obtain ⟨rfl, rfl⟩ := goesOn_inj step
      exact h.call c fun args same => sized args (congrArg ControlStep.call same)
  | controller =>
      obtain ⟨rfl, rfl⟩ := goesOn_inj step
      exact h.controller
  | thread outcome => exact h.thread (receiverThread_step step)

theorem addrOk (S : ServerSession σ α δ) (session : σ) {as : List (ControlStep α)}
    {log : List (ControlEvent δ)} {s : ServerControl σ}
    (sized : ∀ args, .call (.download args) ∈ as → args.addr.length = sizeofSockaddrStorage)
    (run : (serverControl S).Reaches (ServerControl.init session) as log s) : AddrOk log s := by
  have kept := @Machine.Reaches.invariant _ _ _ (serverControl S)
    (fun ins log s =>
      (∀ args, .call (.download args) ∈ ins → args.addr.length = sizeofSockaddrStorage) →
        AddrOk log s)
    (fun ins log s a out t before step sized => by
      have earlier := before fun args inside => sized args (List.mem_append_left _ inside)
      refine earlier.step (fun args same => sized args ?_) step
      rw [same]
      exact List.mem_append_right _ List.mem_cons_self)
    (ServerControl.init session) s [] as [] log (fun _ => AddrOk.init session) run
  exact kept sized

/-- While a session runs, the variable holds the address of the last start that was accepted
as far as it is copied. -/
theorem AddrOk.serverAddr {log : List (ControlEvent δ)} {s : ServerControl σ} (h : AddrOk log s)
    (serving : s.serving = true) :
    ∃ args, lastAccepted log = some args ∧
      s.serverAddr = args.addr.take sizeofSockaddr ++ List.replicate 12 0 := by
  obtain ⟨args, last, front⟩ := h.copied (.inr (.inr serving))
  refine ⟨args, last, ?_⟩
  rw [← front, ← h.rest, List.take_append_drop]

/-- Every session reads back the address of the last start, if that address is kept. -/
def BindsAsked (S : ServerSession σ α δ) (session : σ) : Prop :=
  ∀ as log s,
    (∀ args, .call (.download args) ∈ as → args.addr.length = sizeofSockaddrStorage) →
    (serverControl S).Reaches (ServerControl.init session) as log s → s.serving = true →
      ∃ args, lastAccepted log = some args ∧
        ∀ r : BindRequest, args.addr = r.bytes → (r.ReadsBack s.serverAddr ↔ r.Kept)

theorem bindsAsked (S : ServerSession σ α δ) (session : σ) : BindsAsked S session := by
  intro as log s sized run serving
  obtain ⟨args, last, addr⟩ := (addrOk S session sized run).serverAddr serving
  refine ⟨args, last, ?_⟩
  intro r asked
  rw [addr, asked]
  exact r.readsBack_iff

/-- Both servers, under every interleaving of the controller and the thread. -/
theorem servers_bind_asked (hz : UInt64) :
    BindsAsked (udpServer hz) UdpServer.boot ∧ BindsAsked (tcpServer hz) TcpServer.boot :=
  ⟨bindsAsked (udpServer hz) UdpServer.boot, bindsAsked (tcpServer hz) TcpServer.boot⟩

/-- A start with this address, and the thread takes the semaphore. -/
def exampleStart (r : BindRequest) : List (ControlStep TcpOutcome) :=
  .call (.download ⟨1, 2, 5001, r.bytes⟩) :: List.replicate 7 .controller ++
    [.thread ⟨3, fun _ => .zero, .inet 0 0, 0, 0⟩]

theorem session_of_exampleStart (r : BindRequest) :
    ∃ log s, (serverControl (tcpServer 1000)).Reaches (ServerControl.init TcpServer.boot)
      (exampleStart r) log s ∧ s.serving = true ∧
      lastAccepted log = some ⟨1, 2, 5001, r.bytes⟩ ∧
      s.serverAddr = r.bytes.take sizeofSockaddr ++ List.replicate 12 0 :=
  ⟨_, _, rfl, rfl, rfl, rfl⟩

theorem sized_exampleStart (r : BindRequest) (args : DownloadArgs)
    (inside : .call (.download args) ∈ exampleStart r) :
    args.addr.length = sizeofSockaddrStorage := by
  simp only [exampleStart, List.mem_append, List.mem_cons, List.mem_replicate, reduceCtorEq,
    and_false, or_false, List.not_mem_nil, ControlStep.call.injEq,
    ControlCall.download.injEq] at inside
  rw [inside]
  exact r.length_bytes

theorem servers_bind_192_0_2_1 :
    ∃ log s, (serverControl (tcpServer 1000)).Reaches (ServerControl.init TcpServer.boot)
      (exampleStart (.inet 16 5001 0xC0000201)) log s ∧
      (BindRequest.inet 16 5001 0xC0000201).ReadsBack s.serverAddr := by
  obtain ⟨log, s, run, serving, asked, -⟩ := session_of_exampleStart (.inet 16 5001 0xC0000201)
  obtain ⟨args, last, kept⟩ := (servers_bind_asked 1000).2 _ log s
    (sized_exampleStart (.inet 16 5001 0xC0000201)) run serving
  obtain rfl := Option.some.inj (last.symm.trans asked)
  exact ⟨log, s, run, (kept _ rfl).mpr trivial⟩

/-- A server that is asked for ::1 binds any address. -/
theorem loopback_not_bound :
    ∃ log s, (serverControl (tcpServer 1000)).Reaches (ServerControl.init TcpServer.boot)
      (exampleStart (.inet6 28 5001 0 1 0)) log s ∧ s.serving = true ∧
      lastAccepted log = some ⟨1, 2, 5001, (BindRequest.inet6 28 5001 0 1 0).bytes⟩ ∧
      ¬ (BindRequest.inet6 28 5001 0 1 0).ReadsBack s.serverAddr := by
  obtain ⟨log, s, run, serving, asked, addr⟩ := session_of_exampleStart (.inet6 28 5001 0 1 0)
  refine ⟨log, s, run, serving, asked, fun reads => ?_⟩
  rw [addr] at reads
  exact absurd reads.1 (by decide)

end Zperf
