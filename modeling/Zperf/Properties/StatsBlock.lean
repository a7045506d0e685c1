import Zperf.Core.UdpUploader
import Zperf.Properties.UdpSlot

/-!
The statistics reply on the wire.

`build_reply` and `zperf_upload_decode_stat` are written apart, by server and
client; decoding a reply gives back the fields of the block that was sent.
-/

namespace Zperf

open Base

theorem ServerHdr.length_bytes (stat : ServerHdr) : stat.bytes.length = sizeofServerHdr := rfl

theorem length_buildReply {hdr : List UInt8} (h : hdr.length = sizeofUdpDatagram)
    (stat : ServerHdr) :
    (buildReply hdr stat).length = sizeofUdpDatagram + sizeofServerHdr := by
  rw [buildReply, List.length_append, h, stat.length_bytes]

theorem take_buildReply {hdr : List UInt8} (h : hdr.length = sizeofUdpDatagram)
    (stat : ServerHdr) : (buildReply hdr stat).take sizeofUdpDatagram = hdr := by
  rw [buildReply, ← h, List.take_left]

theorem drop_buildReply {hdr : List UInt8} (h : hdr.length = sizeofUdpDatagram)
    (stat : ServerHdr) : (buildReply hdr stat).drop sizeofUdpDatagram = stat.bytes := by
  rw [buildReply, ← h, List.drop_left]

theorem word_serverHdr (stat : ServerHdr) :
    word (stat.bytes.drop 8) = stat.totalLen2.toUInt32 ∧
      word (stat.bytes.drop 12) = stat.stopSec.toUInt32 ∧
      word (stat.bytes.drop 16) = stat.stopUsec.toUInt32 ∧
      word (stat.bytes.drop 20) = stat.errorCnt.toUInt32 ∧
      word (stat.bytes.drop 24) = stat.outorderCnt.toUInt32 ∧
      word (stat.bytes.drop 28) = stat.datagrams.toUInt32 ∧
      word (stat.bytes.drop 32) = stat.jitter1.toUInt32 ∧
      word (stat.bytes.drop 36) = stat.jitter2.toUInt32 := by
  have walk (n : Nat) (w : UInt32) (rest : List UInt8) :
      (putWord w ++ rest).drop (n + 4) = rest.drop n := by
    rw [Nat.add_comm, drop_putWord_add]
  refine ⟨?_, ?_, ?_, ?_, ?_, ?_, ?_, ?_⟩ <;>
    simp only [ServerHdr.bytes, walk, List.drop_zero, word_putWord, word_putWord_nil]

theorem decode_buildReply {hdr : List UInt8} (h : hdr.length = sizeofUdpDatagram)
    (stat : ServerHdr) (results : Results) :
    zperfUploadDecodeStat (buildReply hdr stat) results =
      { results with
        nbPacketsRcvd := stat.datagrams.toUInt32
        nbPacketsLost := stat.errorCnt.toUInt32
        nbPacketsOutorder := stat.outorderCnt.toUInt32
        totalLen := stat.totalLen2.toUInt32
        timeInUs := stat.stopUsec.toUInt32 + stat.stopSec.toUInt32 * usecPerSec
        jitterInUs := stat.jitter2.toUInt32 + stat.jitter1.toUInt32 * usecPerSec } := by
  obtain ⟨h₁, h₂, h₃, h₄, h₅, h₆, h₇, h₈⟩ := word_serverHdr stat
  simp only [zperfUploadDecodeStat, drop_buildReply h, h₁, h₂, h₃, h₄, h₅, h₆, h₇, h₈]

theorem usec_split (duration : UInt32) :
    duration % usecPerSec + duration / usecPerSec * usecPerSec = duration := by
  apply UInt32.toNat_inj.mp
  simp only [UInt32.toNat_add, UInt32.toNat_mul, UInt32.toNat_mod, UInt32.toNat_div,
    Nat.add_mod_mod]
  rw [Nat.mod_add_div']
  exact Nat.mod_eq_of_lt duration.toNat_lt

/-- The client reads the duration, the jitter and the counters of the session. -/
theorem decode_fillStat {hdr : List UInt8} (h : hdr.length = sizeofUdpDatagram) (s : Session)
    (duration : UInt32) (results : Results) :
    zperfUploadDecodeStat (buildReply hdr (fillStat s duration)) results =
      { results with
        nbPacketsRcvd := s.counter
        nbPacketsLost := s.error
        nbPacketsOutorder := s.outorder
        totalLen := (s.length % 0xFFFFFFFF).toUInt32
        timeInUs := duration
        jitterInUs := s.jitter.toUInt32 } := by
  have none : (0 : Int32).toUInt32 = 0 := rfl
  rw [decode_buildReply h]
  simp only [fillStat, UInt32.toUInt32_toInt32, usec_split, none, UInt32.zero_mul,
    UInt32.add_zero]

theorem length_take_header {d : Arrival} (long : d.short = false) :
    (d.data.take sizeofUdpDatagram).length = sizeofUdpDatagram := by
  have enough : sizeofUdpDatagram ≤ d.data.length := by simpa [Arrival.short] using long
  rw [List.length_take, Nat.min_eq_left enough]

theorem getSession_of_fst {row : Row} {addr : SockAddr} {i : Fin sessionMax}
    (h : (getSession row addr).1 = some i) :
    getSession row addr = (some i, (getSession row addr).2) :=
  Prod.ext h rfl

/-- The reply to the end of a session tells the client what the server's callback is
told, behind the header as it was received. -/
theorem stats_reply_round_trip (hz : UInt64) (row row' : Row) (d : Arrival)
    (i : Fin sessionMax) (r : Results) (long : d.short = false) (isEnd : d.isEnd = true)
    (found : getSession row (some d.addr) = (some i, row'))
    (ongoing : (row' i).state = .ongoing) (counted : (row' i).counter ≠ 0) :
    ∃ reply results,
      (udpReceived hz true row d).1 = [.sendto d.addr reply, .sessionCb (.finished results)] ∧
      reply.length = 52 ∧ reply.take 12 = d.data.take 12 ∧
      (zperfUploadDecodeStat reply r).nbPacketsRcvd = results.nbPacketsRcvd ∧
      (zperfUploadDecodeStat reply r).nbPacketsLost = results.nbPacketsLost ∧
      (zperfUploadDecodeStat reply r).nbPacketsOutorder = results.nbPacketsOutorder ∧
      (zperfUploadDecodeStat reply r).timeInUs = results.timeInUs ∧
      (zperfUploadDecodeStat reply r).jitterInUs = results.jitterInUs := by
  have header := length_take_header long
  have step : (udpReceived hz true row d).1 = (finishSession hz true (row' i) d).1 := by
    simp [udpReceived, long, found, sessionReceived, ongoing, isEnd]
  rcases finishSession_eq hz true (row' i) d with ⟨zero, -⟩ | ⟨-, results, divided, fin⟩
  · exact absurd zero counted
  · rw [fin] at step
    refine ⟨_, results, step, length_buildReply header _, take_buildReply header _, ?_⟩
    rw [decode_fillStat header]
    simp only [finishResults, counted, if_false, Option.some.injEq] at divided
    subst divided
    exact ⟨rfl, rfl, rfl, rfl, rfl⟩

/-- A session with one datagram after its first. -/
theorem stats_reply_round_trip_two :
    ∃ reply, ∃ results : Results, (zperfUploadDecodeStat reply Results.zero).nbPacketsRcvd =
      results.nbPacketsRcvd ∧ reply.length = 52 := by
  let data (id : Int32) (tick : UInt32) : Arrival :=
    ⟨.inet 6000 0x0A000002, (UdpDatagram.mk id 0 0).bytes, tick⟩
  let m := udpReceiver 1000 true
  let row := (m.run bootRow [data 0 5, data 1 6]).2.get (by decide +kernel)
  have first : (getSession row (some (data (-2) 7).addr)).1 = some ⟨0, by decide⟩ := by
    decide +kernel
  have found := getSession_of_fst first
  obtain ⟨reply, results, -, length, -, rcvd, -⟩ :=
    stats_reply_round_trip 1000 row _ (data (-2) 7) _ Results.zero (by decide +kernel)
      (by decide +kernel) found (by decide +kernel) (by decide +kernel)
  exact ⟨reply, results, rcvd, length⟩

/-- The byte count in the two words of the reply, what the client reads of it and what
the server's callback is told, at the end of the session in slot `s`. -/
def LengthSurvives (hz : UInt64) (s : Session) (d : Arrival) : Prop :=
  let duration := sessionDuration hz s d.tick
  let stat := fillStat s duration
  let reply := buildReply (d.data.take sizeofUdpDatagram) stat
  stat.totalLen1.toUInt32.toNat * 2 ^ 32 + stat.totalLen2.toUInt32.toNat = s.length.toNat ∧
  (zperfUploadDecodeStat reply Results.zero).totalLen.toNat = s.length.toNat % 2 ^ 32 ∧
  ∀ results, finishResults s duration = some results →
    (zperfUploadDecodeStat reply Results.zero).totalLen = results.totalLen

theorem toNat_totalLen1 (length : UInt64) :
    (length >>> 32).toUInt32.toNat = length.toNat / 2 ^ 32 := by
  have bound := length.toNat_lt
  rw [UInt64.toNat_toUInt32, UInt64.toNat_shiftRight]
  simp only [UInt64.reduceToNat, Nat.reduceMod, Nat.shiftRight_eq_div_pow]
  omega

theorem toNat_totalLen2 (length : UInt64) :
    (length % 0xFFFFFFFF).toUInt32.toNat = length.toNat % 0xFFFFFFFF := by
  have below := Nat.mod_lt length.toNat (show 0 < 0xFFFFFFFF by decide)
  rw [UInt64.toNat_toUInt32, UInt64.toNat_mod]
  exact Nat.mod_eq_of_lt (Nat.lt_trans below (by decide))

/-- The lower word is taken modulo `2 ^ 32 - 1`, not `2 ^ 32`: the byte count survives
unless it is in a range where the two remainders differ. -/
theorem lengthSurvives_iff (hz : UInt64) (s : Session) (d : Arrival) (long : d.short = false) :
    LengthSurvives hz s d ↔
      s.length.toNat % 2 ^ 32 ≠ 2 ^ 32 - 1 ∧
        (s.length.toNat < 2 ^ 32 ∨ (2 ^ 32 - 1) * 2 ^ 32 ≤ s.length.toNat) := by
  have bound := s.length.toNat_lt
  have decoded := decode_fillStat (length_take_header long) s (sessionDuration hz s d.tick)
    Results.zero
  have told (results : Results)
      (h : finishResults s (sessionDuration hz s d.tick) = some results) :
      results.totalLen = s.length.toUInt32 := by
    unfold finishResults at h
    split at h
    · simp at h
    · obtain rfl := Option.some.inj h
      rfl
  have words : s.length.toNat / 2 ^ 32 * 2 ^ 32 + s.length.toNat % 0xFFFFFFFF = s.length.toNat ↔
      s.length.toNat % 2 ^ 32 ≠ 2 ^ 32 - 1 ∧
        (s.length.toNat < 2 ^ 32 ∨ (2 ^ 32 - 1) * 2 ^ 32 ≤ s.length.toNat) := by
    omega
  simp only [LengthSurvives, decoded]
  rw [← words]
  simp only [fillStat, UInt32.toUInt32_toInt32, toNat_totalLen1, toNat_totalLen2]
  constructor
  · rintro ⟨both, -, -⟩
    exact both
  · intro both
    have lower : s.length.toNat % 0xFFFFFFFF = s.length.toNat % 2 ^ 32 := by omega
    refine ⟨both, lower, fun results h => ?_⟩
    rw [told results h]
    apply UInt32.toNat_inj.mp
    rw [toNat_totalLen2, lower, UInt64.toNat_toUInt32]

theorem lengthSurvives_kilobyte :
    LengthSurvives 1000
      { Session.zero with state := .ongoing, counter := 1, length := 1024 }
      ⟨.inet 6000 0x0A000002, (UdpDatagram.mk (-2) 0 0).bytes, 9⟩ :=
  (lengthSurvives_iff 1000 _ _ (by decide +kernel)).mpr (by decide)

/-- Four gigabytes in datagrams of 1024 bytes: the lower word is one, not zero. -/
theorem four_gigabytes_do_not_survive :
    ¬ LengthSurvives 1000
      { Session.zero with state := .ongoing, counter := 4194304, length := 4294967296 }
      ⟨.inet 6000 0x0A000002, (UdpDatagram.mk (-4194305) 0 0).bytes, 9⟩ := by
  rintro ⟨both, -⟩
  exact absurd both (by decide +kernel)

end Zperf
