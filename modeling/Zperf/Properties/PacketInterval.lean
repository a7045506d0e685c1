import Zperf.Core.UdpUploader
import Zperf.Properties.Timestamps

/-!
The interval between datagrams and the datagrams.

`zperf_packet_duration` is given the packet size as it was asked for, and its divisor is
a 32-bit product. The datagrams have the size after the clamp. The interval is theirs as
long as neither the clamp nor the wrap around of the product changes the quotient.
-/

namespace Zperf

open Base

/-- The interval computed is that of datagrams of the size that is sent, at the rate that
was asked for. -/
def IntervalOfSent (hz : UInt64) (port durationInMs : UInt32) (packetSize : UInt16)
    (rateInKbps start : UInt32) : Prop :=
  ∃ us c s, zperfPacketDuration packetSize.toUInt32 rateInKbps = some us ∧
    startUpload hz port durationInMs packetSize.toUInt32 rateInKbps start = some (c, s) ∧
    ∀ turns packet, UploadEvent.send packet ∈ ((udpUploader hz c).run s turns).1 →
      us.toNat = packet.length * 8 * 1000000 / (rateInKbps.toNat * 1024)

/-- For `asked` and `sent` bytes, in units of `512` bits a second: below `2 ^ 22` kbps no
multiple of twice the rate separates the two; above, the rate modulo `2 ^ 22` has as many
whole microseconds for the bytes asked for, none or one, as the rate has for the bytes
sent. -/
def QuotientKept (asked sent rate : Nat) : Prop :=
  if rate < 2 ^ 22 then
    ∀ k, min asked sent * 15625 < k * (2 * rate) → max asked sent * 15625 < k * (2 * rate)
  else if sent * 15625 < 2 * rate then asked * 15625 < 2 * (rate % 2 ^ 22)
  else 2 * (rate % 2 ^ 22) ≤ asked * 15625 ∧ asked * 15625 < 4 * (rate % 2 ^ 22)

theorem div_eq_div_iff_separated {a b d : Nat} (hd : 0 < d) :
    a / d = b / d ↔ ∀ k, min a b < k * d → max a b < k * d := by
  have ordered {a b : Nat} (le : a ≤ b) : a / d = b / d ↔ ∀ k, a < k * d → b < k * d := by
    constructor
    · intro same k below
      rw [← Nat.div_lt_iff_lt_mul hd] at below ⊢
      rwa [← same]
    · intro together
      have next := together (a / d + 1) ((Nat.div_lt_iff_lt_mul hd).mp (Nat.lt_succ_self _))
      have above : b / d < a / d + 1 := (Nat.div_lt_iff_lt_mul hd).mpr next
      have mono := @Nat.div_le_div_right a b d le
      omega
  cases Nat.le_total a b with
  | inl le =>
      rw [Nat.min_eq_left le, Nat.max_eq_right le]
      exact ordered le
  | inr le =>
      rw [Nat.min_eq_right le, Nat.max_eq_left le, eq_comm]
      exact ordered le

theorem bits_div (size rate : Nat) :
    size * 8 * 1000000 / (rate * 1024) = size * 15625 / (2 * rate) := by
  rw [show size * 8 * 1000000 = size * 15625 * 512 by omega,
    show rate * 1024 = 2 * rate * 512 by omega, Nat.mul_div_mul_right _ _ (by decide)]

theorem toNat_divisor (rate : UInt32) :
    (rate * 1024).toNat = rate.toNat % 2 ^ 22 * 1024 := by
  rw [UInt32.toNat_mul, show (1024 : UInt32).toNat = 1024 from rfl]
  omega

theorem zperfPacketDuration_eq {packetSize rate : UInt32} (h : packetSize.toNat < 2 ^ 16) :
    zperfPacketDuration packetSize rate =
      if rate.toNat % 2 ^ 22 = 0 then none
      else some (UInt32.ofNat (packetSize.toNat * 15625 / (2 * (rate.toNat % 2 ^ 22)))) := by
  have divisor := toNat_divisor rate
  have zero : rate * 1024 = 0 ↔ rate.toNat % 2 ^ 22 = 0 := by
    rw [← UInt32.toNat_inj, divisor, UInt32.toNat_zero]
    omega
  unfold zperfPacketDuration
  by_cases trap : rate.toNat % 2 ^ 22 = 0
  · rw [if_pos trap, if_pos (zero.mpr trap)]
  · rw [if_neg trap, if_neg (fun h => trap (zero.mp h))]
    apply congrArg some
    apply UInt32.toNat_inj.mp
    have dividend : (packetSize.toUInt64 * 8 * usecPerSec.toUInt64).toNat =
        packetSize.toNat * 8 * 1000000 := by
      rw [UInt64.toNat_mul, UInt64.toNat_mul, UInt32.toNat_toUInt64, UInt32.toNat_toUInt64,
        toNat_usecPerSec, show (8 : UInt64).toNat = 8 from rfl]
      omega
    rw [UInt64.toNat_toUInt32, UInt64.toNat_div, dividend, UInt32.toNat_toUInt64, divisor,
      bits_div, UInt32.toNat_ofNat']

theorem quotientKept_iff {asked sent rate : Nat} (hrate : 0 < rate) (hsent : sent ≤ 1024) :
    QuotientKept asked sent rate ↔ rate % 2 ^ 22 ≠ 0 ∧
      asked * 15625 / (2 * (rate % 2 ^ 22)) = sent * 15625 / (2 * rate) := by
  unfold QuotientKept
  split
  · rename_i low
    rw [Nat.mod_eq_of_lt low, div_eq_div_iff_separated (by omega), ← Nat.mul_min_mul_right,
      ← Nat.mul_max_mul_right]
    exact ⟨fun h => ⟨by omega, h⟩, fun h => h.2⟩
  · rename_i high
    split
    · rename_i none
      rw [Nat.div_eq_of_lt none]
      constructor
      · intro below
        exact ⟨by omega, Nat.div_eq_of_lt below⟩
      · intro h
        exact (Nat.div_eq_zero_iff_lt (by omega)).mp h.2
    · rename_i one
      rw [(Nat.div_eq_iff (by omega)).mpr (show 1 * (2 * rate) ≤ sent * 15625 ∧
        sent * 15625 ≤ 1 * (2 * rate) + 2 * rate - 1 by omega)]
      constructor
      · intro within
        have positive : 0 < rate % 2 ^ 22 := by omega
        exact ⟨by omega, (Nat.div_eq_iff (by omega)).mpr (by omega)⟩
      · intro h
        have within := (Nat.div_eq_iff (by omega)).mp h.2
        omega

theorem udpUploader_sends {hz : UInt64} {c : UploadConfig} {s : UploadLoop} {t : Turn}
    {packet : List UInt8} (h : UploadEvent.send packet ∈ ((udpUploader hz c).step s t).1) :
    packet = turnPacket hz c s t.tick := by
  simp only [udpUploader] at h
  split at h
  · simp at h
  · split at h
    · simp at h
    · split at h <;> simpa using h

theorem length_sent {hz : UInt64} {c : UploadConfig} {s : UploadLoop} {turns : List Turn}
    {packet : List UInt8} (size : c.packetSize.toNat ≤ 1024)
    (h : UploadEvent.send packet ∈ ((udpUploader hz c).run s turns).1) :
    packet.length = c.packetSize.toNat := by
  induction turns generalizing s with
  | nil => simp [Machine.run] at h
  | cons t turns ih =>
      have here (first : UploadEvent.send packet ∈ ((udpUploader hz c).step s t).1) :
          packet.length = c.packetSize.toNat := by
        rw [udpUploader_sends first]
        exact length_samplePacket _ _ _ size
      simp only [Machine.run] at h
      cases hs : (udpUploader hz c).step s t with
      | mk out next =>
          rw [hs] at h here
          cases next with
          | none => exact here h
          | some s' =>
              cases List.mem_append.mp h with
              | inl first => exact here first
              | inr later => exact ih later

/-- The interval is right exactly when the quotient is kept. -/
theorem intervalOfSent_iff (hz : UInt64) (port durationInMs : UInt32) (packetSize : UInt16)
    (rateInKbps start : UInt32) (positive : 0 < rateInKbps.toNat) :
    IntervalOfSent hz port durationInMs packetSize rateInKbps start ↔
      QuotientKept packetSize.toNat (clampPacketSize packetSize.toUInt32).toNat
        rateInKbps.toNat := by
  have bounds := clampPacketSize_bounds packetSize.toUInt32
  have interval := @zperfPacketDuration_eq packetSize.toUInt32 rateInKbps packetSize.toNat_lt
  rw [UInt16.toNat_toUInt32] at interval
  rw [quotientKept_iff positive bounds.2]
  unfold IntervalOfSent startUpload
  rw [interval]
  split
  · rename_i trap
    constructor
    · intro h
      obtain ⟨us, _, _, none, _⟩ := h
      simp at none
    · intro h
      exact absurd trap h.1
  · rename_i divisor
    have fits : packetSize.toNat * 15625 / (2 * (rateInKbps.toNat % 2 ^ 22)) < 2 ^ 32 := by
      have small := packetSize.toNat_lt
      have le := Nat.div_le_self (packetSize.toNat * 15625) (2 * (rateInKbps.toNat % 2 ^ 22))
      omega
    have word : (UInt32.ofNat (packetSize.toNat * 15625 /
        (2 * (rateInKbps.toNat % 2 ^ 22)))).toNat = packetSize.toNat * 15625 /
          (2 * (rateInKbps.toNat % 2 ^ 22)) := by
      rw [UInt32.toNat_ofNat', Nat.mod_eq_of_lt fits]
    constructor
    · intro h
      obtain ⟨us, c, s, same, started, sizes⟩ := h
      obtain rfl := Option.some.inj same
      obtain ⟨rfl, rfl⟩ := Prod.mk.inj (Option.some.inj started)
      -- The first iteration sends.
      have first := sizes [⟨0, true⟩] _ List.mem_cons_self
      have length := @length_samplePacket (dataHdr hz 0 (kUptimeTicks 0)) port rateInKbps
        (clampPacketSize packetSize.toUInt32) bounds.2
      refine ⟨divisor, ?_⟩
      rw [← word, first, turnPacket, length, bits_div]
    · intro h
      refine ⟨_, _, _, rfl, rfl, ?_⟩
      intro turns packet sent
      rw [length_sent bounds.2 sent, bits_div, word, h.2]

/-- A clamped size that rounds to the same interval, and a rate that wraps around. -/
theorem intervalOfSent_both_ends :
    IntervalOfSent 1000 5001 1000 11 40000 0 ∧ IntervalOfSent 1000 5001 1000 12 4294304 0 := by
  refine ⟨(intervalOfSent_iff 1000 5001 1000 11 40000 0 (by decide)).mpr ?_,
    (intervalOfSent_iff 1000 5001 1000 12 4294304 0 (by decide)).mpr ?_⟩
  · have asked : UInt16.toNat 11 = 11 := rfl
    have sent : (clampPacketSize (UInt16.toUInt32 11)).toNat = 12 := rfl
    have rate : UInt32.toNat 40000 = 40000 := rfl
    rw [asked, sent, rate]
    unfold QuotientKept
    split
    · intro k below
      rw [Nat.min_eq_left (by decide)] at below
      rw [Nat.max_eq_right (by decide)]
      omega
    · omega
  · rw [QuotientKept, if_neg (by decide), if_pos (by decide)]
    decide

/-- A size that is clamped, and a rate whose divisor wraps around to zero. -/
theorem interval_not_of_sent :
    ¬ IntervalOfSent 1000 5001 1000 65535 10 0 ∧ ¬ IntervalOfSent 1000 5001 1000 256 4194304 0 := by
  constructor
  · intro h
    obtain ⟨us, c, s, same, started, sizes⟩ := h
    obtain rfl := Option.some.inj same
    obtain ⟨rfl, rfl⟩ := Prod.mk.inj (Option.some.inj started)
    have first := sizes [⟨0, true⟩] _ List.mem_cons_self
    revert first
    decide +kernel
  · intro h
    obtain ⟨us, _, _, same, _⟩ := h
    have trap : zperfPacketDuration (UInt16.toUInt32 256) 4194304 = none := by decide
    rw [trap] at same
    exact Option.some_ne_none us same.symm

end Zperf
