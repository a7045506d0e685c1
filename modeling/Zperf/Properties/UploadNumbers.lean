import Zperf.Base.Wrap
import Zperf.Properties.PacketInterval
import Zperf.Properties.UploadTarget

/-!
The packet size and the rate of an upload, from their texts to the loop of `udp_upload`.

Both go through `parse_number`, whose products have 32 bits. The size is then kept in 16 bits
before it is clamped, and the rate is the divisor of `zperf_packet_duration`.
-/

namespace Zperf

open Base

/-- The factor of the units `K` and `M`, in either case. -/
def unitFactor (rest : CString) : Nat :=
  match rest.head? with
  | some 'M' | some 'm' => 1048576
  | some 'K' | some 'k' => 1024
  | _ => 1

/-- A decimal number, with or without a unit, and what it stands for. -/
inductive SizeText : CString → Nat → Prop where
  | plain {digits : CString} (nonempty : digits ≠ [])
      (all : ∀ c ∈ digits, isDigitOf 10 c = true) : SizeText digits (digitsValue 10 digits)
  | scaled {digits : CString} {unit : Char} (nonempty : digits ≠ [])
      (all : ∀ c ∈ digits, isDigitOf 10 c = true) (known : unit ∈ ['K', 'k', 'M', 'm']) :
      SizeText (digits ++ [unit]) (digitsValue 10 digits * unitFactor [unit])

/-- The number at the start of a text, in its unit. -/
def scaledNumber (text : CString) : Nat :=
  (strtoul 10 text).1.toNat * unitFactor (strtoul 10 text).2

/-- The elements of `argv` that the parameters are read from. -/
def elements (isUdp : Bool) (argv : List CString) : Option Positional :=
  (scanOptions isUdp .initial argv.tail).bind fun (opts, _) =>
    positional (UInt32.ofNat argv.length) opts.optCnt

/-- The texts of the packet size and of the rate. -/
def packetSizeText (isUdp : Bool) (argv : List CString) : Option CString :=
  (elements isUdp argv).bind fun args => args.packetSize.bind fun i => argv[i]?

def rateText (isUdp : Bool) (argv : List CString) : Option CString :=
  (elements isUdp argv).bind fun args => args.rate.bind fun i => argv[i]?

theorem toNat_toLower (c : Char) :
    c.toLower.toNat = if 65 ≤ c.toNat ∧ c.toNat ≤ 90 then c.toNat + 32 else c.toNat := by
  have range : (c.val ≥ 'A'.val ∧ c.val ≤ 'Z'.val) ↔ (65 ≤ c.toNat ∧ c.toNat ≤ 90) :=
    and_congr UInt32.le_iff_toNat_le UInt32.le_iff_toNat_le
  unfold Char.toLower
  split
  · rename_i upper
    have bounds := range.mp upper
    rw [if_pos bounds]
    change (c.val + 32).toNat = c.toNat + 32
    have code : c.val.toNat = c.toNat := rfl
    rw [UInt32.toNat_add, code, show (32 : UInt32).toNat = 32 from rfl]
    omega
  · rename_i other
    rw [if_neg (fun h => other (range.mpr h))]

theorem toLower_eq_iff {c upper lower : Char} (range : 65 ≤ upper.toNat ∧ upper.toNat ≤ 90)
    (pair : lower.toNat = upper.toNat + 32) : c.toLower = lower ↔ c = upper ∨ c = lower := by
  rw [← Char.toNat_inj, ← @Char.toNat_inj c, ← @Char.toNat_inj c, toNat_toLower]
  split <;> omega

theorem unitDivisor_kUnits (rest : CString) :
    unitDivisor rest kUnits =
      if unitFactor rest = 1 then 0 else UInt32.ofNat (unitFactor rest) := by
  cases rest with
  | nil => rfl
  | cons c rest =>
      have m : c.toLower = 'm' ↔ c = 'M' ∨ c = 'm' := toLower_eq_iff (by decide) (by decide)
      have k : c.toLower = 'k' ↔ c = 'K' ∨ c = 'k' := toLower_eq_iff (by decide) (by decide)
      have lower : 'M'.toLower = 'm' ∧ 'K'.toLower = 'k' := by decide
      simp only [unitDivisor, kUnits, List.head?_cons, Option.map_some, Option.some.injEq, lower, m,
        k]
      by_cases isM : c = 'M' ∨ c = 'm'
      · have factor : unitFactor (c :: rest) = 1048576 := by
          cases isM with
          | inl same | inr same => rw [same]; rfl
        rw [factor, if_pos isM]
        rfl
      · by_cases isK : c = 'K' ∨ c = 'k'
        · have factor : unitFactor (c :: rest) = 1024 := by
            cases isK with
            | inl same | inr same => rw [same]; rfl
          rw [factor, if_neg isM, if_pos isK]
          rfl
        · have factor : unitFactor (c :: rest) = 1 := by
            simp only [not_or] at isM isK
            unfold unitFactor
            split <;> simp_all
          rw [factor, if_neg isM, if_neg isK]
          rfl

theorem ok_of_bind {ε α β : Type} {x : Except ε α} {f : α → Except ε β} {result : β}
    (ok : x >>= f = .ok result) : ∃ value, x = .ok value ∧ f value = .ok result := by
  cases x with
  | error e => cases ok
  | ok value => exact ⟨value, rfl, ok⟩

theorem valueOr_of_ok {α : Type} {argv : List CString} {i : Option Nat} {read : CString → α}
    {default value : α} (ok : valueOr argv i read default = .ok value) :
    value = match i.bind fun i => argv[i]? with
      | some text => read text
      | none => default := by
  cases i with
  | none => exact (Except.ok.inj ok).symm
  | some i =>
      simp only [valueOr, argAt] at ok
      cases found : argv[i]? with
      | none =>
          rw [found] at ok
          cases ok
      | some text =>
          rw [found] at ok
          simp only [Option.bind_some, found]
          exact (Except.ok.inj ok).symm

/-- The size and the rate that `execute_upload` is called with. -/
theorem executed_numbers {pton : InetPton} {isUdp isUdp' async : Bool} {argv : List CString}
    {param : UploadParams}
    (executed : shellCmdUpload pton isUdp argv = .ok (.execute param isUdp' async)) :
    (param.packetSize = match packetSizeText isUdp argv with
      | some text => (parseNumber text kUnits).toUInt32.toUInt16
      | none => 256) ∧
    param.rateKbps = match rateText isUdp argv with
      | some text => ((parseNumber text kUnits + 1023) / 1024).toUInt32
      | none => 10 := by
  rw [shellCmdUpload] at executed
  cases accepted : scanOptions isUdp .initial argv.tail with
  | none =>
      rw [accepted] at executed
      cases executed
  | some scanned =>
      obtain ⟨opts, rest⟩ := scanned
      simp only [accepted] at executed
      cases places : positional (UInt32.ofNat argv.length) opts.optCnt with
      | none =>
          rw [places] at executed
          cases executed
      | some args =>
          have found : elements isUdp argv = some args := by
            rw [elements, accepted]
            exact places
          simp only [places] at executed
          obtain ⟨port, -, executed⟩ := ok_of_bind executed
          obtain ⟨host, -, executed⟩ := ok_of_bind executed
          cases parsed : parsePeer pton host port with
          | none =>
              rw [parsed] at executed
              cases executed
          | some peer =>
              simp only [parsed] at executed
              obtain ⟨durationMs, -, executed⟩ := ok_of_bind executed
              obtain ⟨packetSize, size, executed⟩ := ok_of_bind executed
              obtain ⟨rateKbps, rate, executed⟩ := ok_of_bind executed
              obtain ⟨rfl, -, -⟩ := ShellUpload.execute.inj (Except.ok.inj executed)
              rw [packetSizeText, rateText, found]
              exact ⟨valueOr_of_ok size, valueOr_of_ok rate⟩

/-- `parse_number` multiplies in 32 bits. -/
theorem toNat_parseNumber (text : CString) :
    (parseNumber text kUnits).toUInt32.toNat = scaledNumber text % 2 ^ 32 := by
  have bound := (strtoul 10 text).1.toNat_lt
  simp only [parseNumber, unitDivisor_kUnits, scaledNumber]
  by_cases one : unitFactor (strtoul 10 text).2 = 1
  · rw [if_pos one, if_pos rfl, one, UInt32.toUInt32_toInt32, Nat.mul_one, Nat.mod_eq_of_lt bound]
  · have factor : unitFactor (strtoul 10 text).2 = 1024 ∨
        unitFactor (strtoul 10 text).2 = 1048576 := by
      unfold unitFactor at one ⊢
      split <;> simp_all
    rw [if_neg one]
    cases factor with
    | inl k | inr k =>
        rw [k, if_neg (by decide), UInt32.toUInt32_toInt32, UInt32.toNat_mul]
        rfl

theorem unitFactor_pos (rest : CString) : 1 ≤ unitFactor rest := by
  unfold unitFactor
  split <;> decide

/-- The text of a size of at most 31 bits stands for the size. -/
theorem scaledNumber_of_sizeText {text : CString} {v : Nat} (number : SizeText text v)
    (small : v < 2 ^ 32) : scaledNumber text = v := by
  cases number with
  | plain nonempty all =>
      have read := @numeral_of_digits text [] nonempty all nofun
      rw [List.append_nil] at read
      rw [scaledNumber, strtoul_of_numeral read small, UInt32.toNat_ofNat_of_lt' small]
      exact Nat.mul_one _
  | @scaled digits unit nonempty all known =>
      have units : ['K', 'k', 'M', 'm'].all (fun unit => isDigitOf 10 unit == false) = true := rfl
      have notDigit := eq_of_beq (List.all_eq_true.mp units unit known)
      have read := @numeral_of_digits digits [unit] nonempty all fun c head => by
        obtain rfl := Option.some.inj head
        exact notDigit
      have value : digitsValue 10 digits < 2 ^ 32 :=
        Nat.lt_of_le_of_lt (Nat.le_mul_of_pos_right _ (unitFactor_pos _)) small
      rw [scaledNumber, strtoul_of_numeral read value, UInt32.toNat_ofNat_of_lt' value]

/-- Every datagram that the upload sends, in any run, has this size. -/
def SentSize (hz : UInt64) (c : UploadConfig) (s : UploadLoop) (size : Nat) : Prop :=
  ∀ turns packet, UploadEvent.send packet ∈ ((udpUploader hz c).run s turns).1 →
    packet.length = size

theorem sentSize_iff {hz : UInt64} {c : UploadConfig} {s : UploadLoop}
    (bounded : c.packetSize.toNat ≤ 1024) (again : s.again = true) (size : Nat) :
    SentSize hz c s size ↔ c.packetSize.toNat = size := by
  constructor
  · intro sent
    have first : UploadEvent.send (turnPacket hz c s 0) ∈
        ((udpUploader hz c).run s [⟨0, true⟩]).1 := by
      have notOver : ¬ s.again = false := by simp [again]
      simp [Machine.run, udpUploader, notOver]
    rw [← sent _ _ first]
    exact (length_sent bounded first).symm
  · intro same turns packet sent
    rw [length_sent bounded sent, same]

theorem toNat_clampPacketSize (size : UInt32) :
    (clampPacketSize size).toNat = min (max size.toNat 12) 1024 := by
  have header : (UInt32.ofNat sizeofUdpDatagram).toNat = 12 := rfl
  have max : packetSizeMax.toNat = 1024 := rfl
  simp only [clampPacketSize, gt_iff_lt, UInt32.lt_iff_toNat_lt, max]
  by_cases large : 1024 < size.toNat
  · rw [if_pos large]
    omega
  · rw [if_neg large]
    by_cases tiny : size.toNat < sizeofUdpDatagram
    · rw [if_pos tiny, header]
      simp only [sizeofUdpDatagram] at tiny
      omega
    · rw [if_neg tiny]
      simp only [sizeofUdpDatagram] at tiny
      omega

/-- The datagrams have the clamped size unless the size is cut to 16 bits below the largest
one. -/
theorem clamped_iff (hz : UInt64) (pton : InetPton) (argv : List CString) (param : UploadParams)
    (async : Bool) (text : CString) (v : Nat) (port start : UInt32) (c : UploadConfig)
    (s : UploadLoop)
    (executed : shellCmdUpload pton true argv = .ok (.execute param true async))
    (asked : packetSizeText true argv = some text) (number : SizeText text v)
    (small : v < 2 ^ 31)
    (started : startUpload hz port param.durationMs param.packetSize.toUInt32 param.rateKbps
      start = some (c, s)) :
    SentSize hz c s (min (max v 12) 1024) ↔ v < 65536 ∨ 1024 ≤ v % 65536 := by
  obtain ⟨size, -, loop⟩ := startUpload_started started
  have bounds := clampPacketSize_bounds param.packetSize.toUInt32
  have kept : param.packetSize.toNat = v % 65536 := by
    rw [(executed_numbers executed).1, asked, UInt32.toNat_toUInt16, toNat_parseNumber,
      scaledNumber_of_sizeText number (by omega)]
    omega
  rw [sentSize_iff (by rw [size]; exact bounds.2) (by rw [loop]), size, toNat_clampPacketSize,
    UInt16.toNat_toUInt32, kept]
  omega

/-- The command line with this duration, packet size and rate. -/
def exampleUpload (size rate : CString) : List CString :=
  [exampleCommand, exampleHost, examplePort, ['1'], size, rate]

theorem clamped_of_4k :
    SentSize 1000 ⟨5001, 1024, 10, 3200, 1000⟩ ⟨3200, 0, 0, true⟩ (min (max 4096 12) 1024) := by
  have number : SizeText ['4', 'K'] 4096 :=
    @SizeText.scaled ['4'] 'K' (by decide) (List.all_eq_true.mp rfl) (by decide)
  apply (clamped_iff 1000 examplePton (exampleUpload ['4', 'K'] ['1', '0', 'K'])
    ⟨some (.inet 5001 0xC0000201), 1000, 10, 4096, 0, 0, -1⟩ false ['4', 'K'] 4096 5001 0 _ _
    (by decide) (by decide) number (by decide) (by decide)).mpr
  exact .inl (by decide)

/-- A size of 64K is sent as the smallest one. -/
theorem not_clamped_of_64k :
    shellCmdUpload examplePton true (exampleUpload ['6', '4', 'K'] ['1', '0', 'K']) =
        .ok (.execute ⟨some (.inet 5001 0xC0000201), 1000, 10, 0, 0, 0, -1⟩ true false) ∧
      packetSizeText true (exampleUpload ['6', '4', 'K'] ['1', '0', 'K']) =
        some ['6', '4', 'K'] ∧
      SizeText ['6', '4', 'K'] 65536 ∧
      startUpload 1000 5001 1000 0 10 0 = some (⟨5001, 12, 10, 0, 1000⟩, ⟨0, 0, 0, true⟩) ∧
      ¬ SentSize 1000 ⟨5001, 12, 10, 0, 1000⟩ ⟨0, 0, 0, true⟩ (min (max 65536 12) 1024) := by
  refine ⟨by decide, by decide, ?_, by decide, ?_⟩
  · exact @SizeText.scaled ['6', '4'] 'K' (by decide) (List.all_eq_true.mp rfl) (by decide)
  · rw [sentSize_iff (by decide) rfl]
    decide

/-- The sum that is rounded, as a number: it wraps around near the largest one only. -/
theorem toInt_add_1023 (p : Int32) :
    (p + 1023).toInt = if p.toInt < 2 ^ 31 - 1023 then p.toInt + 1023
      else p.toInt + 1023 - 2 ^ 32 := by
  have lower := p.le_toInt
  have upper := p.toInt_lt
  rw [Int32.toInt_add, show (1023 : Int32).toInt = 1023 from rfl, Int.bmod_def]
  split <;> split <;> omega

theorem toInt_div_1024 (p : Int32) :
    (p / 1024).toInt = if 0 ≤ p.toInt then p.toInt / 1024 else -(-p.toInt / 1024) := by
  rw [Int32.toInt_div_of_ne_right p 1024 (by decide), show (1024 : Int32).toInt = 1024 from rfl]
  split
  · rename_i nonneg
    exact Int.tdiv_eq_ediv_of_nonneg nonneg
  · rename_i negative
    rw [← Int.tdiv_eq_ediv_of_nonneg (by omega), Int.neg_tdiv, Int.neg_neg]

/-- A rate of this size times 1024 wraps around to zero only when it is zero. -/
theorem mul_1024_eq_zero_iff (q : Int32) (small : -2 ^ 21 ≤ q.toInt ∧ q.toInt < 2 ^ 21) :
    q.toUInt32 * 1024 = 0 ↔ q.toInt = 0 := by
  have word := toInt_toInt32 q.toUInt32
  have bound := q.toUInt32.toNat_lt
  rw [Int32.toInt32_toUInt32] at word
  rw [← UInt32.toNat_inj, toNat_divisor, UInt32.toNat_zero]
  split at word <;> omega

/-- The divisor that the rate rounded up to whole kilobits gives. -/
theorem rate_divisor_iff (x : UInt32) :
    ((x.toInt32 + 1023) / 1024).toUInt32 * 1024 = 0 ↔
      ¬ (1 ≤ x.toNat ∧ x.toNat ≤ 2 ^ 32 - 2047) := by
  have value := toInt_toInt32 x
  have bound := x.toNat_lt
  have total := toInt_add_1023 x.toInt32
  have quotient := toInt_div_1024 (x.toInt32 + 1023)
  have lower := (x.toInt32 + 1023).le_toInt
  have upper := (x.toInt32 + 1023).toInt_lt
  have small : -2 ^ 21 ≤ ((x.toInt32 + 1023) / 1024).toInt ∧
      ((x.toInt32 + 1023) / 1024).toInt < 2 ^ 21 := by
    split at quotient <;> omega
  rw [mul_1024_eq_zero_iff _ small]
  split at value <;> split at total <;> split at quotient <;> omega

/-- The divisions of `execute_upload` and of `udp_upload` have a divisor. -/
structure DividesSafely (hz : UInt64) (param : UploadParams) : Prop where
  divisor : param.rateKbps * 1024 ≠ 0
  shown : zperfPacketDuration param.packetSize.toUInt32 param.rateKbps ≠ none
  started : ∀ port start, startUpload hz port param.durationMs param.packetSize.toUInt32
    param.rateKbps start ≠ none

theorem dividesSafely_of_divisor {hz : UInt64} {param : UploadParams}
    (divisor : param.rateKbps * 1024 ≠ 0) : DividesSafely hz param := by
  have duration : ∃ us, zperfPacketDuration param.packetSize.toUInt32 param.rateKbps = some us :=
    ⟨_, if_neg divisor⟩
  obtain ⟨us, computed⟩ := duration
  refine ⟨divisor, ?_, ?_⟩
  · rw [computed]
    exact Option.some_ne_none us
  · intro port start
    rw [startUpload, computed]
    exact Option.some_ne_none _

/-- No upload divides by zero unless the number asked for as its rate, in 32 bits, is zero or
one of the last 2046. -/
theorem dividesSafely_iff (hz : UInt64) (pton : InetPton) (argv : List CString)
    (param : UploadParams) (async : Bool)
    (executed : shellCmdUpload pton true argv = .ok (.execute param true async)) :
    DividesSafely hz param ↔ ∀ text, rateText true argv = some text →
      1 ≤ scaledNumber text % 2 ^ 32 ∧ scaledNumber text % 2 ^ 32 ≤ 2 ^ 32 - 2047 := by
  have rate := (executed_numbers executed).2
  cases asked : rateText true argv with
  | none =>
      rw [asked] at rate
      refine iff_of_true (dividesSafely_of_divisor ?_) nofun
      rw [rate]
      decide
  | some text =>
      have zero := rate_divisor_iff (parseNumber text kUnits).toUInt32
      have computed : param.rateKbps = ((parseNumber text kUnits + 1023) / 1024).toUInt32 := by
        rw [rate, asked]
      rw [Int32.toInt32_toUInt32, toNat_parseNumber, ← computed] at zero
      constructor
      · intro safe text' same
        obtain rfl := Option.some.inj same
        exact Decidable.of_not_not fun outside => safe.divisor (zero.mpr outside)
      · intro inside
        exact dividesSafely_of_divisor fun none => zero.mp none (inside text rfl)

theorem dividesSafely_at_one : DividesSafely 1000
    ⟨some (.inet 5001 0xC0000201), 1000, 1, 64, 0, 0, -1⟩ :=
  (dividesSafely_iff 1000 examplePton (exampleUpload ['6', '4'] ['1']) _ false (by decide)).mpr
    fun text asked => by
      have rate : rateText true (exampleUpload ['6', '4'] ['1']) = some ['1'] := by decide
      obtain rfl := Option.some.inj (rate.symm.trans asked)
      decide

/-- A rate of 0, and one that is no number. -/
theorem not_dividesSafely :
    shellCmdUpload examplePton true (exampleUpload ['6', '4'] ['0']) =
        .ok (.execute ⟨some (.inet 5001 0xC0000201), 1000, 0, 64, 0, 0, -1⟩ true false) ∧
      shellCmdUpload examplePton true (exampleUpload ['6', '4'] ['f', 'a', 's', 't']) =
        .ok (.execute ⟨some (.inet 5001 0xC0000201), 1000, 0, 64, 0, 0, -1⟩ true false) ∧
      ¬ DividesSafely 1000 ⟨some (.inet 5001 0xC0000201), 1000, 0, 64, 0, 0, -1⟩ := by
  refine ⟨by decide, by decide, fun safe => ?_⟩
  exact absurd safe.divisor (by decide)

end Zperf
