import Zperf.Core.Shell

/-!
Where `shell_cmd_upload` looks for its parameters.

The loop counts two elements for each option `-S`, also where its value is attached and
the option takes one. The count is then ahead of the loop by the number of such options, and
so is the element that the host is read from.

A vector of arguments has fewer than `2 ^ 30` elements: their pointers are in an address
space of 32 bits.
-/

namespace Zperf

open Base

/-- The options `-S` that have their value attached. -/
def attachedCount : List CString → Nat
  | [] => 0
  | arg :: args =>
      match optionArg arg with
      | some (.tos []) =>
          match args with
          | [] => 0
          | _ :: args => attachedCount args
      | some (.tos (_ :: _)) => attachedCount args + 1
      | some .async | some .nodelay => attachedCount args
      | some .unrecognized | none => 0

/-- The same options, with every value of `-S` in an element of its own. -/
def spellOut : List CString → List CString
  | [] => []
  | arg :: args =>
      match optionArg arg with
      | some (.tos []) =>
          match args with
          | [] => [arg]
          | value :: args => arg :: value :: spellOut args
      | some (.tos (c :: value)) => ['-', 'S'] :: (c :: value) :: spellOut args
      | some .async | some .nodelay => arg :: spellOut args
      | some .unrecognized | none => arg :: args

/-- The parameters in `count` elements from `first` on. -/
def followingPositional (first count : Nat) : Option Positional :=
  if count = 0 then none
  else some {
    host := first
    port := if 1 < count then some (first + 1) else none
    duration := if 2 < count then some (first + 2) else none
    packetSize := if 3 < count then some (first + 3) else none
    rate := if 4 < count then some (first + 4) else none }

/-- The options, which leave the elements `rest`, are out of the way of the parameters. -/
structure OptionsAside (pton : InetPton) (isUdp : Bool) (argv : List CString)
    (opts : UploadOptions) (rest : List CString) : Prop where
  places : positional (UInt32.ofNat argv.length) opts.optCnt =
    followingPositional (argv.length - rest.length) rest.length
  spelling : shellCmdUpload pton isUdp (argv.take 1 ++ spellOut argv.tail) =
    shellCmdUpload pton isUdp argv
  inside : ∀ i, shellCmdUpload pton isUdp argv ≠ .error i

theorem UploadOptions.optCnt_setTos {opts after : UploadOptions} {res : ShellStatus}
    (taken : opts.setTos res = some after) : after.optCnt = opts.optCnt + 2 := by
  simp only [UploadOptions.setTos] at taken
  split at taken
  · contradiction
  · obtain rfl := Option.some.inj taken
    rfl

/-- One turn of the loop, on any number of elements that follow. -/
theorem scanOptions_cons (isUdp : Bool) (opts : UploadOptions) (arg : CString)
    (args : List CString) :
    scanOptions isUdp opts (arg :: args) =
      match optionArg arg with
      | none => some (opts, arg :: args)
      | some (.tos []) =>
          match args with
          | [] => (opts.setTos (-1)).map fun opts => (opts, [])
          | value :: args =>
              (opts.setTos (parseArg value)).bind fun opts => scanOptions isUdp opts args
      | some (.tos (c :: value)) =>
          (opts.setTos (parseArg (c :: value))).bind fun opts => scanOptions isUdp opts args
      | some .async =>
          scanOptions isUdp { opts with async := true, optCnt := opts.optCnt + 1 } args
      | some .nodelay =>
          if isUdp then none
          else scanOptions isUdp { opts with tcpNodelay := 1, optCnt := opts.optCnt + 1 } args
      | some .unrecognized => none := by
  cases letter : optionArg arg with
  | none => cases args <;> simp only [scanOptions, letter]
  | some option =>
      cases option with
      | tos value => cases value <;> cases args <;> simp only [scanOptions, letter]
      | async | nodelay | unrecognized => cases args <;> simp only [scanOptions, letter]

theorem attachedCount_cons (arg : CString) (args : List CString) :
    attachedCount (arg :: args) =
      match optionArg arg with
      | some (.tos []) => attachedCount args.tail
      | some (.tos (_ :: _)) => attachedCount args + 1
      | some .async | some .nodelay => attachedCount args
      | some .unrecognized | none => 0 := by
  cases args <;> simp only [attachedCount, List.tail_nil, List.tail_cons]

theorem attachedCount_le (args : List CString) : attachedCount args ≤ args.length := by
  fun_induction attachedCount args with
  | case1 | case2 | case7 | case8 => exact Nat.zero_le _
  | case3 arg bare value args ih =>
      simp only [List.length_cons]
      omega
  | case4 arg args c value attached ih => exact Nat.succ_le_succ ih
  | case5 arg args letter ih | case6 arg args letter ih =>
      simp only [List.length_cons]
      omega

theorem length_spellOut (args : List CString) :
    (spellOut args).length = args.length + attachedCount args := by
  fun_induction spellOut args with
  | case1 => rfl
  | case2 arg bare => simp [attachedCount_cons, bare, attachedCount]
  | case3 arg bare value args ih =>
      simp only [attachedCount_cons, bare, List.tail_cons, List.length_cons, ih]
      omega
  | case4 arg args c value attached ih =>
      have count : attachedCount (arg :: args) = attachedCount args + 1 := by
        rw [attachedCount_cons, attached]
      simp only [count, List.length_cons, ih]
      omega
  | case5 arg args letter ih | case6 arg args letter ih =>
      simp only [attachedCount_cons, letter, List.length_cons, ih]
      omega
  | case7 arg args stop | case8 arg args stop => simp only [attachedCount_cons, stop, Nat.add_zero]

theorem spellOut_of_none_attached {args : List CString} (none : attachedCount args = 0) :
    spellOut args = args := by
  fun_induction spellOut args with
  | case1 | case2 | case7 | case8 => rfl
  | case3 arg bare value args ih =>
      simp only [attachedCount_cons, bare, List.tail_cons] at none
      rw [ih none]
  | case4 arg args c value attached ih => simp [attachedCount_cons, attached] at none
  | case5 arg args letter ih | case6 arg args letter ih =>
      simp only [attachedCount_cons, letter] at none
      rw [ih none]

theorem scanOptions_spellOut (isUdp : Bool) (opts : UploadOptions) (args : List CString) :
    scanOptions isUdp opts (spellOut args) = scanOptions isUdp opts args := by
  fun_induction spellOut args generalizing opts with
  | case1 | case2 | case7 | case8 => rfl
  | case3 arg bare value args ih => simp only [scanOptions_cons, bare, ih]
  | case4 arg args c value attached ih =>
      have letter : optionArg ['-', 'S'] = some (.tos []) := rfl
      simp only [scanOptions_cons, letter, attached, ih]
  | case5 arg args letter ih | case6 arg args letter ih =>
      simp only [scanOptions_cons, letter, ih]

theorem setTos_missing (opts : UploadOptions) : opts.setTos (-1) = none := rfl

theorem optCnt_add (optCnt : UInt32) (step : Nat) {n total : Nat} (sum : total = step + n) :
    optCnt + UInt32.ofNat step + UInt32.ofNat n = optCnt + UInt32.ofNat total := by
  rw [sum, UInt32.ofNat_add, UInt32.add_assoc]

/-- The count is ahead of the elements that the loop takes by the attached values. -/
theorem scanOptions_optCnt {isUdp : Bool} {opts after : UploadOptions}
    {args rest : List CString} (accepted : scanOptions isUdp opts args = some (after, rest)) :
    ∃ taken, args = taken ++ rest ∧
      after.optCnt = opts.optCnt + UInt32.ofNat (taken.length + attachedCount args) := by
  fun_induction scanOptions isUdp opts args with
  | case1 opts =>
      obtain ⟨rfl, rfl⟩ := Prod.mk.inj (Option.some.inj accepted)
      exact ⟨[], rfl, by simp [attachedCount]⟩
  | case2 opts arg args stop =>
      obtain ⟨rfl, rfl⟩ := Prod.mk.inj (Option.some.inj accepted)
      exact ⟨[], rfl, by simp [attachedCount_cons, stop]⟩
  | case3 opts arg bare =>
      rw [setTos_missing] at accepted
      contradiction
  | case4 opts arg bare value args ih =>
      obtain ⟨mid, set, accepted⟩ := Option.bind_eq_some_iff.mp accepted
      obtain ⟨taken, rfl, count⟩ := ih mid accepted
      have none : attachedCount (arg :: value :: (taken ++ rest)) =
          attachedCount (taken ++ rest) := by
        rw [attachedCount_cons, bare, List.tail_cons]
      refine ⟨arg :: value :: taken, rfl, ?_⟩
      rw [count, UploadOptions.optCnt_setTos set, none]
      exact optCnt_add opts.optCnt 2 (by simp only [List.length_cons]; omega)
  | case5 opts arg args c value attached ih =>
      obtain ⟨mid, set, accepted⟩ := Option.bind_eq_some_iff.mp accepted
      obtain ⟨taken, rfl, count⟩ := ih mid accepted
      have one : attachedCount (arg :: (taken ++ rest)) = attachedCount (taken ++ rest) + 1 := by
        rw [attachedCount_cons, attached]
      refine ⟨arg :: taken, rfl, ?_⟩
      rw [count, UploadOptions.optCnt_setTos set, one]
      exact optCnt_add opts.optCnt 2 (by simp only [List.length_cons]; omega)
  | case6 opts arg args async ih =>
      obtain ⟨taken, rfl, count⟩ := ih accepted
      have none : attachedCount (arg :: (taken ++ rest)) = attachedCount (taken ++ rest) := by
        rw [attachedCount_cons, async]
      refine ⟨arg :: taken, rfl, ?_⟩
      rw [count, none]
      exact optCnt_add opts.optCnt 1 (by simp only [List.length_cons]; omega)
  | case7 opts arg args nodelay udp => contradiction
  | case8 opts arg args nodelay tcp ih =>
      obtain ⟨taken, rfl, count⟩ := ih accepted
      have none : attachedCount (arg :: (taken ++ rest)) = attachedCount (taken ++ rest) := by
        rw [attachedCount_cons, nodelay]
      refine ⟨arg :: taken, rfl, ?_⟩
      rw [count, none]
      exact optCnt_add opts.optCnt 1 (by simp only [List.length_cons]; omega)
  | case9 opts arg args unrecognized => contradiction

theorem positional_eq (argc optCnt : UInt32) :
    positional argc optCnt = followingPositional (optCnt.toNat + 1) ((argc - optCnt).toNat - 1) := by
  simp only [positional, followingPositional, gt_iff_lt, UInt32.lt_iff_toNat_lt, UInt32.reduceToNat]
  generalize (argc - optCnt).toNat = n
  by_cases few : n < 2
  · have zero : n - 1 = 0 := by omega
    rw [if_pos few, if_pos zero]
  · have positive : ¬ n - 1 = 0 := by omega
    rw [if_neg few, if_neg positive]
    simp only [Nat.lt_sub_iff_add_lt, Nat.reduceAdd]

/-- Where there are parameters, the same elements start at the same place. -/
theorem followingPositional_inj {first count first' count' : Nat}
    (same : followingPositional first count = followingPositional first' count') :
    (count = 0 ∧ count' = 0) ∨ first = first' := by
  simp only [followingPositional] at same
  by_cases zero : count = 0
  · by_cases zero' : count' = 0
    · exact .inl ⟨zero, zero'⟩
    · rw [if_pos zero, if_neg zero'] at same
      contradiction
  · by_cases zero' : count' = 0
    · rw [if_neg zero, if_pos zero'] at same
      contradiction
    · rw [if_neg zero, if_neg zero'] at same
      exact .inr (congrArg Positional.host (Option.some.inj same))

/-- The elements the parameters are read from are in `argv`. -/
def Positional.Inside (args : Positional) (length : Nat) : Prop :=
  args.host < length ∧ ∀ i, args.port = some i ∨ args.duration = some i ∨
    args.packetSize = some i ∨ args.rate = some i → i < length

theorem inside_followingPositional {first count : Nat} {args : Positional}
    (found : followingPositional first count = some args) : args.Inside (first + count) := by
  by_cases zero : count = 0
  · simp [followingPositional, zero] at found
  · simp only [followingPositional, if_neg zero] at found
    obtain rfl := Option.some.inj found
    refine ⟨by dsimp only; omega, fun i read => ?_⟩
    simp only [Option.ite_none_right_eq_some, Option.some.injEq] at read
    omega

theorem argAt_of_lt {argv : List CString} {i : Nat} (inside : i < argv.length) :
    argAt argv i = .ok argv[i] := by
  simp only [argAt, List.getElem?_eq_getElem inside]

theorem valueOr_ok {α : Type} {argv : List CString} {i : Option Nat} (read : CString → α)
    (default : α) (inside : ∀ j, i = some j → j < argv.length) :
    ∃ value, valueOr argv i read default = .ok value := by
  cases i with
  | none => exact ⟨default, rfl⟩
  | some i =>
      simp only [valueOr, argAt_of_lt (inside i rfl)]
      exact ⟨_, rfl⟩

/-- What `shell_cmd_upload` makes of the peer that is read from its elements. -/
theorem shellCmdUpload_inside {pton : InetPton} {isUdp : Bool} {argv rest : List CString}
    {opts : UploadOptions} {args : Positional}
    (accepted : scanOptions isUdp .initial argv.tail = some (opts, rest))
    (places : positional (UInt32.ofNat argv.length) opts.optCnt = some args)
    (inside : args.Inside argv.length) :
    ∃ (host port : CString) (param : UploadParams), argAt argv args.host = .ok host ∧
      valueOr argv args.port id defPortStr = .ok port ∧
      shellCmdUpload pton isUdp argv = .ok (match parsePeer pton host port with
        | none => .failed
        | some peer => .execute { param with peerAddr := some peer } isUdp opts.async) := by
  obtain ⟨hostInside, others⟩ := inside
  obtain ⟨port, portOk⟩ := valueOr_ok id defPortStr fun i h => others i (.inl h)
  obtain ⟨durationMs, durationOk⟩ := valueOr_ok (fun s => 1000 * (strtoul 10 s).1) 1000
    fun i h => others i (.inr (.inl h))
  obtain ⟨packetSize, sizeOk⟩ := valueOr_ok
    (fun s => (parseNumber s kUnits).toUInt32.toUInt16) 256
    fun i h => others i (.inr (.inr (.inl h)))
  obtain ⟨rateKbps, rateOk⟩ := valueOr_ok
    (fun s => ((parseNumber s kUnits + 1023) / 1024).toUInt32) 10
    fun i h => others i (.inr (.inr (.inr h)))
  have hostOk := argAt_of_lt hostInside
  refine ⟨argv[args.host], port, ⟨none, durationMs, rateKbps, packetSize, opts.tos,
    opts.tcpNodelay, -1⟩, hostOk, portOk, ?_⟩
  simp only [shellCmdUpload, accepted, places, portOk, hostOk, bind, Except.bind]
  cases parsePeer pton argv[args.host] port with
  | none => rfl
  | some peer =>
      simp only [durationOk, sizeOk, rateOk]
      rfl

theorem shellCmdUpload_failed {pton : InetPton} {isUdp : Bool} {argv rest : List CString}
    {opts : UploadOptions} (accepted : scanOptions isUdp .initial argv.tail = some (opts, rest))
    (places : positional (UInt32.ofNat argv.length) opts.optCnt = none) :
    shellCmdUpload pton isUdp argv = .ok .failed := by
  simp only [shellCmdUpload, accepted, places]

theorem toNat_argc_sub {length : Nat} {optCnt : UInt32} (bounded : length < 2 ^ 31) :
    (UInt32.ofNat length - optCnt).toNat =
      if optCnt.toNat ≤ length then length - optCnt.toNat
      else 2 ^ 32 + length - optCnt.toNat := by
  have own := optCnt.toNat_lt
  have size : UInt32.size = 2 ^ 32 := rfl
  rw [UInt32.toNat_sub, UInt32.toNat_ofNat_of_lt' (by omega)]
  split <;> omega

theorem toNat_optCnt {isUdp : Bool} {opts : UploadOptions} {args rest : List CString}
    (bounded : args.length < 2 ^ 30)
    (accepted : scanOptions isUdp .initial args = some (opts, rest)) :
    ∃ taken, taken + rest.length = args.length ∧
      opts.optCnt.toNat = taken + attachedCount args := by
  obtain ⟨taken, whole, count⟩ := scanOptions_optCnt accepted
  have length : taken.length + rest.length = args.length := by rw [whole, List.length_append]
  refine ⟨taken.length, length, ?_⟩
  have few := attachedCount_le args
  have zero : UploadOptions.initial.optCnt = 0 := rfl
  have size : UInt32.size = 2 ^ 32 := rfl
  rw [count, zero, UInt32.zero_add, UInt32.toNat_ofNat_of_lt' (by omega)]

theorem positional_none {length : Nat} {optCnt : UInt32} (bounded : length < 2 ^ 31)
    (few : optCnt.toNat = length ∨ optCnt.toNat + 1 = length) :
    positional (UInt32.ofNat length) optCnt = none := by
  rw [positional_eq, toNat_argc_sub bounded, if_pos (by omega)]
  have zero : length - optCnt.toNat - 1 = 0 := by omega
  rw [zero]
  rfl

theorem OptionsAside.of_none_attached {pton : InetPton} {isUdp : Bool} {cmd : CString}
    {args rest : List CString} {opts : UploadOptions} (bounded : (cmd :: args).length < 2 ^ 30)
    (accepted : scanOptions isUdp .initial args = some (opts, rest))
    (none : attachedCount args = 0) : OptionsAside pton isUdp (cmd :: args) opts rest := by
  have total : (cmd :: args).length = args.length + 1 := rfl
  obtain ⟨taken, length, count⟩ := toNat_optCnt (by omega) accepted
  have places : positional (UInt32.ofNat (cmd :: args).length) opts.optCnt =
      followingPositional ((cmd :: args).length - rest.length) rest.length := by
    rw [positional_eq, toNat_argc_sub (by omega), if_pos (by omega)]
    congr 1 <;> omega
  refine ⟨places, ?_, fun i outside => ?_⟩
  · rw [List.tail_cons, spellOut_of_none_attached none]
    rfl
  · cases found : positional (UInt32.ofNat (cmd :: args).length) opts.optCnt with
    | none =>
        rw [@shellCmdUpload_failed pton isUdp (cmd :: args) rest opts accepted found] at outside
        contradiction
    | some params =>
        have inside := inside_followingPositional (places.symm.trans found)
        rw [Nat.sub_add_cancel (by omega)] at inside
        obtain ⟨host, port, param, -, -, ok⟩ := @shellCmdUpload_inside pton isUdp (cmd :: args)
          rest opts params accepted found inside
        rw [ok] at outside
        contradiction

theorem OptionsAside.of_nothing_follows {pton : InetPton} {isUdp : Bool} {cmd : CString}
    {args : List CString} {opts : UploadOptions} (bounded : (cmd :: args).length < 2 ^ 30)
    (accepted : scanOptions isUdp .initial args = some (opts, []))
    (one : attachedCount args = 1) : OptionsAside pton isUdp (cmd :: args) opts [] := by
  have total : (cmd :: args).length = args.length + 1 := rfl
  obtain ⟨taken, length, count⟩ := toNat_optCnt (by omega) accepted
  have noRest : taken = args.length := length
  have places : positional (UInt32.ofNat (cmd :: args).length) opts.optCnt = none :=
    positional_none (by omega) (.inl (by omega))
  have failed := @shellCmdUpload_failed pton isUdp (cmd :: args) [] opts accepted places
  refine ⟨places, ?_, fun i outside => ?_⟩
  · have spelled : scanOptions isUdp .initial (spellOut args) = some (opts, []) :=
      (scanOptions_spellOut isUdp .initial args).trans accepted
    have longer : (cmd :: spellOut args).length = args.length + 2 := by
      rw [List.length_cons, length_spellOut, one]
    have places' : positional (UInt32.ofNat (cmd :: spellOut args).length) opts.optCnt = none :=
      positional_none (by omega) (.inr (by omega))
    rw [failed]
    exact @shellCmdUpload_failed pton isUdp (cmd :: spellOut args) [] opts spelled places'
  · rw [failed] at outside
    contradiction

theorem attached_of_optionsAside {pton : InetPton} {isUdp : Bool} {cmd : CString}
    {args rest : List CString} {opts : UploadOptions} (bounded : (cmd :: args).length < 2 ^ 30)
    (accepted : scanOptions isUdp .initial args = some (opts, rest))
    (aside : OptionsAside pton isUdp (cmd :: args) opts rest) :
    attachedCount args = 0 ∨ (attachedCount args = 1 ∧ rest = []) := by
  have total : (cmd :: args).length = args.length + 1 := rfl
  obtain ⟨taken, length, count⟩ := toNat_optCnt (by omega) accepted
  have few := attachedCount_le args
  have left := @toNat_argc_sub (cmd :: args).length opts.optCnt (by omega)
  have places := aside.places
  rw [positional_eq] at places
  cases followingPositional_inj places with
  | inl none =>
      obtain ⟨codeNone, noRest⟩ := none
      -- with two attached values or more, `argc` has gone below zero
      have atMostOne : attachedCount args ≤ 1 := by
        split at left <;> omega
      cases Nat.le_one_iff_eq_zero_or_eq_one.mp atMostOne with
      | inl none => exact .inl none
      | inr one => exact .inr ⟨one, List.eq_nil_of_length_eq_zero noRest⟩
  | inr same => exact .inl (by omega)

/-- The options are out of the way when none has its value attached, and when one has but
no parameters follow. -/
theorem optionsAside_iff (pton : InetPton) (isUdp : Bool) (argv rest : List CString)
    (opts : UploadOptions) (bounded : argv.length < 2 ^ 30)
    (accepted : scanOptions isUdp .initial argv.tail = some (opts, rest)) :
    OptionsAside pton isUdp argv opts rest ↔
      attachedCount argv.tail = 0 ∨ (attachedCount argv.tail = 1 ∧ rest = []) := by
  cases argv with
  | nil =>
      obtain ⟨rfl, rfl⟩ := Prod.mk.inj (Option.some.inj accepted)
      have inside (i : Nat) : shellCmdUpload pton isUdp [] ≠ .error i := fun h => by cases h
      exact ⟨fun _ => .inl rfl, fun _ => ⟨rfl, rfl, inside⟩⟩
  | cons cmd args =>
      constructor
      · exact attached_of_optionsAside bounded accepted
      · intro apart
        cases apart with
        | inl none => exact .of_none_attached bounded accepted none
        | inr one =>
            obtain ⟨one, rfl⟩ := one
            exact .of_nothing_follows bounded accepted one

def exampleHost : CString := ['1', '9', '2', '.', '0', '.', '2', '.', '1']

/-- What `inet_pton` says of the one text 192.0.2.1. -/
def examplePton : InetPton where
  inet host := if host = exampleHost then some 0xC0000201 else none
  inet6 _ := none

def exampleCommand : CString := ['u', 'd', 'p', '_', 'u', 'p', 'l', 'o', 'a', 'd']

theorem options_aside_of_bare_values :
    OptionsAside examplePton true [exampleCommand, ['-', 'S'], ['1', '6'], ['-', 'a'], exampleHost]
      ⟨16, 0, true, 3⟩ [exampleHost] :=
  (optionsAside_iff examplePton true _ [exampleHost] ⟨16, 0, true, 3⟩ (by decide)
    (by decide)).mpr (.inl (by decide))

/-- With `-S16` the host is not found, and with `-S16 -S17` the command reads element 6
of 3. -/
theorem attached_value_misplaces_host :
    scanOptions true .initial [['-', 'S', '1', '6'], exampleHost] =
        some (⟨16, 0, false, 2⟩, [exampleHost]) ∧
      ¬ OptionsAside examplePton true [exampleCommand, ['-', 'S', '1', '6'], exampleHost]
        ⟨16, 0, false, 2⟩ [exampleHost] ∧
      shellCmdUpload examplePton true [exampleCommand, ['-', 'S', '1', '6'], exampleHost] =
        .ok .failed ∧
      shellCmdUpload examplePton true [exampleCommand, ['-', 'S', '1', '6'], ['-', 'S', '1', '7']] =
        .error 6 := by
  refine ⟨by decide, fun aside => ?_, by decide, by decide⟩
  exact absurd aside.places (by decide)

end Zperf
