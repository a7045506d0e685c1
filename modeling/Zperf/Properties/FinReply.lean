import Zperf.Core.UdpUploader

/-!
Success of `zperf_upload_fin` and the reply it stands on.

The loop is left with any datagram of at least one byte, and after the second attempt in
any case. The statistics are decoded whatever the length, and an empty datagram in the
second attempt leaves zero behind, the value of success.
-/

namespace Zperf

/-- The datagram that an attempt receives. -/
def FinTurn.reply (t : FinTurn) : Option (List UInt8) :=
  if t.send < 0 ∨ t.setsockopt < 0 then none else t.recv.toOption

def FinTurn.replyLength (t : FinTurn) : Nat :=
  (t.reply.map List.length).getD 0

/-- The attempts that the loop makes: a second one if the first receives no byte. -/
def attemptsMade : List FinTurn → List FinTurn
  | t :: u :: _ => if 0 < t.replyLength then [t] else [t, u]
  | turns => turns

/-- Success only with the statistics of a whole reply, and otherwise an error and the
results left alone. -/
structure HonestFin (turns : List FinTurn) (before : Results) (ret : Int) (after : Results) :
    Prop where
  succeeded : ret = 0 → ∃ t ∈ attemptsMade turns, ∃ data ∈ t.reply, sizeofStats ≤ data.length ∧
    after = zperfUploadDecodeStat (data.take sizeofStats) before
  failed : ret ≠ 0 → ret < 0 ∧ after = before

/-- The attempt that the loop ends with receives no datagram of fewer bytes than the
statistics take. -/
def EndsWhole (turns : List FinTurn) : Prop :=
  ∀ t ∈ (attemptsMade turns).getLast?, ∀ data ∈ t.reply, sizeofStats ≤ data.length

theorem finAttempt_none {s : FinLoop} {t : FinTurn} (h : t.reply = none) :
    (finAttempt s t).ret < 0 ∧ (finAttempt s t).stats = s.stats := by
  unfold FinTurn.reply at h
  unfold finAttempt
  split
  · rename_i failed
    exact ⟨failed, rfl⟩
  · split
    · rename_i failed
      exact ⟨failed, rfl⟩
    · rename_i sent set
      rw [if_neg (by omega)] at h
      cases answer : t.recv with
      | error ret => exact ⟨ret.property, rfl⟩
      | ok data => simp [answer, Except.toOption] at h

theorem finAttempt_some {s : FinLoop} {t : FinTurn} {data : List UInt8}
    (h : t.reply = some data) :
    finAttempt s t = ⟨(data.take sizeofStats).length,
      data.take sizeofStats ++ s.stats.drop (data.take sizeofStats).length⟩ := by
  unfold FinTurn.reply at h
  split at h
  · simp at h
  · rename_i both
    unfold finAttempt
    rw [if_neg (by omega), if_neg (by omega)]
    cases answer : t.recv with
    | error ret => simp [answer, Except.toOption] at h
    | ok data' =>
        simp only [answer, Except.toOption, Option.some.injEq] at h
        rw [h]

/-- An attempt is not told how the one before it ended. -/
theorem finAttempt_ret (s : FinLoop) (ret : Int) (t : FinTurn) :
    finAttempt { s with ret := ret } t = finAttempt s t := by
  unfold finAttempt
  split
  · rfl
  · split
    · rfl
    · split <;> rfl

theorem finAttempt_lost {s : FinLoop} {t : FinTurn} (h : t.replyLength = 0) :
    (finAttempt s t).ret ≤ 0 ∧ (finAttempt s t).stats = s.stats := by
  cases answer : t.reply with
  | none =>
      have failed := @finAttempt_none s t answer
      exact ⟨failed.1.le, failed.2⟩
  | some data =>
      have empty : data = [] := by simpa [FinTurn.replyLength, answer] using h
      simp [finAttempt_some answer, empty]

theorem finAttempt_got {s : FinLoop} {t : FinTurn} (h : 0 < t.replyLength) :
    0 < (finAttempt s t).ret := by
  cases answer : t.reply with
  | none => simp [FinTurn.replyLength, answer] at h
  | some data =>
      have some : 0 < data.length := by simpa [FinTurn.replyLength, answer] using h
      rw [finAttempt_some answer, List.length_take, sizeofStats]
      simp only [sizeofUdpDatagram, sizeofServerHdr]
      omega

/-- The loop leaves what its last attempt made of the empty buffer. -/
theorem finLoop_last {turns : List FinTurn} {s : FinLoop}
    (h : finLoop 2 .start turns = some s) :
    ∃ t, (attemptsMade turns).getLast? = some t ∧ s = finAttempt .start t := by
  cases turns with
  | nil => simp [finLoop, FinLoop.start] at h
  | cons t rest =>
      have first : finLoop 1 (finAttempt .start t) rest = some s := by
        simpa [finLoop, FinLoop.start] using h
      by_cases got : 0 < t.replyLength
      · have positive := @finAttempt_got .start t got
        have left : finAttempt .start t = s := by
          simpa [finLoop, Int.not_le.mpr positive] using first
        refine ⟨t, ?_, left.symm⟩
        cases rest with
        | nil => rfl
        | cons u _ => simp [attemptsMade, got]
      · have lost := @finAttempt_lost .start t (by omega)
        cases rest with
        | nil => simp [finLoop, lost.1] at first
        | cons u _ =>
            have second : finAttempt (finAttempt .start t) u = s := by
              simpa [finLoop, lost.1] using first
            refine ⟨u, by simp [attemptsMade, got], ?_⟩
            rw [← second, ← finAttempt_ret .start (finAttempt .start t).ret u]
            congr 1
            cases after : finAttempt .start t with
            | mk ret stats =>
                rw [after] at lost
                rw [← lost.2]

theorem attemptsMade_last {turns : List FinTurn} {t u : FinTurn}
    (last : (attemptsMade turns).getLast? = some t) (made : u ∈ attemptsMade turns) :
    u = t ∨ u.replyLength = 0 := by
  match turns with
  | [] => simp [attemptsMade] at made
  | [v] =>
      simp only [attemptsMade, List.getLast?_singleton, Option.some.injEq,
        List.mem_singleton] at last made
      exact .inl (made.trans last)
  | v :: w :: rest =>
      by_cases got : 0 < v.replyLength
      · simp only [attemptsMade, if_pos got, List.getLast?_singleton, Option.some.injEq,
          List.mem_singleton] at last made
        exact .inl (made.trans last)
      · simp only [attemptsMade, if_neg got, List.mem_cons, List.not_mem_nil, or_false] at made
        have second : w = t := by simpa [attemptsMade, got] using last
        cases made with
        | inl first =>
            right
            rw [first]
            omega
        | inr later => exact .inl (later.trans second)

theorem zperfUploadFin_eq {turns : List FinTurn}
    {spurious : List (Except SockError (List UInt8))} {before after : Results} {ret : Int}
    (returned : zperfUploadFin turns spurious before = some (ret, after)) :
    ∃ t, (attemptsMade turns).getLast? = some t ∧
      if 0 < (finAttempt .start t).ret then
        ret = 0 ∧ after = zperfUploadDecodeStat (finAttempt .start t).stats before
      else ret = (finAttempt .start t).ret ∧ after = before := by
  unfold zperfUploadFin at returned
  cases loop : finLoop 2 .start turns with
  | none => simp [loop] at returned
  | some s =>
      obtain ⟨t, last, rfl⟩ := finLoop_last loop
      refine ⟨t, last, ?_⟩
      rw [loop] at returned
      dsimp only at returned
      split at returned
      · rename_i got
        rw [if_pos got]
        split at returned
        · obtain ⟨rfl, rfl⟩ := Prod.mk.inj (Option.some.inj returned)
          exact ⟨rfl, rfl⟩
        · simp at returned
      · rename_i lost
        rw [if_neg lost]
        obtain ⟨rfl, rfl⟩ := Prod.mk.inj (Option.some.inj returned)
        exact ⟨rfl, rfl⟩

/-- What becomes of the reply that the loop ends with: none, a whole one, or a short one. -/
theorem zperfUploadFin_cases {turns : List FinTurn}
    {spurious : List (Except SockError (List UInt8))} {before after : Results} {ret : Int}
    (returned : zperfUploadFin turns spurious before = some (ret, after)) :
    ∃ t, (attemptsMade turns).getLast? = some t ∧
      ((t.reply = none ∧ ret < 0 ∧ after = before) ∨
        ∃ data, t.reply = some data ∧ ret = 0 ∧ (sizeofStats ≤ data.length →
          after = zperfUploadDecodeStat (data.take sizeofStats) before)) := by
  obtain ⟨t, last, outcome⟩ := zperfUploadFin_eq returned
  refine ⟨t, last, ?_⟩
  cases answer : t.reply with
  | none =>
      have failed := @finAttempt_none .start t answer
      rw [if_neg (by omega)] at outcome
      obtain ⟨rfl, rfl⟩ := outcome
      exact .inl ⟨rfl, failed.1, rfl⟩
  | some data =>
      have attempt := @finAttempt_some .start t data answer
      have buffer : FinLoop.start.stats.length = sizeofStats := List.length_replicate
      refine .inr ⟨data, rfl, ?_, fun whole => ?_⟩
      · split at outcome
        · exact outcome.1
        · rename_i lost
          rw [outcome.1]
          rw [attempt] at lost ⊢
          dsimp only at lost ⊢
          omega
      · have full : (data.take sizeofStats).length = sizeofStats :=
          List.length_take_of_le whole
        rw [full, List.drop_eq_nil_of_le buffer.le, List.append_nil] at attempt
        have positive : (0 : Int) < sizeofStats := by decide
        rw [attempt, if_pos positive] at outcome
        exact outcome.2

/-- The outcome is honest exactly when the loop does not end with a short reply. -/
theorem honestFin_iff (turns : List FinTurn) (spurious : List (Except SockError (List UInt8)))
    (before after : Results) (ret : Int)
    (returned : zperfUploadFin turns spurious before = some (ret, after)) :
    HonestFin turns before ret after ↔ EndsWhole turns := by
  obtain ⟨t, last, outcome⟩ := zperfUploadFin_cases returned
  have ends : EndsWhole turns ↔ ∀ data ∈ t.reply, sizeofStats ≤ data.length := by
    simp [EndsWhole, last]
  rw [ends]
  cases outcome with
  | inl lost =>
      obtain ⟨answer, negative, same⟩ := lost
      refine ⟨fun _ data reply => by simp [answer] at reply, fun _ => ⟨fun zero => ?_, fun _ => ?_⟩⟩
      · omega
      · exact ⟨negative, same⟩
  | inr got =>
      obtain ⟨data, answer, zero, decoded⟩ := got
      constructor
      · intro honest data' reply
        obtain ⟨u, made, data'', reply', long, -⟩ := honest.succeeded zero
        have positive : 0 < sizeofStats := by decide
        cases attemptsMade_last last made with
        | inl same =>
            rw [same, reply] at reply'
            rw [Option.some.inj reply']
            exact long
        | inr none =>
            have length : u.replyLength = data''.length := by
              simp [FinTurn.replyLength, Option.mem_def.mp reply']
            omega
      · intro whole
        have long := whole data answer
        exact ⟨fun _ => ⟨t, List.mem_of_getLast? last, data, answer, long, decoded long⟩,
          fun nonzero => absurd zero nonzero⟩

/-- A reply that is lost, and a whole one. -/
theorem honestFin_second_attempt :
    HonestFin [⟨52, 0, .error ⟨-1, by decide⟩⟩, ⟨52, 0, .ok (List.replicate 52 1)⟩] .zero 0
      (zperfUploadDecodeStat (List.replicate 52 1) .zero) :=
  (honestFin_iff _ [.error ⟨-1, by decide⟩] .zero _ 0 rfl).mpr (by
    intro t last data reply
    obtain rfl := Option.some.inj last
    obtain rfl := Option.some.inj reply
    decide)

/-- Success without statistics: an empty datagram in the second attempt, and one byte. -/
theorem fin_succeeds_without_statistics :
    (zperfUploadFin [⟨52, 0, .ok []⟩, ⟨52, 0, .ok []⟩] [.error ⟨-1, by decide⟩] .zero =
        some (0, .zero) ∧
      ¬ HonestFin [⟨52, 0, .ok []⟩, ⟨52, 0, .ok []⟩] .zero 0 .zero) ∧
    ∃ after, zperfUploadFin [⟨52, 0, .ok [1]⟩] [.error ⟨-1, by decide⟩] .zero = some (0, after) ∧
      ¬ HonestFin [⟨52, 0, .ok [1]⟩] .zero 0 after := by
  refine ⟨⟨rfl, ?_⟩, _, rfl, ?_⟩
  · intro honest
    obtain ⟨t, made, data, reply, long, -⟩ := honest.succeeded rfl
    have made : t = ⟨52, 0, .ok []⟩ := by
      simpa [attemptsMade, FinTurn.replyLength, FinTurn.reply, Except.toOption] using made
    subst made
    obtain rfl := Option.some.inj reply
    exact absurd long (by decide)
  · intro honest
    obtain ⟨t, made, data, reply, long, -⟩ := honest.succeeded rfl
    obtain rfl := List.mem_singleton.mp made
    obtain rfl := Option.some.inj reply
    exact absurd long (by decide)

end Zperf
