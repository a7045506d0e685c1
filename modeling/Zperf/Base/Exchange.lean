import Zperf.Base.Machine

/-!
Two parties that talk through a network which loses, duplicates and reorders.

What has been sent is never taken out of the network: a message is delivered late, twice
or never by choosing which one arrives next. A contract says what the parties keep and
what holds of the messages on their way, and it holds along every run.
-/

namespace Base

/-- The two parties, and all messages sent so far in either direction. -/
structure Exchange (σ τ μ ν : Type*) where
  left : σ
  right : τ
  toRight : List μ
  toLeft : List ν

/-- A step of a party by itself, or the arrival of a message that has been sent, with what
the right party reads along with it. -/
inductive ExchangeStep (α β γ : Type*) where
  | left (a : α)
  | right (b : β)
  | reachRight (i : Nat) (c : γ)
  | reachLeft (i : Nat)
  deriving DecidableEq, Repr

inductive ExchangeEvent (μ ν ω : Type*) where
  | sent (m : μ)
  | reachedRight (m : μ)
  | reachedLeft (n : ν)
  | happened (w : ω)
  deriving DecidableEq, Repr

variable {σ τ α β γ μ ν ω : Type*}

/-- How many messages the left party has sent. -/
def sentCount (log : List (ExchangeEvent μ ν ω)) : Nat :=
  log.countP fun
    | .sent _ => true
    | _ => false

/-- How many messages have arrived at the right party. -/
def reachedCount (log : List (ExchangeEvent μ ν ω)) : Nat :=
  log.countP fun
    | .reachedRight _ => true
    | _ => false

theorem sentCount_append (log log' : List (ExchangeEvent μ ν ω)) :
    sentCount (log ++ log') = sentCount log + sentCount log' :=
  List.countP_append

theorem reachedCount_append (log log' : List (ExchangeEvent μ ν ω)) :
    reachedCount (log ++ log') = reachedCount log + reachedCount log' :=
  List.countP_append

theorem sentCount_sent (ms : List μ) :
    sentCount (ms.map (.sent : μ → ExchangeEvent μ ν ω)) = ms.length := by
  simp [sentCount, List.countP_map]

theorem sentCount_happened (ws : List ω) :
    sentCount (ws.map (.happened : ω → ExchangeEvent μ ν ω)) = 0 := by
  simp [sentCount, List.countP_map]

theorem reachedCount_sent (ms : List μ) :
    reachedCount (ms.map (.sent : μ → ExchangeEvent μ ν ω)) = 0 := by
  simp [reachedCount, List.countP_map]

theorem reachedCount_happened (ws : List ω) :
    reachedCount (ws.map (.happened : ω → ExchangeEvent μ ν ω)) = 0 := by
  simp [reachedCount, List.countP_map]

/-- The arrival that a step begins with. -/
def arrivedLeft : α ⊕ ν → List (ExchangeEvent μ ν ω)
  | .inl _ => []
  | .inr n => [.reachedLeft n]

def arrivedRight : β ⊕ μ × γ → List (ExchangeEvent μ ν ω)
  | .inl _ => []
  | .inr (m, _) => [.reachedRight m]

/-- How the parties go on, by themselves or with a message; what the right party does can
be seen, and part of it are messages. -/
structure Parties (σ τ α β γ μ ν ω : Type*) where
  left : σ → α ⊕ ν → List μ × σ
  right : τ → β ⊕ μ × γ → List ω × τ
  message : ω → Option ν

namespace Parties

variable (parties : Parties σ τ α β γ μ ν ω)

/-- What is seen of a step of the left party. -/
def leftEvents (s : σ) (x : α ⊕ ν) : List (ExchangeEvent μ ν ω) :=
  arrivedLeft x ++ (parties.left s x).1.map .sent

def rightEvents (t : τ) (x : β ⊕ μ × γ) : List (ExchangeEvent μ ν ω) :=
  arrivedRight x ++ (parties.right t x).1.map .happened

@[simp] theorem sentCount_leftEvents (s : σ) (x : α ⊕ ν) :
    sentCount (parties.leftEvents s x) = (parties.left s x).1.length := by
  rw [leftEvents, sentCount_append, sentCount_sent]
  cases x <;> exact Nat.zero_add _

@[simp] theorem reachedCount_leftEvents (s : σ) (x : α ⊕ ν) :
    reachedCount (parties.leftEvents s x) = 0 := by
  rw [leftEvents, reachedCount_append, reachedCount_sent]
  cases x <;> rfl

@[simp] theorem sentCount_rightEvents (t : τ) (x : β ⊕ μ × γ) :
    sentCount (parties.rightEvents t x) = 0 := by
  rw [rightEvents, sentCount_append, sentCount_happened]
  cases x <;> rfl

@[simp] theorem reachedCount_rightEvents_inl (t : τ) (b : β) :
    reachedCount (parties.rightEvents t (.inl b)) = 0 := by
  rw [rightEvents, reachedCount_append, reachedCount_happened]
  rfl

@[simp] theorem reachedCount_rightEvents_inr (t : τ) (x : μ × γ) :
    reachedCount (parties.rightEvents t (.inr x)) = 1 := by
  rw [rightEvents, reachedCount_append, reachedCount_happened]
  rfl

def stepLeft (e : Exchange σ τ μ ν) (x : α ⊕ ν) :
    List (ExchangeEvent μ ν ω) × Option (Exchange σ τ μ ν) :=
  (parties.leftEvents e.left x,
    some { e with
      left := (parties.left e.left x).2
      toRight := e.toRight ++ (parties.left e.left x).1 })

def stepRight (e : Exchange σ τ μ ν) (x : β ⊕ μ × γ) :
    List (ExchangeEvent μ ν ω) × Option (Exchange σ τ μ ν) :=
  (parties.rightEvents e.right x,
    some { e with
      right := (parties.right e.right x).2
      toLeft := e.toLeft ++ (parties.right e.right x).1.filterMap parties.message })

/-- Any interleaving of the two parties and the network. -/
def exchange : Machine (Exchange σ τ μ ν) (ExchangeStep α β γ) (ExchangeEvent μ ν ω) where
  step e x :=
    match x with
    | .left a => parties.stepLeft e (.inl a)
    | .right b => parties.stepRight e (.inl b)
    | .reachRight i c =>
        match e.toRight[i]? with
        | none => ([], some e)
        | some m => parties.stepRight e (.inr (m, c))
    | .reachLeft i =>
        match e.toLeft[i]? with
        | none => ([], some e)
        | some n => parties.stepLeft e (.inr n)

/-- Everything a step can do: nothing, or one party goes on, and a message it goes on with
has been sent. -/
theorem exchange_step {e e' : Exchange σ τ μ ν} {x : ExchangeStep α β γ}
    {out : List (ExchangeEvent μ ν ω)} (h : parties.exchange.step e x = (out, some e')) :
    (out = [] ∧ e' = e) ∨
    (∃ y, (∀ n, y = .inr n → n ∈ e.toLeft) ∧ (out, some e') = parties.stepLeft e y) ∨
    (∃ y, (∀ m c, y = .inr (m, c) → m ∈ e.toRight) ∧ (∀ b, y = .inl b → x = .right b) ∧
      (out, some e') = parties.stepRight e y) := by
  cases x with
  | left a => exact .inr (.inl ⟨.inl a, fun _ h => absurd h (by simp), h.symm⟩)
  | right b =>
      refine .inr (.inr ⟨.inl b, fun _ _ h => absurd h (by simp), fun b' same => ?_, h.symm⟩)
      rw [Sum.inl.inj same]
  | reachRight i c =>
      simp only [exchange] at h
      split at h
      · obtain ⟨rfl, rfl⟩ := goesOn_inj h
        exact .inl ⟨rfl, rfl⟩
      · rename_i m found
        refine .inr (.inr ⟨.inr (m, c), fun m' c' same => ?_, fun _ h => absurd h (by simp), h.symm⟩)
        obtain ⟨rfl, -⟩ := Prod.mk.inj (Sum.inr.inj same)
        exact List.mem_of_getElem? found
  | reachLeft i =>
      simp only [exchange] at h
      split at h
      · obtain ⟨rfl, rfl⟩ := goesOn_inj h
        exact .inl ⟨rfl, rfl⟩
      · rename_i n found
        refine .inr (.inl ⟨.inr n, fun n' same => ?_, h.symm⟩)
        rw [← Sum.inr.inj same]
        exact List.mem_of_getElem? found

end Parties

/-- What holds of the two parties, and of the messages on their way in either direction,
after what has been seen. -/
structure Terms (σ τ μ ν ω : Type*) where
  parties : List (ExchangeEvent μ ν ω) → σ → τ → Prop
  request : List (ExchangeEvent μ ν ω) → σ → μ → Prop
  reply : List (ExchangeEvent μ ν ω) → σ → ν → Prop

namespace Terms

variable (terms : Terms σ τ μ ν ω)

structure Hold (log : List (ExchangeEvent μ ν ω)) (e : Exchange σ τ μ ν) : Prop where
  parties : terms.parties log e.left e.right
  requests : ∀ m ∈ e.toRight, terms.request log e.left m
  replies : ∀ n ∈ e.toLeft, terms.reply log e.left n

/-- What is said of messages on their way stays true. -/
structure Stable (log log' : List (ExchangeEvent μ ν ω)) (s s' : σ) : Prop where
  request : ∀ m, terms.request log s m → terms.request log' s' m
  reply : ∀ n, terms.reply log s n → terms.reply log' s' n

end Terms

/-- Each party relies on the terms for what it receives and keeps them. -/
structure Contract (parties : Parties σ τ α β γ μ ν ω) (allowed : ExchangeStep α β γ → Prop)
    (terms : Terms σ τ μ ν ω) : Prop where
  left : ∀ log s t x, terms.parties log s t → (∀ n, x = .inr n → terms.reply log s n) →
    terms.parties (log ++ parties.leftEvents s x) (parties.left s x).2 t ∧
    terms.Stable log (log ++ parties.leftEvents s x) s (parties.left s x).2 ∧
    ∀ m ∈ (parties.left s x).1,
      terms.request (log ++ parties.leftEvents s x) (parties.left s x).2 m
  right : ∀ log s t x, terms.parties log s t → (∀ m c, x = .inr (m, c) → terms.request log s m) →
    (∀ b, x = .inl b → allowed (.right b)) →
    terms.parties (log ++ parties.rightEvents t x) s (parties.right t x).2 ∧
    terms.Stable log (log ++ parties.rightEvents t x) s s ∧
    ∀ w ∈ (parties.right t x).1, ∀ n, parties.message w = some n →
      terms.reply (log ++ parties.rightEvents t x) s n

namespace Contract

variable {parties : Parties σ τ α β γ μ ν ω} {allowed : ExchangeStep α β γ → Prop}
  {terms : Terms σ τ μ ν ω}

theorem step (contract : Contract parties allowed terms) {log out : List (ExchangeEvent μ ν ω)}
    {e e' : Exchange σ τ μ ν} {x : ExchangeStep α β γ} (hold : terms.Hold log e)
    (ok : allowed x) (h : parties.exchange.step e x = (out, some e')) :
    terms.Hold (log ++ out) e' := by
  rcases parties.exchange_step h with ⟨rfl, rfl⟩ | ⟨y, received, eq⟩ | ⟨y, received, own, eq⟩
  · rwa [List.append_nil]
  · obtain ⟨rfl, rfl⟩ := goesOn_inj eq
    obtain ⟨kept, stable, sends⟩ := contract.left log e.left e.right y hold.parties
      fun n same => hold.replies n (received n same)
    refine ⟨kept, fun m hm => ?_, fun n hn => stable.reply n (hold.replies n hn)⟩
    rcases List.mem_append.mp hm with before | new
    · exact stable.request m (hold.requests m before)
    · exact sends m new
  · obtain ⟨rfl, rfl⟩ := goesOn_inj eq
    obtain ⟨kept, stable, sends⟩ := contract.right log e.left e.right y hold.parties
      (fun m c same => hold.requests m (received m c same))
      fun b same => by rwa [← own b same]
    refine ⟨kept, fun m hm => stable.request m (hold.requests m hm), fun n hn => ?_⟩
    rcases List.mem_append.mp hn with before | new
    · exact stable.reply n (hold.replies n before)
    · obtain ⟨w, seen, message⟩ := List.mem_filterMap.mp new
      exact sends w seen n message

/-- A contract holds along every run. -/
theorem reaches (contract : Contract parties allowed terms) {e e' : Exchange σ τ μ ν}
    {steps : List (ExchangeStep α β γ)} {log : List (ExchangeEvent μ ν ω)}
    (start : terms.Hold [] e) (ok : ∀ x ∈ steps, allowed x)
    (run : parties.exchange.Reaches e steps log e') : terms.Hold log e' :=
  @Machine.Reaches.invariant_along _ _ _ parties.exchange (fun _ _ => allowed)
    (fun _ emitted e => terms.Hold emitted e)
    (fun _ _ _ _ _ _ hold here h => contract.step hold here h) _ _ [] _ [] _ start
    (Machine.Along.of_forall ok _ _) run

end Contract

end Base
