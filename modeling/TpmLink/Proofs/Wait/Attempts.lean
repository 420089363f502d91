import TpmLink.Proofs.Wait.Record

/-!
# Which attempts are made

Attempts are numbered from one and repeated while they time out. All that is called can be listed
from the number of the last attempt alone: each attempt before it together with what is done before
the next, and then the last one, whose outcome is the result.
-/

namespace TpmLink

/-- What a repeated attempt calls. -/
inductive AttemptCall where
  | attempt (number : Nat)
  | beforeRetry (number : Nat) (failure : Failure)
  deriving DecidableEq, Repr

namespace Attempts

variable {σ α : Type} (beforeRetry : Nat → Failure → σ → σ)
  (body : Nat → σ → Except Failure α × σ)

/-- An attempt on record. -/
def recordedBody (number : Nat) : Recorded σ AttemptCall α :=
  Recorded.call (.attempt number) (body number)

/-- What is done before the next attempt, on record. -/
def recordedBeforeRetry (number : Nat) (failure : Failure) : Recorded σ AttemptCall Unit :=
  Recorded.call (.beforeRetry number failure) fun world =>
    (.ok (), beforeRetry number failure world)

/-- The calls of attempts with these numbers that time out and are followed by another. -/
def lostCalls (numbers : List Nat) : List AttemptCall :=
  numbers.flatMap fun number => [.attempt number, .beforeRetry number .timeout]

theorem lostCalls_cons (number : Nat) (numbers : List Nat) :
    lostCalls (number :: numbers) =
      .attempt number :: .beforeRetry number .timeout :: lostCalls numbers := rfl

/-- What such attempts leave of the world. -/
def worldBehind (numbers : List Nat) (world : σ) : σ :=
  numbers.foldl (fun world number => beforeRetry number .timeout (body number world).2) world

/-- The attempt that is made when `lost` attempts from `first` on have timed out. -/
def attemptBehind (first lost : Nat) (world : σ) : Except Failure α × σ :=
  body (first + lost) (worldBehind beforeRetry body (List.range' first lost) world)

theorem attemptBehind_succ (first lost : Nat) (world : σ) :
    attemptBehind beforeRetry body first (lost + 1) world =
      attemptBehind beforeRetry body (first + 1) lost
        (beforeRetry first .timeout (body first world).2) := by
  have hnumber : first + (lost + 1) = first + 1 + lost := by omega
  simp only [attemptBehind, worldBehind, hnumber, List.range'_succ, List.foldl_cons]

/-! ### One attempt -/

section
variable {beforeRetry body} {first left : Nat} {world : σ}

/-- An attempt that does not time out is the last one. -/
theorem run_retryFrom_of_settled (h : (body first world).1 ≠ .error .timeout) :
    retryFrom (recordedBeforeRetry beforeRetry) (recordedBody body) first (left + 1) world =
      ((body first world).1, (body first world).2, [.attempt first]) := by
  have hbody : recordedBody body first world =
      ((body first world).1, (body first world).2, [.attempt first]) := rfl
  rw [retryFrom]
  cases hresult : (body first world).1 with
  | ok value =>
    rw [hresult] at hbody
    exact Recorded.run_tryCatch_of_ok _ hbody
  | error failure =>
    rw [hresult] at hbody
    rw [Recorded.run_tryCatch_of_error _ hbody]
    cases failure with
    | timeout => exact absurd hresult h
    | _ => rfl

/-- An attempt that times out is followed by the next one. -/
theorem run_retryFrom_of_timeout (h : (body first world).1 = .error .timeout) :
    retryFrom (recordedBeforeRetry beforeRetry) (recordedBody body) first (left + 1) world =
      let rest := retryFrom (recordedBeforeRetry beforeRetry) (recordedBody body) (first + 1) left
        (beforeRetry first .timeout (body first world).2)
      (rest.1, rest.2.1, .attempt first :: .beforeRetry first .timeout :: rest.2.2) := by
  have hbody : recordedBody body first world =
      (.error .timeout, (body first world).2, [.attempt first]) := by
    rw [← h]
    rfl
  have hbefore : recordedBeforeRetry beforeRetry first .timeout (body first world).2 =
      (.ok (), beforeRetry first .timeout (body first world).2, [.beforeRetry first .timeout]) :=
    rfl
  rw [retryFrom, Recorded.run_tryCatch_of_error _ hbody]
  simp only [Recorded.run_bind_of_ok _ hbefore, List.cons_append, List.nil_append]

end

/-! ### Attempt after attempt -/

/-- Attempts from `first` on, with `left` more allowed, time out so many times, and what that comes
to. -/
structure Repeats (first left lost : Nat) (world : σ)
    (seen : Except Failure α × σ × List AttemptCall) : Prop where
  le : lost ≤ left
  timedOut : ∀ earlier < lost,
    (attemptBehind beforeRetry body first earlier world).1 = .error .timeout
  ends : (attemptBehind beforeRetry body first lost world).1 = .error .timeout → lost = left
  seen_eq : seen = ((attemptBehind beforeRetry body first lost world).1,
    (attemptBehind beforeRetry body first lost world).2,
    lostCalls (List.range' first lost) ++ [.attempt (first + lost)])

variable {beforeRetry body}

/-- An attempt that is not repeated. -/
theorem Repeats.last {first left : Nat} {world : σ}
    (h : (body first world).1 = .error .timeout → left = 0) :
    Repeats beforeRetry body first left 0 world
      ((body first world).1, (body first world).2, [.attempt first]) where
  le := Nat.zero_le left
  timedOut _ hearlier := absurd hearlier (Nat.not_lt_zero _)
  ends hlast := (h hlast).symm
  seen_eq := rfl

/-- An attempt that times out, and those that follow it. -/
theorem Repeats.again {first left lost : Nat} {world : σ}
    {rest : Except Failure α × σ × List AttemptCall}
    (htimeout : (body first world).1 = .error .timeout)
    (h : Repeats beforeRetry body (first + 1) left lost
      (beforeRetry first .timeout (body first world).2) rest) :
    Repeats beforeRetry body first (left + 1) (lost + 1) world
      (rest.1, rest.2.1, .attempt first :: .beforeRetry first .timeout :: rest.2.2) where
  le := Nat.succ_le_succ h.le
  timedOut earlier hearlier := by
    cases earlier with
    | zero => exact htimeout
    | succ earlier =>
      rw [attemptBehind_succ]
      exact h.timedOut earlier (Nat.lt_of_succ_lt_succ hearlier)
  ends hlast := by
    rw [attemptBehind_succ] at hlast
    rw [h.ends hlast]
  seen_eq := by
    have hnumber : first + (lost + 1) = first + 1 + lost := by omega
    rw [attemptBehind_succ, h.seen_eq, hnumber, List.range'_succ, lostCalls_cons]
    rfl

variable (beforeRetry body)

/-- Attempts from `first` on are repeated while they time out and more are allowed. -/
theorem exists_repeats (first left : Nat) (world : σ) :
    ∃ lost, Repeats beforeRetry body first left lost world
      (retryFrom (recordedBeforeRetry beforeRetry) (recordedBody body) first left world) := by
  induction left generalizing first world with
  | zero => exact ⟨0, .last fun _ => rfl⟩
  | succ left ih =>
    by_cases htimeout : (body first world).1 = .error .timeout
    · rw [run_retryFrom_of_timeout htimeout]
      obtain ⟨lost, hrest⟩ := ih (first + 1) (beforeRetry first .timeout (body first world).2)
      exact ⟨lost + 1, hrest.again htimeout⟩
    · rw [run_retryFrom_of_settled htimeout]
      exact ⟨0, .last fun h => absurd h htimeout⟩

/-! ### Attempts from one -/

/-- The attempt with a number, where all attempts before it have timed out. -/
def attemptAt (number : Nat) (world : σ) : Except Failure α × σ :=
  body number (worldBehind beforeRetry body (List.range' 1 (number - 1)) world)

/-- The attempts up to the last one. It is the first that does not time out, or the last allowed. -/
structure Retried (attempts last : Nat) (world : σ)
    (seen : Except Failure α × σ × List AttemptCall) : Prop where
  one_le : 1 ≤ last
  le : last ≤ max 1 attempts
  timedOut : ∀ number, 1 ≤ number → number < last →
    (attemptAt beforeRetry body number world).1 = .error .timeout
  ends : (attemptAt beforeRetry body last world).1 ≠ .error .timeout ∨ last = max 1 attempts
  /-- Nothing is called behind the last attempt. -/
  calls_eq : seen.2.2 = lostCalls (List.range' 1 (last - 1)) ++ [.attempt last]
  result_eq : seen.1 = (attemptAt beforeRetry body last world).1
  world_eq : seen.2.1 = (attemptAt beforeRetry body last world).2

variable {beforeRetry body}

theorem attemptBehind_one (lost : Nat) (world : σ) :
    attemptBehind beforeRetry body 1 lost world =
      attemptAt beforeRetry body (lost + 1) world := by
  rw [attemptBehind, attemptAt, Nat.add_comm 1 lost, Nat.add_sub_cancel]

theorem Repeats.retried {attempts lost : Nat} {world : σ}
    {seen : Except Failure α × σ × List AttemptCall}
    (h : Repeats beforeRetry body 1 (attempts - 1) lost world seen) :
    Retried beforeRetry body attempts (lost + 1) world seen where
  one_le := Nat.succ_pos lost
  le := by
    have hle := h.le
    omega
  timedOut number hpos hlt := by
    obtain ⟨earlier, rfl⟩ : ∃ earlier, number = earlier + 1 := ⟨number - 1, by omega⟩
    rw [← attemptBehind_one]
    exact h.timedOut earlier (Nat.lt_of_succ_lt_succ hlt)
  ends := by
    rw [← attemptBehind_one]
    by_cases htimeout : (attemptBehind beforeRetry body 1 lost world).1 = .error .timeout
    · have hlost := h.ends htimeout
      exact .inr (by omega)
    · exact .inl htimeout
  calls_eq := by rw [h.seen_eq, Nat.add_comm 1 lost, Nat.add_sub_cancel]
  result_eq := by rw [h.seen_eq, attemptBehind_one]
  world_eq := by rw [h.seen_eq, attemptBehind_one]

end Attempts

/-- Attempts that may change any world are made from the first one on, each that times out followed
by what is done before the next, up to the first that does not time out or the last allowed, of
which there is at least one. Its outcome is the result, and its number still fits the word that
holds the limit. -/
theorem retry_isExact {σ α : Type} (beforeRetry : Nat → Failure → σ → σ)
    (body : Nat → σ → Except Failure α × σ) (attempts : UInt32) (world : σ) :
    ∃ last, last < UInt32.size ∧
      Attempts.Retried beforeRetry body attempts.toNat last world
        (retry attempts.toNat (Attempts.recordedBeforeRetry beforeRetry)
          (Attempts.recordedBody body) world) := by
  obtain ⟨lost, hlost⟩ := Attempts.exists_repeats beforeRetry body 1 (attempts.toNat - 1) world
  have hretried := hlost.retried
  have hattempts : attempts.toNat < UInt32.size := attempts.toNat_lt_size
  have hlast : lost + 1 < UInt32.size :=
    Nat.lt_of_le_of_lt hretried.le (Nat.max_lt.mpr ⟨by decide, hattempts⟩)
  exact ⟨lost + 1, hlast, hretried⟩

end TpmLink
