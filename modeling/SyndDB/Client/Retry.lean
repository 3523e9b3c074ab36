import Mathlib.Algebra.Group.Nat.Defs
import Mathlib.Data.List.Range
import Mathlib.Data.Nat.Find

namespace SyndDB.Client.Retry

variable {ε : Type}

inductive Panic where
  /-- Attempt to shift left with overflow. -/
  | shlOverflow
  | unreachable
  deriving DecidableEq

/-- A call: how often the operation was attempted, the seconds slept in between, and how
the call ended. -/
structure Call (ε : Type) where
  attempts : Nat
  delays : List UInt64
  result : Except Panic (Except ε Unit)

/-- The argument of `Duration::from_secs`, `1 << attempt`. Debug builds check for overflow; the
release profiles shift by the low six bits. -/
def backoff (overflowChecks : Bool) (attempt : Nat) : Except Panic UInt64 :=
  if overflowChecks ∧ 64 ≤ attempt then .error .shlOverflow
  else .ok (1 <<< UInt64.ofNat attempt)

section Loop

variable (overflowChecks : Bool) (maxRetries : Nat) (operation : (attempt : Nat) → Except ε Unit)

/-- The loop over the attempts that are left. A `usize` has no overflow here: `attempt + 1` is at
most `max_retries`. -/
def attemptEach : (left : List Nat) → Call ε
  | [] => ⟨0, [], .error .unreachable⟩
  | attempt :: left =>
      match operation attempt with
      | .ok () => ⟨1, [], .ok (.ok ())⟩
      | .error e =>
          if attempt + 1 < maxRetries then
            match backoff overflowChecks attempt with
            | .error panic => ⟨1, [], .error panic⟩
            | .ok secs =>
                let later := attemptEach left
                { later with attempts := later.attempts + 1, delays := secs :: later.delays }
          else ⟨1, [], .ok (.error e)⟩

def retryWithBackoff : Call ε :=
  attemptEach overflowChecks maxRetries operation (List.range maxRetries)

end Loop

def FirstSuccess (operation : Nat → Except ε Unit) (attempt : Nat) : Prop :=
  operation attempt = .ok () ∧ ∀ earlier < attempt, operation earlier ≠ .ok ()

/-- The call ends with its first success or its last error, and its delays are the powers of two. -/
structure Retries (maxRetries : Nat) (operation : Nat → Except ε Unit) (call : Call ε) : Prop where
  bounded : call.attempts ≤ maxRetries
  success : ∀ attempt < maxRetries, FirstSuccess operation attempt →
    call.attempts = attempt + 1 ∧ call.result = .ok (.ok ())
  failure : (∀ attempt < maxRetries, operation attempt ≠ .ok ()) →
    ∃ last e, last + 1 = maxRetries ∧ operation last = .error e ∧
      call.attempts = maxRetries ∧ call.result = .ok (.error e)
  returns : ∀ panic, call.result ≠ .error panic
  delays : call.delays.map UInt64.toNat = (List.range (call.attempts - 1)).map (2 ^ ·)

/-- The attempt that a call without a panic ends with. -/
structure Last (maxRetries : Nat) (operation : Nat → Except ε Unit) (last : Nat) : Prop where
  within : last < maxRetries
  failed : ∀ earlier < last, operation earlier ≠ .ok ()
  ends : operation last = .ok () ∨ last + 1 = maxRetries

theorem Last.unique {maxRetries : Nat} {operation : Nat → Except ε Unit} {last last' : Nat}
    (h : Last maxRetries operation last) (h' : Last maxRetries operation last') : last = last' := by
  have not_lt {m n : Nat} (h : Last maxRetries operation m) (h' : Last maxRetries operation n) :
      ¬m < n := by
    intro before
    rcases h.ends with success | final
    · exact h'.failed m before success
    · have := h'.within
      omega
  exact Nat.le_antisymm (Nat.not_lt.mp (not_lt h' h)) (Nat.not_lt.mp (not_lt h h'))

theorem last_of_firstSuccess {maxRetries : Nat} {operation : Nat → Except ε Unit} {attempt : Nat}
    (within : attempt < maxRetries) (first : FirstSuccess operation attempt) :
    Last maxRetries operation attempt :=
  ⟨within, first.2, Or.inl first.1⟩

theorem exists_last (maxRetries : Nat) (operation : Nat → Except ε Unit) (some' : maxRetries ≠ 0) :
    ∃ last, Last maxRetries operation last := by
  classical
  by_cases success : ∃ attempt < maxRetries, operation attempt = .ok ()
  · obtain ⟨within, here⟩ := Nat.find_spec success
    refine ⟨Nat.find success, within, ?_, Or.inl here⟩
    intro earlier before early
    exact Nat.find_min success before ⟨Nat.lt_trans before within, early⟩
  · refine ⟨maxRetries - 1, by omega, ?_, Or.inr (by omega)⟩
    intro earlier before early
    exact success ⟨earlier, by omega, early⟩

/-- No delay after the 64th is asked for exactly if there are few attempts or an early success. -/
theorem Last.le_iff {maxRetries : Nat} {operation : Nat → Except ε Unit} {last : Nat}
    (h : Last maxRetries operation last) :
    last ≤ 64 ↔ maxRetries ≤ 65 ∨ ∃ attempt < 65, operation attempt = .ok () := by
  constructor
  · intro early
    rcases h.ends with success | final
    · exact Or.inr ⟨last, Nat.lt_succ_of_le early, success⟩
    · exact Or.inl (by omega)
  · intro either
    rcases either with few | ⟨attempt, early, success⟩
    · have := h.within
      omega
    · have reached : last ≤ attempt := by
        by_contra late
        exact h.failed attempt (Nat.lt_of_not_le late) success
      omega

def delay (attempt : Nat) : UInt64 := 1 <<< UInt64.ofNat attempt

theorem toNat_delay (attempt : Nat) : (delay attempt).toNat = 2 ^ (attempt % 64) := by
  have low : attempt % 2 ^ 64 % 64 = attempt % 64 := Nat.mod_mod_of_dvd attempt (by decide)
  have small : attempt % 64 < 64 := Nat.mod_lt attempt (by decide)
  have fits : 2 ^ (attempt % 64) < 2 ^ 64 := Nat.pow_lt_pow_right (by decide) small
  rw [delay, UInt64.toNat_shiftLeft, UInt64.toNat_ofNat', low, UInt64.toNat_one, Nat.one_shiftLeft,
    Nat.mod_eq_of_lt fits]

theorem backoff_ok (overflowChecks : Bool) (attempt : Nat)
    (small : overflowChecks = true → attempt < 64) :
    backoff overflowChecks attempt = .ok (delay attempt) := by
  rw [backoff, if_neg]
  · rfl
  · intro large
    exact Nat.not_lt.mpr large.2 (small large.1)

section Loop

variable (overflowChecks : Bool) (maxRetries : Nat) (operation : Nat → Except ε Unit)

/-- A failure that is not the last one is followed by a delay. -/
theorem attemptEach_failed (attempt : Nat) (left : List Nat) (failed : operation attempt ≠ .ok ())
    (more : attempt + 1 < maxRetries) (small : overflowChecks = true → attempt < 64) :
    attemptEach overflowChecks maxRetries operation (attempt :: left) =
      let later := attemptEach overflowChecks maxRetries operation left
      ⟨later.attempts + 1, delay attempt :: later.delays, later.result⟩ := by
  rw [attemptEach]
  cases answer : operation attempt with
  | ok => exact absurd answer failed
  | error e =>
    simp only
    rw [if_pos more, backoff_ok overflowChecks attempt small]

theorem attemptEach_last (attempt : Nat) (left : List Nat)
    (ends : operation attempt = .ok () ∨ attempt + 1 = maxRetries) :
    attemptEach overflowChecks maxRetries operation (attempt :: left) =
      ⟨1, [], .ok (operation attempt)⟩ := by
  rw [attemptEach]
  cases answer : operation attempt with
  | ok => rfl
  | error e =>
    rw [answer] at ends
    have final : attempt + 1 = maxRetries := ends.resolve_left (by simp)
    simp only
    rw [if_neg (by omega)]

/-- The attempts that fail before the last one add their delays to what the
attempts after them do. -/
theorem attemptEach_failures (n attempt left : Nat)
    (failed : ∀ earlier, attempt ≤ earlier → earlier < attempt + n → operation earlier ≠ .ok ())
    (more : attempt + n < maxRetries) (small : overflowChecks = true → attempt + n ≤ 64) :
    attemptEach overflowChecks maxRetries operation (List.range' attempt (n + left)) =
      let later := attemptEach overflowChecks maxRetries operation (List.range' (attempt + n) left)
      ⟨later.attempts + n, (List.range' attempt n).map delay ++ later.delays, later.result⟩ := by
  induction n generalizing attempt with
  | zero =>
    rw [Nat.zero_add]
    rfl
  | succ n ih =>
    have next : attempt + (n + 1) = attempt + 1 + n := by omega
    rw [next] at failed more small
    have later := ih (attempt + 1)
      (fun earlier after before => failed earlier (Nat.le_of_succ_le after) before) more small
    have here : operation attempt ≠ .ok () := failed attempt (Nat.le_refl _) (by omega)
    have low : overflowChecks = true → attempt < 64 := fun checks => by
      have := small checks
      omega
    rw [Nat.succ_add, List.range'_succ, attemptEach_failed _ _ _ _ _ here (by omega) low,
      later, next]
    rfl

end Loop

section Calls

variable (overflowChecks : Bool) (maxRetries : Nat) (operation : Nat → Except ε Unit)

theorem retryWithBackoff_failures (n : Nat) (failed : ∀ earlier < n, operation earlier ≠ .ok ())
    (more : n < maxRetries) (small : overflowChecks = true → n ≤ 64) :
    retryWithBackoff overflowChecks maxRetries operation =
      let later := attemptEach overflowChecks maxRetries operation
        (n :: List.range' (n + 1) (maxRetries - n - 1))
      ⟨later.attempts + n, (List.range n).map delay ++ later.delays, later.result⟩ := by
  have each := attemptEach_failures overflowChecks maxRetries operation n 0 (maxRetries - n - 1 + 1)
    (fun earlier _ before => failed earlier (by omega)) (by omega)
    (by rw [Nat.zero_add]; exact small)
  rw [Nat.zero_add, List.range'_succ, ← List.range_eq_range',
    show n + (maxRetries - n - 1 + 1) = maxRetries by omega, ← List.range_eq_range'] at each
  exact each

/-- A call returns what its last attempt was answered, unless a delay overflows. -/
theorem retryWithBackoff_last (last : Nat) (h : Last maxRetries operation last)
    (small : overflowChecks = true → last ≤ 64) :
    retryWithBackoff overflowChecks maxRetries operation =
      ⟨last + 1, (List.range last).map delay, .ok (operation last)⟩ := by
  rw [retryWithBackoff_failures overflowChecks maxRetries operation last h.failed h.within small,
    attemptEach_last overflowChecks maxRetries operation last _ h.ends]
  simp only [List.append_nil, Nat.add_comm]

/-- With overflow checked, a 65th failure before the last attempt panics. -/
theorem retryWithBackoff_overflow (last : Nat) (h : Last maxRetries operation last)
    (late : 64 < last) :
    (retryWithBackoff true maxRetries operation).result = .error .shlOverflow := by
  have more : 65 < maxRetries := Nat.lt_of_le_of_lt late h.within
  rw [retryWithBackoff_failures true maxRetries operation 64
    (fun earlier before => h.failed earlier (Nat.lt_trans before late)) (by omega)
    fun _ => Nat.le_refl 64,
    attemptEach]
  cases answer : operation 64 with
  | ok => exact absurd answer (h.failed 64 late)
  | error e =>
    simp only
    rw [if_pos more]
    rfl

/-- The delays are the powers of two as long as the powers are less than `2 ^ 64`. -/
theorem delays_iff (n : Nat) :
    ((List.range n).map delay).map UInt64.toNat = (List.range n).map (2 ^ ·) ↔ n ≤ 64 := by
  rw [List.map_map, List.map_inj_left]
  constructor
  · intro powers
    by_contra late
    have wrapped := powers 64 (List.mem_range.mpr (Nat.lt_of_not_le late))
    rw [Function.comp_apply, toNat_delay] at wrapped
    exact absurd wrapped (by decide)
  · intro early attempt member
    have small : attempt < 64 := Nat.lt_of_lt_of_le (List.mem_range.mp member) early
    rw [Function.comp_apply, toNat_delay, Nat.mod_eq_of_lt small]

/-- A call does what it is to do exactly if there is an attempt to make, and either no 65th failure
can be followed by a delay or one of the first 65 attempts succeeds. -/
theorem retries_iff :
    Retries maxRetries operation (retryWithBackoff overflowChecks maxRetries operation) ↔
      maxRetries ≠ 0 ∧ (maxRetries ≤ 65 ∨ ∃ attempt < 65, operation attempt = .ok ()) := by
  by_cases none : maxRetries = 0
  · subst none
    refine iff_of_false ?_ fun some' => some'.1 rfl
    intro retries
    exact retries.returns .unreachable rfl
  obtain ⟨last, h⟩ := exists_last maxRetries operation none
  rw [and_iff_right none, ← h.le_iff]
  constructor
  · intro retries
    by_contra late
    cases overflowChecks with
    | true =>
      exact retries.returns _
        (retryWithBackoff_overflow maxRetries operation last h (Nat.lt_of_not_le late))
    | false =>
      have powers := retries.delays
      rw [retryWithBackoff_last false maxRetries operation last h Bool.noConfusion] at powers
      exact late ((delays_iff last).mp powers)
  · intro early
    rw [retryWithBackoff_last overflowChecks maxRetries operation last h fun _ => early]
    refine ⟨h.within, ?_, ?_, nofun, (delays_iff last).mpr early⟩
    · intro attempt within first
      obtain rfl := h.unique (last_of_firstSuccess within first)
      exact ⟨rfl, congrArg Except.ok first.1⟩
    · intro failed
      have final : last + 1 = maxRetries := h.ends.resolve_left (failed last h.within)
      cases answer : operation last with
      | ok => exact absurd answer (failed last h.within)
      | error e => exact ⟨last, e, final, answer, final, rfl⟩

end Calls

namespace Sample

def failing (_ : Nat) : Except String Unit := .error "connection refused"

/-- Without an attempt to make, the end of the loop is reached; the 65th delay overflows, or starts
over with a second. -/
theorem retries_extremes :
    (¬∀ overflowChecks maxRetries (operation : Nat → Except String Unit),
      Retries maxRetries operation (retryWithBackoff overflowChecks maxRetries operation)) ∧
    (retryWithBackoff false 0 failing).result = .error .unreachable ∧
    (retryWithBackoff true 66 failing).result = .error .shlOverflow ∧
    (retryWithBackoff false 66 failing).delays[64]? = some 1 := by
  refine ⟨?_, by decide, by decide, by decide⟩
  intro all
  exact (all false 0 failing).returns .unreachable (by decide)

end Sample

end SyndDB.Client.Retry
