import Mathlib.Logic.Basic
import Mathlib.Logic.Function.Iterate

namespace Run

variable {σ ε : Type} (step : σ → ε → σ)

/-- Process a list of events. -/
def run (s : σ) : List ε → σ
  | [] => s
  | e :: es => run (step s e) es

/-- Every event meets a condition on the state it finds. -/
def Along (A : σ → ε → Prop) (s : σ) : List ε → Prop
  | [] => True
  | e :: es => A s e ∧ Along A (step s e) es

instance decidableAlong (A : σ → ε → Prop) [∀ s e, Decidable (A s e)] (s : σ) (es : List ε) :
    Decidable (Along step A s es) :=
  match es with
  | [] => isTrue trivial
  | e :: es => @instDecidableAnd _ _ _ (decidableAlong A (step s e) es)

theorem run_append (s : σ) (es fs : List ε) : run step s (es ++ fs) =
    run step (run step s es) fs := by
  induction es generalizing s with
  | nil => rfl
  | cons e es ih => exact ih (step s e)

theorem run_invariant {J : σ → Prop} (hstep : ∀ s e, J s → J (step s e)) (s : σ) (es : List ε)
    (h : J s) : J (run step s es) := by
  induction es generalizing s with
  | nil => exact h
  | cons e es ih => exact ih (step s e) (hstep s e h)

theorem along_take (A : σ → ε → Prop) (s : σ) (es : List ε) (n : Nat) (h : Along step A s es) :
    Along step A s (es.take n) := by
  induction es generalizing s n with
  | nil => simpa using h
  | cons e es ih =>
    cases n with
    | zero => trivial
    | succ n => exact ⟨h.1, ih (step s e) n h.2⟩

theorem along_append (A : σ → ε → Prop) (s : σ) (es fs : List ε) :
    Along step A s (es ++ fs) ↔ Along step A s es ∧ Along step A (run step s es) fs := by
  induction es generalizing s with
  | nil => simp [Along, run]
  | cons e es ih => exact (and_congr_right fun _ => ih (step s e)).trans and_assoc.symm

theorem along_weaken {A B : σ → ε → Prop} (hAB : ∀ s e, A s e → B s e) (s : σ) (es : List ε)
    (h : Along step A s es) : Along step B s es := by
  induction es generalizing s with
  | nil => trivial
  | cons e es ih => exact ⟨hAB s e h.1, ih (step s e) h.2⟩

/-- An invariant of the steps that meet a condition. -/
theorem along_invariant {I : σ → Prop} {A : σ → ε → Prop}
    (hstep : ∀ s e, I s → A s e → I (step s e)) (s : σ) (es : List ε) (h : I s)
    (ha : Along step A s es) : I (run step s es) := by
  induction es generalizing s with
  | nil => exact h
  | cons e es ih => exact ih (step s e) (hstep s e h ha.1) ha.2

/-- When a step keeps `I` exactly if it meets the condition, then `I` holds in every state of a
run exactly if every event of the run does. `J` holds in any case. -/
theorem always_iff_along {I J : σ → Prop} {A : σ → ε → Prop} (hJ : ∀ s e, J s → J (step s e))
    (hstep : ∀ s e, J s → I s → (I (step s e) ↔ A s e)) (s : σ) (es : List ε) (hj : J s)
    (h : I s) : (∀ n, I (run step s (es.take n))) ↔ Along step A s es := by
  induction es generalizing s with
  | nil => simp [run, Along, h]
  | cons e es ih =>
    have tail (hi : I (step s e)) := ih (step s e) (hJ s e hj) hi
    constructor
    · intro always
      have hi : I (step s e) := always 1
      exact ⟨(hstep s e hj h).mp hi, (tail hi).mp fun n => always (n + 1)⟩
    · intro ⟨ha, along⟩ n
      have hi : I (step s e) := (hstep s e hj h).mpr ha
      cases n with
      | zero => exact h
      | succ n => exact (tail hi).mpr along n

theorem run_invariant_on {I : σ → Prop} {A : ε → Prop} (hstep : ∀ s e, I s → A e → I (step s e))
    (s : σ) (es : List ε) (h : I s) (hes : ∀ e ∈ es, A e) : I (run step s es) := by
  induction es generalizing s with
  | nil => exact h
  | cons e es ih =>
    apply ih (step s e) (hstep s e h (hes e (by simp)))
    intro e' he'
    exact hes e' (by simp [he'])

/-- The state after `n` events. -/
def stateAt (s : σ) (es : List ε) (n : Nat) : σ := run step s (es.take n)

theorem stateAt_succ (s : σ) (es : List ε) (n : Nat) (e : ε) (h : es[n]? = some e) :
    stateAt step s es (n + 1) = step (stateAt step s es n) e := by
  rw [stateAt, List.take_add_one, h, run_append]
  rfl

theorem along_getElem (A : σ → ε → Prop) (s : σ) (es : List ε) (n : Nat) (e : ε)
    (along : Along step A s es) (h : es[n]? = some e) : A (stateAt step s es n) e := by
  induction es generalizing s n with
  | nil => simp at h
  | cons f es ih =>
    cases n with
    | zero =>
      obtain rfl : f = e := by simpa using h
      exact along.1
    | succ n => exact ih (step s f) n along.2 (by simpa using h)

/-- Some event of the run meets a condition on the state it finds. -/
def Occurs (P : σ → ε → Prop) (s : σ) (es : List ε) : Prop :=
  ∃ n e, es[n]? = some e ∧ P (stateAt step s es n) e

theorem occurs_head (P : σ → ε → Prop) (s : σ) (e : ε) (es : List ε) (h : P s e) :
    Occurs step P s (e :: es) :=
  ⟨0, e, rfl, h⟩

theorem occurs_tail (P : σ → ε → Prop) (s : σ) (e : ε) (es : List ε)
    (h : Occurs step P (step s e) es) : Occurs step P s (e :: es) := by
  obtain ⟨n, f, hf, hp⟩ := h
  exact ⟨n + 1, f, hf, hp⟩

/-- An invariant that knows the time. -/
theorem timed_invariant {I : Nat → σ → Prop} {A : σ → ε → Prop} (s : σ) (es : List ε)
    (hstep : ∀ n e, es[n]? = some e → I n (stateAt step s es n) → A (stateAt step s es n) e →
      I (n + 1) (step (stateAt step s es n) e))
    (h : I 0 s) (along : Along step A s es) (n : Nat) (hn : n ≤ es.length) :
    I n (stateAt step s es n) := by
  induction n with
  | zero => exact h
  | succ n ih =>
    have found : es[n]? = some es[n] := List.getElem?_eq_getElem hn
    rw [stateAt_succ step s es n es[n] found]
    exact hstep n es[n] found (ih (by omega)) (along_getElem step A s es n es[n] along found)

section Interrupted

variable {ι : Type} (complete : σ → σ) (interrupt : ι → σ → σ)

/-- A step that is completed, or interrupted at some point. -/
def attempt (s : σ) : Option ι → σ
  | none => complete s
  | some point => interrupt point s

/-- A step that can be done over again after the interruption, as if there had been none. -/
def Redoable (s : σ) : Option ι → Prop
  | none => True
  | some point => complete (interrupt point s) = complete s

/-- With such interruptions only, the next completed step leads where it leads in a
run without any. -/
theorem run_redoable (s : σ) (turns : List (Option ι))
    (h : Along (attempt complete interrupt) (Redoable complete interrupt) s turns) :
    complete (run (attempt complete interrupt) s turns) =
      complete^[turns.countP Option.isNone + 1] s := by
  induction turns generalizing s with
  | nil => rfl
  | cons turn turns ih =>
    obtain ⟨here, later⟩ := h
    have next := ih (attempt complete interrupt s turn) later
    rw [run, next]
    cases turn with
    | none => simp [attempt]
    | some point =>
      have same : complete (interrupt point s) = complete s := here
      simp [attempt, same]

theorem run_completed (s : σ) (n : Nat) :
    run (attempt complete interrupt) s (List.replicate n none) = complete^[n] s := by
  induction n generalizing s with
  | zero => rfl
  | succ n ih => exact ih (complete s)

end Interrupted

variable {ω : Type} (A : ε → Prop) (observe : σ → ω)

/-- After at least `n` events of the given kind, and from then on, `d` is observed. -/
def Settles (n : Nat) (s : σ) (d : ω) : Prop :=
  ∀ es : List ε, (∀ e ∈ es, A e) → n ≤ es.length → observe (run step s es) = d

theorem settles_mono (n m : Nat) (s : σ) (d : ω) (hnm : n ≤ m) (h : Settles step A observe n s d) :
    Settles step A observe m s d := by
  intro es hes hlen
  exact h es hes (by omega)

/-- One event further away. -/
theorem settles_step (n : Nat) (s : σ) (d : ω)
    (h : ∀ e, A e → Settles step A observe n (step s e) d) :
      Settles step A observe (n + 1) s d := by
  intro es hes hlen
  cases es with
  | nil => simp at hlen
  | cons e es =>
    apply h e (hes e (by simp)) es
    · intro e' he'
      exact hes e' (by simp [he'])
    · simp at hlen
      omega

theorem settles_run (n : Nat) (s : σ) (d : ω) (es : List ε) (hes : ∀ e ∈ es, A e)
    (hlen : n ≤ es.length) (h : Settles step A observe n s d) :
    Settles step A observe 0 (run step s es) d := by
  intro fs hfs _
  rw [← run_append]
  apply h
  · intro e he
    rcases List.mem_append.mp he with hel | her
    · exact hes e hel
    · exact hfs e her
  · rw [List.length_append]
    omega

theorem settles_after (s : σ) (d : ω) (e : ε) (he : A e) (h : Settles step A observe 0 s d) :
    Settles step A observe 0 (step s e) d := by
  have singleton : ∀ f ∈ [e], A f := by
    intro f hf
    rw [List.mem_singleton.mp hf]
    exact he
  exact settles_run step A observe 0 s d [e] singleton (Nat.zero_le _) h

theorem settles_now (s : σ) (d : ω) (h : Settles step A observe 0 s d) : observe s = d :=
  h [] (by simp) (Nat.zero_le _)

/-- Nothing changes any more when every event keeps an invariant that fixes what is observed. -/
theorem settles_of_invariant (Q : σ → Prop) (s : σ) (d : ω)
    (hstep : ∀ s e, Q s → A e → Q (step s e)) (hobserve : ∀ s, Q s → observe s = d) (h : Q s) :
    Settles step A observe 0 s d := by
  intro es hes _
  exact hobserve _ (run_invariant_on step hstep s es h hes)

/-- A run settles in one way only. -/
theorem settles_unique (n m : Nat) (s : σ) (d d' : ω) (e : ε) (he : A e)
    (h : Settles step A observe n s d) (h' : Settles step A observe m s d') : d = d' := by
  have events : ∀ f ∈ List.replicate (n + m) e, A f := by
    intro f hf
    rw [List.eq_of_mem_replicate hf]
    exact he
  rw [← h _ events (by simp), h' _ events (by simp)]

end Run
