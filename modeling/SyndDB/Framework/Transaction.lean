import Mathlib.Data.Option.Basic

namespace Transaction

/-- A database, and what the open transaction has made of it. -/
@[ext] structure Connection (δ : Type) where
  committed : δ
  pending : Option δ
  deriving DecidableEq

/-- Code over a connection. A failure too leaves the connection in some state. -/
def Work (δ ε α : Type) : Type := Connection δ → Except ε α × Connection δ

variable {δ ε α β : Type}

namespace Connection

/-- The database as the next statement sees it. -/
def visible (c : Connection δ) : δ := c.pending.getD c.committed

def rollback (c : Connection δ) : Connection δ := { c with pending := none }

end Connection

def Work.bind (w : Work δ ε α) (f : α → Work δ ε β) : Work δ ε β := fun c =>
  match w c with
  | (.ok a, c) => f a c
  | (.error e, c) => (.error e, c)

instance : Monad (Work δ ε) where
  pure a := fun c => (.ok a, c)
  bind := Work.bind

namespace Work

theorem bind_ok (w : Work δ ε α) (f : α → Work δ ε β) (c c' : Connection δ) (a : α)
    (h : w c = (.ok a, c')) : (w >>= f) c = f a c' := by
  change w.bind f c = _
  simp only [bind, h]

theorem bind_error (w : Work δ ε α) (f : α → Work δ ε β) (c c' : Connection δ) (e : ε)
    (h : w c = (.error e, c')) : (w >>= f) c = (.error e, c') := by
  change w.bind f c = _
  simp only [bind, h]

/-- A query: it returns what it computes from the database. -/
def query (f : δ → Except ε α) : Work δ ε α := fun c => (f c.visible, c)

/-- A statement that writes. Outside of a transaction it commits by itself. Where it fails inside of
one, `remains` says what is left of the transaction: nothing if the engine gave all of it up. -/
def statement (f : δ → Except ε δ) (remains : δ → Option δ) : Work δ ε Unit := fun c =>
  match c.pending, f c.visible with
  | none, .ok d => (.ok (), ⟨d, none⟩)
  | none, .error e => (.error e, c)
  | some _, .ok d => (.ok (), ⟨c.committed, some d⟩)
  | some d, .error e => (.error e, ⟨c.committed, remains d⟩)

/-- There are no transactions within transactions. -/
def start (nested : ε) (fault : Option ε) : Work δ ε Unit := fun c =>
  match c.pending, fault with
  | some _, _ => (.error nested, c)
  | none, some e => (.error e, c)
  | none, none => (.ok (), ⟨c.committed, some c.committed⟩)

def commit (closed : ε) (fault : Option ε) : Work δ ε Unit := fun c =>
  match c.pending, fault with
  | none, _ => (.error closed, c)
  | some _, some e => (.error e, c)
  | some d, none => (.ok (), ⟨d, none⟩)

/-- The guard of a transaction: where it goes out of scope uncommitted, it rolls back. -/
def dropped (w : Work δ ε α) : Work δ ε α := fun c =>
  match w c with
  | (.ok a, c) => (.ok a, c)
  | (.error e, c) => (.error e, c.rollback)

/-- Code inside of a transaction that leaves the committed database alone, and the transaction open
unless it fails. -/
def Contained (w : Work δ ε α) : Prop :=
  ∀ base d, ∃ after, (w ⟨base, some d⟩).2 = ⟨base, after⟩ ∧
    ∀ a, (w ⟨base, some d⟩).1 = .ok a → after.isSome

theorem contained_pure (a : α) : Contained (pure a : Work δ ε α) := by
  intro base d
  exact ⟨some d, rfl, fun _ _ => rfl⟩

theorem contained_query (f : δ → Except ε α) : Contained (query f) := by
  intro base d
  exact ⟨some d, rfl, fun _ _ => rfl⟩

theorem contained_statement (f : δ → Except ε δ) (remains : δ → Option δ) :
    Contained (statement f remains) := by
  intro base d
  cases h : f d with
  | ok d' =>
    refine ⟨some d', ?_, fun _ _ => rfl⟩
    simp [statement, Connection.visible, h]
  | error e =>
    refine ⟨remains d, ?_, ?_⟩
    · simp [statement, Connection.visible, h]
    · intro a ok
      simp [statement, Connection.visible, h] at ok

theorem contained_cases (w : Work δ ε α) (contained : Contained w) (base d : δ) :
    (∃ e after, w ⟨base, some d⟩ = (.error e, ⟨base, after⟩)) ∨
      ∃ a final, w ⟨base, some d⟩ = (.ok a, ⟨base, some final⟩) := by
  obtain ⟨after, state, still⟩ := contained base d
  cases h : w ⟨base, some d⟩ with
  | mk outcome c =>
    rw [h] at state still
    have hc : c = ⟨base, after⟩ := state
    cases outcome with
    | error e => exact .inl ⟨e, after, by rw [hc]⟩
    | ok a =>
      obtain ⟨final, rfl⟩ := Option.isSome_iff_exists.mp (still a rfl)
      exact .inr ⟨a, final, by rw [hc]⟩

/-- After an error nothing more runs, so what the engine gave up is not written to again. -/
theorem contained_bind (w : Work δ ε α) (f : α → Work δ ε β) (hw : Contained w)
    (hf : ∀ a, Contained (f a)) : Contained (w >>= f) := by
  intro base d
  rcases contained_cases w hw base d with ⟨e, after, h⟩ | ⟨a, d', h⟩
  · refine ⟨after, ?_, ?_⟩
    · rw [bind_error w f _ _ e h]
    · intro b ok
      rw [bind_error w f _ _ e h] at ok
      cases ok
  · rw [bind_ok w f _ _ a h]
    exact hf a base d'

/-- A transaction from its start to its commit, or to the drop of its guard. -/
def scope (starts : Work δ ε Unit) (body : Work δ ε α) (commits : Work δ ε Unit) : Work δ ε α := do
  starts
  dropped do
    let a ← body
    commits
    return a

variable (nested closed : ε) (onStart onCommit : Option ε) (body : Work δ ε α)

/-- Within the guard: the body, then the commit. -/
theorem scope_ok (base final : δ) (a : α)
    (h : body ⟨base, some base⟩ = (.ok a, ⟨base, some final⟩)) :
    scope (start nested none) body (commit closed onCommit) ⟨base, none⟩ =
      match onCommit with
      | some e => (.error e, ⟨base, none⟩)
      | none => (.ok a, ⟨final, none⟩) := by
  rw [scope, bind_ok (start nested none) _ _ ⟨base, some base⟩ () rfl, dropped]
  rw [bind_ok body _ _ _ a h]
  cases onCommit with
  | some e => rw [bind_error (commit closed (some e)) _ _ ⟨base, some final⟩ e rfl]; rfl
  | none => rw [bind_ok (commit closed none) _ _ ⟨final, none⟩ () rfl]; rfl

theorem scope_error (base : δ) (after : Option δ) (e : ε)
    (h : body ⟨base, some base⟩ = (.error e, ⟨base, after⟩)) :
    scope (start nested none) body (commit closed onCommit) ⟨base, none⟩ =
      (.error e, ⟨base, none⟩) := by
  rw [scope, bind_ok (start nested none) _ _ ⟨base, some base⟩ () rfl, dropped]
  rw [bind_error body _ _ _ e h]
  rfl

/-- A transaction happens as a whole or not at all. -/
theorem scope_atomic (contained : Contained body) (c : Connection δ) :
    (∀ a after, scope (start nested onStart) body (commit closed onCommit) c = (.ok a, after) →
      c.pending = none ∧ ∃ final,
        body ⟨c.committed, some c.committed⟩ = (.ok a, ⟨c.committed, some final⟩) ∧
        after = ⟨final, none⟩) ∧
    ∀ e after, scope (start nested onStart) body (commit closed onCommit) c = (.error e, after) →
      after = c := by
  obtain ⟨base, pending⟩ := c
  cases pending with
  | some d =>
    rw [scope, bind_error (start nested onStart) _ _ ⟨base, some d⟩ nested rfl]
    simp
  | none =>
    cases onStart with
    | some e =>
      rw [scope, bind_error (start nested (some e)) _ _ ⟨base, none⟩ e rfl]
      simp
    | none =>
      rcases contained_cases body contained base base with ⟨e, after, h⟩ | ⟨a, final, h⟩
      · rw [scope_error nested closed onCommit body base after e h]
        simp
      · rw [scope_ok nested closed onCommit body base final a h]
        cases onCommit with
        | some e => simp
        | none => simp [h]

end Work

end Transaction
