import Mathlib.Data.List.Chain
import SyndDB.ChainMonitor.Monitor

namespace SyndDB.ChainMonitor.Polling

/-- Both ends are asked for. -/
structure Window where
  fromBlock : Nat
  toBlock : Nat
  deriving DecidableEq

/-- Where `run_rpc_monitor` is: at the head of its loop, or at the logs of a window. -/
inductive Loop where
  | stopped
  | polling (currentBlock : Nat)
  | processing (currentBlock endBlock : Nat)
  deriving DecidableEq

/-- The checkpoint is persisted. `requests` are the successful calls of `get_logs` since the first
start, the latest at the end. -/
structure State where
  lastBlock : Option Nat
  loop : Loop
  requests : List Window
  deriving DecidableEq

/-- The node names its latest block, or does not answer; `get_logs` returns or fails. After the logs
of a window the checkpoint is written. The process may end at any point. -/
inductive Event where
  | start (readable : Bool)
  | poll (latestBlock : Option Nat) (answered : Bool)
  | setLastProcessedBlock (written : Bool)
  | stop

def Loop.currentBlock : Loop → Option Nat
  | .stopped => none
  | .polling currentBlock => some currentBlock
  | .processing currentBlock _ => some currentBlock

namespace State

def initial : State := ⟨none, .stopped, []⟩

variable (startBlock : Nat)

def start (s : State) (readable : Bool) : State :=
  match s.loop with
  | .stopped => if readable then { s with loop := .polling (s.lastBlock.getD startBlock) } else s
  | _ => s

/-- `poll_for_events`, as far as the blocks go -/
def poll (s : State) (latestBlock : Option Nat) (answered : Bool) : State :=
  match s.loop with
  | .polling currentBlock =>
      match latestBlock with
      | none => s
      | some latest =>
          let endBlock := windowEnd currentBlock latest
          if endBlock ≤ currentBlock then { s with loop := .processing currentBlock currentBlock }
          else if answered then
            { s with
              loop := .processing currentBlock endBlock
              requests := s.requests ++ [⟨currentBlock, endBlock⟩] }
          else s
  | _ => s

/-- An error in writing the checkpoint ends the monitor. -/
def setLastProcessedBlock (s : State) (written : Bool) : State :=
  match s.loop with
  | .processing _ endBlock =>
      if written then { s with lastBlock := some endBlock, loop := .polling endBlock }
      else { s with loop := .stopped }
  | _ => s

def stop (s : State) : State := { s with loop := .stopped }

def step (s : State) : Event → State
  | .start readable => s.start startBlock readable
  | .poll latestBlock answered => s.poll latestBlock answered
  | .setLastProcessedBlock written => s.setLastProcessedBlock written
  | .stop => s.stop

/-- The block from which the next start resumes. -/
def checkpoint (s : State) : Nat := s.lastBlock.getD startBlock

end State

/-- The blocks from `lo` to `hi` are in windows that were asked for. -/
def Covers (requests : List Window) (lo hi : Nat) : Prop :=
  ∀ b, lo ≤ b → b ≤ hi → ∃ window ∈ requests, window.fromBlock ≤ b ∧ b ≤ window.toBlock

/-- No window begins after the end of the one before. -/
def Gapless (requests : List Window) : Prop :=
  requests.IsChain fun window window' => window'.fromBlock ≤ window.toBlock

/-- Neither the persisted checkpoint nor the current block is behind. -/
structure Advances (s s' : State) : Prop where
  lastBlock : ∀ b, s.lastBlock = some b → ∃ b', s'.lastBlock = some b' ∧ b ≤ b'
  currentBlock : ∀ b b', s.loop.currentBlock = some b → s'.loop.currentBlock = some b' → b ≤ b'

/-- While the loop runs, its current block is the checkpoint, up to which all is covered; and so is
the window in hand. -/
structure Tracks (startBlock : Nat) (s : State) : Prop where
  resumes : ∀ b, s.loop.currentBlock = some b → b = s.checkpoint startBlock
  covered : startBlock < s.checkpoint startBlock →
    Covers s.requests startBlock (s.checkpoint startBlock)
  inHand : ∀ currentBlock endBlock, s.loop = .processing currentBlock endBlock →
    currentBlock = endBlock ∨
      currentBlock < endBlock ∧ s.requests.getLast? = some ⟨currentBlock, endBlock⟩
  late : startBlock ≤ s.checkpoint startBlock
  gapless : Gapless s.requests
  reaches : ∀ window ∈ s.requests.getLast?, s.checkpoint startBlock ≤ window.toBlock

theorem Covers.grow {requests : List Window} {lo hi : Nat} (h : Covers requests lo hi)
    (window : Window) : Covers (requests ++ [window]) lo hi := by
  intro b low high
  obtain ⟨found, member, inside⟩ := h b low high
  exact ⟨found, List.mem_append_left [window] member, inside⟩

/-- A window that begins where the covered blocks end, or at the first block. -/
theorem Covers.extend {requests : List Window} {lo hi : Nat} (window : Window)
    (h : lo < window.fromBlock → Covers requests lo window.fromBlock) (member : window ∈ requests)
    (low : lo ≤ window.fromBlock) (last : window.toBlock = hi) : Covers requests lo hi := by
  intro b lower upper
  rcases Nat.lt_or_ge b window.fromBlock with before | within
  · exact h (by omega) b lower (by omega)
  · exact ⟨window, member, within, by omega⟩

theorem Gapless.grow {requests : List Window} (h : Gapless requests) (window : Window)
    (reaches : ∀ last ∈ requests.getLast?, window.fromBlock ≤ last.toBlock) :
    Gapless (requests ++ [window]) := by
  refine List.isChain_append.mpr ⟨h, List.isChain_singleton window, ?_⟩
  intro last hlast first hfirst
  cases hfirst
  exact reaches last hlast

theorem tracks_initial (startBlock : Nat) : Tracks startBlock State.initial where
  resumes := by
    intro b h
    cases h
  covered := fun h => absurd h (Nat.lt_irrefl startBlock)
  inHand := by
    intro currentBlock endBlock h
    cases h
  late := Nat.le_refl startBlock
  gapless := List.isChain_nil
  reaches := by
    intro window h
    cases h

section Steps

variable {startBlock : Nat} {s : State}

/-- A move of the loop alone, to its head or to its end. -/
theorem Tracks.move (h : Tracks startBlock s) (loop : Loop)
    (resumes : ∀ b, loop.currentBlock = some b → b = s.checkpoint startBlock)
    (inHand : ∀ currentBlock endBlock, loop = .processing currentBlock endBlock →
      currentBlock = endBlock) : Tracks startBlock { s with loop := loop } where
  resumes := resumes
  covered := h.covered
  inHand := fun currentBlock endBlock here => .inl (inHand currentBlock endBlock here)
  late := h.late
  gapless := h.gapless
  reaches := h.reaches

theorem tracks_start (h : Tracks startBlock s) (readable : Bool) :
    Tracks startBlock (s.start startBlock readable) := by
  rw [State.start]
  split
  · split
    · apply h.move
      · intro b hb
        exact (Option.some.inj hb).symm
      · intro currentBlock endBlock here
        cases here
    · exact h
  · exact h

/-- The window is asked for from the checkpoint on. -/
theorem Tracks.request (h : Tracks startBlock s) (currentBlock endBlock : Nat)
    (here : s.loop = .polling currentBlock) (forward : currentBlock < endBlock) :
    Tracks startBlock
      { s with
        loop := .processing currentBlock endBlock
        requests := s.requests ++ [⟨currentBlock, endBlock⟩] } := by
  have resumed : currentBlock = s.checkpoint startBlock := by
    apply h.resumes
    rw [here]
    rfl
  exact
    { resumes := by
        intro b hb
        cases hb
        exact resumed
      covered := fun moved => (h.covered moved).grow _
      inHand := by
        intro currentBlock' endBlock' same
        cases same
        exact .inr ⟨forward, List.getLast?_concat⟩
      late := h.late
      gapless := by
        apply h.gapless.grow
        intro last hlast
        have reached := h.reaches last hlast
        rw [← resumed] at reached
        exact reached
      reaches := by
        intro window hwindow
        have last : some (Window.mk currentBlock endBlock) = some window := by
          rw [← hwindow]
          exact List.getLast?_concat.symm
        cases last
        have reached : s.checkpoint startBlock ≤ endBlock := by omega
        exact reached }

theorem tracks_poll (h : Tracks startBlock s) (latestBlock : Option Nat) (answered : Bool) :
    Tracks startBlock (s.poll latestBlock answered) := by
  rw [State.poll]
  split
  · rename_i currentBlock here
    have resumed : currentBlock = s.checkpoint startBlock := by
      apply h.resumes
      rw [here]
      rfl
    cases latestBlock with
    | none => exact h
    | some latest =>
      simp only
      split
      · apply h.move
        · intro b hb
          cases hb
          exact resumed
        · intro currentBlock' endBlock' same
          cases same
          rfl
      · rename_i forward
        split
        · exact h.request currentBlock _ here (by omega)
        · exact h
  · exact h

/-- The checkpoint moves to the end of the window in hand. -/
theorem Tracks.save (h : Tracks startBlock s) (currentBlock endBlock : Nat)
    (here : s.loop = .processing currentBlock endBlock) :
    Tracks startBlock { s with lastBlock := some endBlock, loop := .polling endBlock } := by
  have resumed : currentBlock = s.checkpoint startBlock := by
    apply h.resumes
    rw [here]
    rfl
  have late := h.late
  have inHand := h.inHand currentBlock endBlock here
  exact
    { resumes := by
        intro b hb
        cases hb
        rfl
      covered := by
        intro moved
        change Covers s.requests startBlock endBlock
        rcases inHand with same | ⟨forward, last⟩
        · have covered := h.covered (by rw [← resumed, same]; exact moved)
          rw [← resumed, same] at covered
          exact covered
        · apply Covers.extend ⟨currentBlock, endBlock⟩
          · intro before
            have covered := h.covered (by rw [← resumed]; exact before)
            rw [← resumed] at covered
            exact covered
          · exact List.mem_of_getLast? last
          · rw [← resumed] at late
            exact late
          · rfl
      inHand := by
        intro currentBlock' endBlock' same
        cases same
      late := by
        change startBlock ≤ endBlock
        omega
      gapless := h.gapless
      reaches := by
        intro window hwindow
        change endBlock ≤ window.toBlock
        rcases inHand with same | ⟨forward, last⟩
        · have reached := h.reaches window hwindow
          omega
        · have found : some window = some ⟨currentBlock, endBlock⟩ := hwindow.symm.trans last
          cases found
          exact Nat.le_refl _ }

theorem Tracks.ended (h : Tracks startBlock s) : Tracks startBlock { s with loop := .stopped } := by
  apply h.move
  · intro b hb
    cases hb
  · intro currentBlock endBlock same
    cases same

theorem tracks_setLastProcessedBlock (h : Tracks startBlock s) (written : Bool) :
    Tracks startBlock (s.setLastProcessedBlock written) := by
  rw [State.setLastProcessedBlock]
  split
  · rename_i currentBlock endBlock here
    split
    · exact h.save currentBlock endBlock here
    · exact h.ended
  · exact h

theorem tracks_step (h : Tracks startBlock s) (e : Event) :
    Tracks startBlock (s.step startBlock e) := by
  cases e with
  | start readable => exact tracks_start h readable
  | poll latestBlock answered => exact tracks_poll h latestBlock answered
  | setLastProcessedBlock written => exact tracks_setLastProcessedBlock h written
  | stop => exact h.ended

/-- Only the end of the window in hand becomes the checkpoint. -/
theorem lastBlock_step (h : Tracks startBlock s) (e : Event) (b : Nat)
    (saved : s.lastBlock = some b) :
    ∃ b', (s.step startBlock e).lastBlock = some b' ∧ b ≤ b' := by
  have same : s.checkpoint startBlock = b := by rw [State.checkpoint, saved]; rfl
  cases e with
  | start readable =>
    refine ⟨b, ?_, Nat.le_refl b⟩
    rw [State.step, State.start]
    split
    · split
      · exact saved
      · exact saved
    · exact saved
  | poll latestBlock answered =>
    refine ⟨b, ?_, Nat.le_refl b⟩
    rw [State.step, State.poll]
    split
    · cases latestBlock with
      | none => exact saved
      | some latest =>
        simp only
        split
        · exact saved
        · split
          · exact saved
          · exact saved
    · exact saved
  | setLastProcessedBlock written =>
    rw [State.step, State.setLastProcessedBlock]
    split
    · rename_i currentBlock endBlock here
      have resumed : currentBlock = s.checkpoint startBlock := by
        apply h.resumes
        rw [here]
        rfl
      have forward : currentBlock ≤ endBlock := by
        rcases h.inHand currentBlock endBlock here with equal | ⟨less, -⟩
        · exact Nat.le_of_eq equal
        · exact Nat.le_of_lt less
      split
      · exact ⟨endBlock, rfl, by omega⟩
      · exact ⟨b, saved, Nat.le_refl b⟩
    · exact ⟨b, saved, Nat.le_refl b⟩
  | stop => exact ⟨b, saved, Nat.le_refl b⟩

end Steps

section Runs

variable (startBlock : Nat)

theorem tracks_stateAt (events : List Event) (n : Nat) :
    Tracks startBlock (Run.stateAt (State.step startBlock) .initial events n) := by
  have keeps (s : State) (e : Event) (h : Tracks startBlock s) :
      Tracks startBlock (s.step startBlock e) := tracks_step h e
  exact Run.run_invariant (State.step startBlock) keeps .initial (events.take n)
    (tracks_initial startBlock)

theorem lastBlock_run (s : State) (h : Tracks startBlock s) (events : List Event) (b : Nat)
    (saved : s.lastBlock = some b) :
    ∃ b', (Run.run (State.step startBlock) s events).lastBlock = some b' ∧ b ≤ b' := by
  induction events generalizing s b with
  | nil => exact ⟨b, saved, Nat.le_refl b⟩
  | cons e events ih =>
    obtain ⟨next, hnext, first⟩ := lastBlock_step h e b saved
    obtain ⟨last, hlast, rest⟩ := ih (s.step startBlock e) (tracks_step h e) next hnext
    exact ⟨last, hlast, Nat.le_trans first rest⟩

theorem advances_of_tracks {s s' : State} (h : Tracks startBlock s) (h' : Tracks startBlock s')
    (saved : ∀ b, s.lastBlock = some b → ∃ b', s'.lastBlock = some b' ∧ b ≤ b') :
      Advances s s' where
  lastBlock := saved
  currentBlock := by
    intro b b' hb hb'
    rw [h.resumes b hb, h'.resumes b' hb']
    cases last : s.lastBlock with
    | none =>
      have first : s.checkpoint startBlock = startBlock := by rw [State.checkpoint, last]; rfl
      rw [first]
      exact h'.late
    | some c =>
      obtain ⟨c', hc', le⟩ := saved c last
      rw [State.checkpoint, State.checkpoint, last, hc']
      exact le

/-- Whatever the node answers, and wherever the process ends and starts again: all blocks up to the
current one were asked for as soon as it has moved, without a gap between two windows, and neither
it nor the checkpoint goes back. -/
theorem polling_coverage (events : List Event) (n k : Nat) :
    (∀ currentBlock,
      (Run.stateAt (State.step startBlock) .initial events n).loop.currentBlock =
        some currentBlock →
      startBlock < currentBlock →
      Covers (Run.stateAt (State.step startBlock) .initial events n).requests startBlock
        currentBlock) ∧
    Gapless (Run.stateAt (State.step startBlock) .initial events n).requests ∧
    Advances (Run.stateAt (State.step startBlock) .initial events n)
      (Run.stateAt (State.step startBlock) .initial events (n + k)) := by
  have tracks := tracks_stateAt startBlock events n
  refine ⟨?_, tracks.gapless, ?_⟩
  · intro currentBlock here moved
    have resumed := tracks.resumes currentBlock here
    rw [resumed] at moved ⊢
    exact tracks.covered moved
  · apply advances_of_tracks startBlock tracks (tracks_stateAt startBlock events (n + k))
    intro b saved
    have later : Run.stateAt (State.step startBlock) .initial events (n + k) =
        Run.run (State.step startBlock) (Run.stateAt (State.step startBlock) .initial events n)
          ((events.drop n).take k) := by
      rw [Run.stateAt, Run.stateAt, ← Run.run_append, List.take_add]
    rw [later]
    exact lastBlock_run startBlock _ tracks _ b saved

end Runs

section Monitor

variable {decodeLog : LogData → Option Deposit} (chain : Chain decodeLog) (startBlock : Nat)

/-- What an access of the monitor means for the loop. -/
def eventsOf (s : ChainMonitor.State) : Happening → List Event
  | .start readable => [.start readable]
  | .shutdown =>
      match s.monitor with
      | .polling _ => [.stop]
      | _ => []
  | .poll latestBlock respond =>
      match s.monitor with
      | .polling currentBlock =>
          let endBlock := windowEnd currentBlock (latestBlock.getD 0)
          [.poll latestBlock (getLogs chain respond (endBlock - currentBlock) currentBlock
            endBlock).isSome]
      | _ => []
  | .setLastProcessedBlock written =>
      match s.monitor with
      | .processing _ [] => [.setLastProcessedBlock written]
      | _ => []
  | .isProcessed _ | .handleEvent _ | .markProcessed _ | .receive _ _ => []
  | .crash => [.stop]

/-- The loop is in the same place, with the same checkpoint. -/
def At (position : Position) (loop : Loop) : Prop :=
  match position with
  | .stopped => loop = .stopped
  | .polling currentBlock => loop = .polling currentBlock
  | .processing endBlock _ | .handling endBlock _ _ | .handled endBlock _ _ =>
      ∃ currentBlock, loop = .processing currentBlock endBlock

structure Follows (s : ChainMonitor.State) (p : State) : Prop where
  lastBlock : p.lastBlock = s.lastBlock
  position : At s.monitor p.loop

variable {chain} {startBlock} {s : ChainMonitor.State} {p : State}

theorem follows_start (h : Follows s p) (readable : Bool) :
    Follows (s.start startBlock readable) (p.start startBlock readable) := by
  have place := h.position
  rw [ChainMonitor.State.start, State.start]
  cases position : s.monitor with
  | stopped =>
    rw [position] at place
    rw [show p.loop = .stopped from place]
    cases readable with
    | false => exact h
    | true =>
      exact ⟨h.lastBlock, congrArg Loop.polling (congrArg (Option.getD · startBlock) h.lastBlock)⟩
  | polling currentBlock =>
    rw [position] at place
    rw [show p.loop = .polling currentBlock from place]
    exact h
  | processing endBlock logs =>
    rw [position] at place
    obtain ⟨currentBlock, here⟩ := place
    rw [here]
    exact h
  | handling endBlock log logs =>
    rw [position] at place
    obtain ⟨currentBlock, here⟩ := place
    rw [here]
    exact h
  | handled endBlock log logs =>
    rw [position] at place
    obtain ⟨currentBlock, here⟩ := place
    rw [here]
    exact h

theorem follows_poll (h : Follows s p) (latestBlock : Option Nat) (respond : Nat → Nat → Response) :
    Follows (s.poll chain latestBlock respond)
      (Run.run (State.step startBlock) p (eventsOf chain s (.poll latestBlock respond))) := by
  have place := h.position
  cases position : s.monitor with
  | polling currentBlock =>
    rw [position] at place
    have here : p.loop = .polling currentBlock := place
    simp only [ChainMonitor.State.poll, eventsOf, position, Run.run, State.step, State.poll, here]
    cases latestBlock with
    | none => exact h
    | some latest =>
      simp only [pollForEvents, Option.getD_some]
      by_cases still : windowEnd currentBlock latest ≤ currentBlock
      · rw [if_pos still, if_pos still]
        exact ⟨h.lastBlock, currentBlock, rfl⟩
      · rw [if_neg still, if_neg still]
        rcases Option.eq_none_or_eq_some (getLogs chain respond
          (windowEnd currentBlock latest - currentBlock) currentBlock
          (windowEnd currentBlock latest)) with failed | ⟨logs, found⟩
        · rw [if_neg (by simp [failed]), failed]
          exact h
        · rw [if_pos (by simp [found]), found]
          exact ⟨h.lastBlock, currentBlock, rfl⟩
  | stopped | processing | handling | handled =>
    simp only [ChainMonitor.State.poll, eventsOf, position, Run.run]
    exact h

theorem follows_setLastProcessedBlock (h : Follows s p) (written : Bool) :
    Follows (s.setLastProcessedBlock written)
      (Run.run (State.step startBlock) p (eventsOf chain s (.setLastProcessedBlock written))) := by
  have place := h.position
  cases position : s.monitor with
  | processing endBlock logs =>
    cases logs with
    | nil =>
      rw [position] at place
      obtain ⟨currentBlock, here⟩ := place
      simp only [ChainMonitor.State.setLastProcessedBlock, eventsOf, position, Run.run, State.step,
        State.setLastProcessedBlock, here]
      cases written with
      | false => exact ⟨h.lastBlock, rfl⟩
      | true => exact ⟨rfl, rfl⟩
    | cons log logs =>
      simp only [ChainMonitor.State.setLastProcessedBlock, eventsOf, position, Run.run]
      exact h
  | stopped | polling | handling | handled =>
    simp only [ChainMonitor.State.setLastProcessedBlock, eventsOf, position, Run.run]
    exact h

theorem follows_shutdown (h : Follows s p) :
    Follows s.shutdown (Run.run (State.step startBlock) p (eventsOf chain s .shutdown)) := by
  cases position : s.monitor with
  | polling currentBlock =>
    simp only [ChainMonitor.State.shutdown, eventsOf, position, Run.run, State.step, State.stop]
    exact ⟨h.lastBlock, rfl⟩
  | stopped | processing | handling | handled =>
    simp only [ChainMonitor.State.shutdown, eventsOf, position, Run.run]
    exact h

/-- A change that leaves the checkpoint and the window alone. -/
theorem Follows.stay (h : Follows s p) (s' : ChainMonitor.State)
    (lastBlock : s'.lastBlock = s.lastBlock)
    (position : At s.monitor p.loop → At s'.monitor p.loop) : Follows s' p :=
  ⟨h.lastBlock.trans lastBlock.symm, position h.position⟩

theorem follows_checkProcessed (h : Follows s p) (readable : Bool) :
    Follows (s.checkProcessed readable) p := by
  rw [ChainMonitor.State.checkProcessed]
  split
  · rename_i endBlock log logs here
    split
    · apply h.stay
      · rfl
      · intro place
        rw [here] at place
        exact place
    · split
      · apply h.stay
        · rfl
        · intro place
          rw [here] at place
          exact place
      · apply h.stay
        · rfl
        · intro place
          rw [here] at place
          exact place
  · exact h

theorem follows_handleEvent (h : Follows s p) (connected : Bool) :
    Follows (s.handleEvent decodeLog connected) p := by
  rw [ChainMonitor.State.handleEvent]
  split
  · rename_i endBlock log logs here
    have stays (s' : ChainMonitor.State) (lastBlock : s'.lastBlock = s.lastBlock)
        (position : At (.handling endBlock log logs) p.loop → At s'.monitor p.loop) :
          Follows s' p := by
      apply h.stay s' lastBlock
      rw [here]
      exact position
    split
    · exact stays _ rfl id
    · split
      · exact stays _ rfl id
      · split
        · exact stays _ rfl id
        · exact h
  · exact h

theorem follows_mark (h : Follows s p) (written : Bool) : Follows (s.mark written) p := by
  rw [ChainMonitor.State.mark]
  split
  · rename_i endBlock log logs here
    apply h.stay
    · rfl
    · intro place
      rw [here] at place
      exact place
  · exact h

variable (chain startBlock) in
/-- The loop follows the monitor through each of its accesses. -/
theorem follows_step (h : Follows s p) (e : Happening) :
    Follows (s.step chain startBlock e)
      (Run.run (State.step startBlock) p (eventsOf chain s e)) := by
  cases e with
  | start readable => exact follows_start h readable
  | shutdown => exact follows_shutdown h
  | poll latestBlock respond => exact follows_poll h latestBlock respond
  | isProcessed readable => exact follows_checkProcessed h readable
  | handleEvent connected => exact follows_handleEvent h connected
  | markProcessed written => exact follows_mark h written
  | setLastProcessedBlock written => exact follows_setLastProcessedBlock h written
  | receive now inserted =>
    change Follows (s.receive now inserted) p
    rw [ChainMonitor.State.receive]
    split
    · exact h
    · exact h.stay _ rfl id
  | crash => exact ⟨h.lastBlock, rfl⟩

variable (chain startBlock) in
/-- Behind every run of the monitor with its logs is a run of the loop. -/
theorem follows_run (happenings : List Happening) (h : Follows s p) :
    ∃ events, Follows (Run.run (ChainMonitor.State.step chain startBlock) s happenings)
      (Run.run (State.step startBlock) p events) := by
  induction happenings generalizing s p with
  | nil => exact ⟨[], h⟩
  | cons e happenings ih =>
    obtain ⟨events, follows⟩ := ih (follows_step chain startBlock h e)
    refine ⟨eventsOf chain s e ++ events, ?_⟩
    rw [Run.run_append]
    exact follows

end Monitor

end SyndDB.ChainMonitor.Polling
