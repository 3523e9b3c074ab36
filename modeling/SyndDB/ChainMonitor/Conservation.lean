import SyndDB.ChainMonitor.Logs

namespace SyndDB.ChainMonitor

open Octets Shared
open Contracts (Bytes32 UInt256 word)

variable {decodeLog : LogData → Option Deposit} (chain : Chain decodeLog)

namespace State

variable (decodeLog) (startBlock : Nat)

def Recorded (s : State) (d : DepositData) : Prop := ∃ row ∈ s.deposits, row.deposit = d

def Kept (s : State) (d : DepositData) : Prop := s.Recorded d ∨ d ∈ s.channel

/-- The block from which the monitor resumes after a crash. -/
def checkpoint (s : State) : Nat := s.lastBlock.getD startBlock

/-- The deposit is not before the end of the range, or of a log that is still to be processed. -/
def Ahead (endBlock : Nat) (logs : List Log) (d : DepositData) : Prop :=
  endBlock ≤ d.blockNumber ∨ ∃ log ∈ logs, depositData decodeLog log = some d

/-- The monitor has still to come to the log of the deposit. -/
def Comes (s : State) (d : DepositData) : Prop :=
  match s.monitor with
  | .stopped => s.checkpoint startBlock ≤ d.blockNumber
  | .polling currentBlock => currentBlock ≤ d.blockNumber
  | .processing endBlock logs => Ahead decodeLog endBlock logs d
  | .handling endBlock log logs => Ahead decodeLog endBlock (log :: logs) d
  | .handled endBlock log logs =>
      depositData decodeLog log ≠ some d ∧ Ahead decodeLog endBlock logs d

/-- The loop goes on without the log: its deposit is kept already or met again. -/
def MayDrop (s : State) (endBlock : Nat) (log : Log) (logs : List Log) : Prop :=
  ∀ d, depositData decodeLog log = some d → s.Kept d ∨ Ahead decodeLog endBlock logs d

/-- An error drops a log only when `MayDrop` holds. A failed insertion or a crash takes a deposit
from the channel only when it is recorded, or its log will be found unprocessed. -/
def Careful (s : State) : Happening → Prop
  | .isProcessed false =>
      match s.monitor with
      | .processing endBlock (log :: logs) => s.MayDrop decodeLog endBlock log logs
      | _ => True
  | .handleEvent false =>
      match s.monitor with
      | .handling endBlock log logs => s.MayDrop decodeLog endBlock log logs
      | _ => True
  | .receive _ false =>
      match s.channel with
      | [] => True
      | d :: ds => s.Recorded d ∨ d ∈ ds ∨
          s.isProcessed d.txHash = false ∧ s.checkpoint startBlock ≤ d.blockNumber ∧
            s.Comes decodeLog startBlock d
  | .crash => ∀ d ∈ s.channel, s.Recorded d ∨
      s.isProcessed d.txHash = false ∧ s.checkpoint startBlock ≤ d.blockNumber
  | _ => True

end State

/-- The logs in hand are of the chain, from the first block that is asked for. -/
def Chain.Holds (startBlock : Nat) (logs : List Log) : Prop :=
  ∀ log ∈ logs, ∃ b, startBlock ≤ b ∧ log ∈ chain.logs b

def Chain.Places (startBlock : Nat) : Position → Prop
  | .stopped => True
  | .polling currentBlock => startBlock ≤ currentBlock
  | .processing endBlock logs => startBlock ≤ endBlock ∧ chain.Holds startBlock logs
  | .handling endBlock log logs | .handled endBlock log logs =>
      startBlock ≤ endBlock ∧ chain.Holds startBlock (log :: logs)

/-- A deposit that is marked, or that neither the monitor nor its next start comes to, is kept. -/
structure Conserves (startBlock : Nat) (s : State) : Prop where
  keys : (s.deposits.map fun row => row.deposit.txHash).Nodup
  rows : ∀ row ∈ s.deposits, chain.Emits row.deposit
  queued : ∀ d ∈ s.channel, chain.Emits d
  marked : ∀ d, chain.Emits d → s.isProcessed d.txHash = true → s.Kept d
  late : startBlock ≤ s.checkpoint startBlock
  placed : chain.Places startBlock s.monitor
  saved : ∀ d, chain.Emits d → startBlock ≤ d.blockNumber →
    s.checkpoint startBlock ≤ d.blockNumber ∨ s.Kept d
  owed : ∀ d, chain.Emits d → startBlock ≤ d.blockNumber →
    s.Comes decodeLog startBlock d ∨ s.Kept d

theorem conserves_initial (startBlock : Nat) : Conserves chain startBlock State.initial where
  keys := List.nodup_nil
  rows := by simp [State.initial]
  queued := by simp [State.initial]
  marked := by simp [State.initial, State.isProcessed]
  late := Nat.le_refl _
  placed := trivial
  saved := fun _ _ h => Or.inl h
  owed := fun _ _ h => Or.inl h

namespace State

theorem markProcessed_any (s : State) (log : Log) (hash : Bytes32) (text : Hex)
    (transaction : log.transactionHash = some hash)
    (h : ((s.markProcessed log).any fun e => e.txHash = text) = true) :
    s.isProcessed text = true ∨ text = txText hash := by
  simp only [markProcessed, transaction] at h
  by_cases before : s.isProcessed (txText hash) = true
  · rw [if_pos before] at h
    exact Or.inl h
  · rw [if_neg before, List.any_append, Bool.or_eq_true] at h
    rcases h with earlier | now
    · exact Or.inl earlier
    · have same : txText hash = text := by simpa using now
      exact Or.inr same.symm

variable (s : State) (d : DepositData) (now : Nat)

theorem mem_insertDeposit (row : DepositRow) (h : row ∈ s.insertDeposit d now) :
    row ∈ s.deposits ∨ row = ⟨d, now⟩ := by
  rw [insertDeposit] at h
  split at h
  · exact Or.inl h
  · simpa using h

theorem deposits_subset : s.deposits ⊆ s.insertDeposit d now := by
  rw [insertDeposit]
  split
  · exact List.Subset.refl _
  · exact List.subset_append_left _ _

theorem insertDeposit_found : ∃ row ∈ s.insertDeposit d now, row.deposit.txHash = d.txHash := by
  rw [insertDeposit]
  split
  · rename_i found
    simpa using found
  · exact ⟨⟨d, now⟩, by simp, rfl⟩

theorem nodup_insertDeposit (h : (s.deposits.map fun row => row.deposit.txHash).Nodup) :
    ((s.insertDeposit d now).map fun row => row.deposit.txHash).Nodup := by
  rw [insertDeposit]
  split
  · exact h
  · rename_i fresh
    rw [List.map_append, List.nodup_append]
    refine ⟨h, by simp, ?_⟩
    intro key member key' hkey' same
    obtain ⟨row, hrow, hkey⟩ := List.mem_map.mp member
    have last : key' = d.txHash := by simpa using hkey'
    apply fresh
    rw [List.any_eq_true]
    exact ⟨row, hrow, by simp [hkey, same, last]⟩

end State

section Changes

theorem State.Ahead.tail {endBlock : Nat} {log : Log} {logs : List Log} {d : DepositData}
    (h : State.Ahead decodeLog endBlock (log :: logs) d)
    (other : depositData decodeLog log ≠ some d) :
    State.Ahead decodeLog endBlock logs d := by
  rcases h with high | ⟨log', member, hlog'⟩
  · exact Or.inl high
  · rcases List.mem_cons.mp member with rfl | later
    · exact absurd hlog' other
    · exact Or.inr ⟨log', later, hlog'⟩

variable {chain} {startBlock : Nat} {s : State}

theorem Chain.Holds.tail {log : Log} {logs : List Log} (h : chain.Holds startBlock (log :: logs)) :
    chain.Holds startBlock logs := by
  intro log' member
  exact h log' (List.mem_cons_of_mem log member)

theorem Conserves.move (h : Conserves chain startBlock s) (p : Position)
    (placed : chain.Places startBlock p)
    (owed : ∀ d, chain.Emits d → startBlock ≤ d.blockNumber → s.Comes decodeLog startBlock d →
      { s with monitor := p }.Comes decodeLog startBlock d ∨ s.Kept d) :
    Conserves chain startBlock { s with monitor := p } where
  keys := h.keys
  rows := h.rows
  queued := h.queued
  marked := h.marked
  late := h.late
  placed := placed
  saved := h.saved
  owed := by
    intro d emits low
    rcases h.owed d emits low with comes | kept
    · exact owed d emits low comes
    · exact Or.inr kept

/-- A thread that ends leaves its range to the next one. -/
theorem Conserves.stop (h : Conserves chain startBlock s) :
    Conserves chain startBlock { s with monitor := .stopped } := by
  apply h.move .stopped trivial
  intro d emits low _
  exact h.saved d emits low

theorem Conserves.checkpoint (h : Conserves chain startBlock s) (endBlock : Nat)
    (hs : s.monitor = .processing endBlock []) :
    Conserves chain startBlock
      { s with lastBlock := some endBlock, monitor := .polling endBlock } := by
  have placed := h.placed
  rw [hs] at placed
  have passed : ∀ d, chain.Emits d → startBlock ≤ d.blockNumber →
      endBlock ≤ d.blockNumber ∨ s.Kept d := by
    intro d emits low
    have owed := h.owed d emits low
    simp only [State.Comes, hs, State.Ahead, List.not_mem_nil, false_and, exists_false, or_false]
      at owed
    exact owed
  exact { keys := h.keys, rows := h.rows, queued := h.queued, marked := h.marked,
          late := placed.1, placed := placed.1, saved := passed, owed := passed }

/-- Every deposit that is kept stays so. -/
theorem Conserves.grow (h : Conserves chain startBlock s) (deposits : List DepositRow)
    (channel : List DepositData) (keys : (deposits.map fun row => row.deposit.txHash).Nodup)
    (rows : ∀ row ∈ deposits, chain.Emits row.deposit) (queued : ∀ d ∈ channel, chain.Emits d)
    (kept : ∀ d, s.Kept d → { s with deposits := deposits, channel := channel }.Kept d) :
    Conserves chain startBlock { s with deposits := deposits, channel := channel } where
  keys := keys
  rows := rows
  queued := queued
  marked := fun d emits processed => kept d (h.marked d emits processed)
  late := h.late
  placed := h.placed
  saved := fun d emits low => (h.saved d emits low).imp_right (kept d)
  owed := fun d emits low => (h.owed d emits low).imp_right (kept d)

theorem Conserves.queue (h : Conserves chain startBlock s) (endBlock : Nat) (log : Log)
    (logs : List Log) (d : DepositData) (hs : s.monitor = .handling endBlock log logs)
    (hd : depositData decodeLog log = some d) :
    Conserves chain startBlock
      { s with channel := s.channel ++ [d], monitor := .handled endBlock log logs } := by
  have placed := h.placed
  rw [hs] at placed
  obtain ⟨b, -, hlog⟩ := placed.2 log (by simp)
  have grown : Conserves chain startBlock { s with channel := s.channel ++ [d] } := by
    apply h.grow s.deposits (s.channel ++ [d]) h.keys h.rows
    · intro d' member
      rcases List.mem_append.mp member with before | last
      · exact h.queued d' before
      · rw [List.mem_singleton.mp last]
        exact ⟨b, log, hlog, hd⟩
    · intro d' hkept
      exact hkept.imp_right (List.mem_append_left [d])
  apply grown.move (.handled endBlock log logs) placed
  intro d' _ _ comes
  simp only [State.Comes, hs] at comes
  by_cases same : d' = d
  · exact Or.inr (Or.inr (by simp [same]))
  · have other : depositData decodeLog log ≠ some d' := by
      rw [hd]
      intro equal
      exact same (Option.some.inj equal).symm
    exact Or.inl ⟨other, comes.tail other⟩

/-- The log in hand was queued. -/
theorem Conserves.next (h : Conserves chain startBlock s) (endBlock : Nat) (log : Log)
    (logs : List Log) (hs : s.monitor = .handled endBlock log logs) :
    Conserves chain startBlock { s with monitor := .processing endBlock logs } := by
  have placed := h.placed
  rw [hs] at placed
  apply h.move (.processing endBlock logs) ⟨placed.1, placed.2.tail⟩
  intro d _ _ comes
  simp only [State.Comes, hs] at comes
  exact Or.inl comes.2

theorem Conserves.mark (single : chain.SingleDeposits) (h : Conserves chain startBlock s)
    (endBlock : Nat) (log : Log) (logs : List Log) (hs : s.monitor = .handled endBlock log logs) :
    Conserves chain startBlock
      { s with processedEvents := s.markProcessed log, monitor := .processing endBlock logs } := by
  have placed := h.placed
  rw [hs] at placed
  obtain ⟨b, low, hlog⟩ := placed.2 log (by simp)
  obtain ⟨d, hash, hd, block, transaction, text⟩ := chain.depositData_some b log hlog
  have emits : chain.Emits d := ⟨b, log, hlog, hd⟩
  have sent : s.Kept d := by
    have owed := h.owed d emits (by omega)
    simp only [State.Comes, hs, hd, ne_eq, not_true_eq_false, false_and, false_or] at owed
    exact owed
  have moved := h.next endBlock log logs hs
  exact
    { keys := h.keys
      rows := h.rows
      queued := h.queued
      marked := by
        intro d' emits' processed
        rcases State.markProcessed_any s log hash d'.txHash transaction processed with before | now
        · exact h.marked d' emits' before
        · rw [single.same_data d' d emits' emits (now.trans text.symm)]
          exact sent
      late := h.late
      placed := moved.placed
      saved := h.saved
      owed := moved.owed }

theorem Conserves.insert (single : chain.SingleDeposits) (h : Conserves chain startBlock s)
    (d : DepositData) (ds : List DepositData) (now : Nat) (hs : s.channel = d :: ds) :
    Conserves chain startBlock { s with channel := ds, deposits := s.insertDeposit d now } := by
  have emits : chain.Emits d := h.queued d (by simp [hs])
  have recorded : ∃ row ∈ s.insertDeposit d now, row.deposit = d := by
    obtain ⟨row, member, same⟩ := State.insertDeposit_found s d now
    rcases State.mem_insertDeposit s d now row member with before | rfl
    · exact ⟨row, member, single.same_data row.deposit d (h.rows row before) emits same⟩
    · exact ⟨_, member, rfl⟩
  apply h.grow (s.insertDeposit d now) ds (State.nodup_insertDeposit s d now h.keys)
  · intro row member
    rcases State.mem_insertDeposit s d now row member with before | rfl
    · exact h.rows row before
    · exact emits
  · intro d' member
    exact h.queued d' (by simp [hs, member])
  · intro d' hkept
    rcases hkept with ⟨row, member, same⟩ | member
    · exact Or.inl ⟨row, State.deposits_subset s d now member, same⟩
    · rw [hs] at member
      rcases List.mem_cons.mp member with rfl | later
      · exact Or.inl recorded
      · exact Or.inr later

/-- Deposits of the channel are lost that are recorded, or that the monitor comes to again. -/
theorem Conserves.lose (h : Conserves chain startBlock s) (ds : List DepositData)
    (sub : ∀ d ∈ ds, d ∈ s.channel)
    (lost : ∀ d ∈ s.channel, s.Recorded d ∨ d ∈ ds ∨
      s.isProcessed d.txHash = false ∧ s.checkpoint startBlock ≤ d.blockNumber ∧
        s.Comes decodeLog startBlock d) :
    Conserves chain startBlock { s with channel := ds } := by
  have kept : ∀ d, s.Kept d → { s with channel := ds }.Kept d ∨
      s.isProcessed d.txHash = false ∧ s.checkpoint startBlock ≤ d.blockNumber ∧
        s.Comes decodeLog startBlock d := by
    intro d hkept
    rcases hkept with recorded | member
    · exact Or.inl (Or.inl recorded)
    · rcases lost d member with recorded | still | again
      · exact Or.inl (Or.inl recorded)
      · exact Or.inl (Or.inr still)
      · exact Or.inr again
  exact
    { keys := h.keys
      rows := h.rows
      queued := fun d member => h.queued d (sub d member)
      marked := by
        intro d emits processed
        have processed' : s.isProcessed d.txHash = true := processed
        rcases kept d (h.marked d emits processed) with hkept | ⟨unmarked, -, -⟩
        · exact hkept
        · rw [unmarked] at processed'
          cases processed'
      late := h.late
      placed := h.placed
      saved := by
        intro d emits low
        rcases h.saved d emits low with later | hkept
        · exact Or.inl later
        · rcases kept d hkept with still | ⟨-, later, -⟩
          · exact Or.inr still
          · exact Or.inl later
      owed := by
        intro d emits low
        rcases h.owed d emits low with comes | hkept
        · exact Or.inl comes
        · rcases kept d hkept with still | ⟨-, -, comes⟩
          · exact Or.inr still
          · exact Or.inl comes }

end Changes

section Steps

variable {chain} {startBlock : Nat} {s : State}

theorem conserves_start (h : Conserves chain startBlock s) (readable : Bool) :
    Conserves chain startBlock (s.start startBlock readable) := by
  rw [State.start]
  split
  · split
    · apply h.move (.polling (s.checkpoint startBlock)) h.late
      intro d emits low _
      exact h.saved d emits low
    · exact h
  · exact h

theorem conserves_shutdown (h : Conserves chain startBlock s) :
    Conserves chain startBlock s.shutdown := by
  rw [State.shutdown]
  split
  · exact h.stop
  · exact h

theorem conserves_poll (h : Conserves chain startBlock s) (latestBlock : Option Nat)
    (respond : Nat → Nat → Response) :
    Conserves chain startBlock (s.poll chain latestBlock respond) := by
  rw [State.poll]
  split
  · rename_i currentBlock hs
    have placed := h.placed
    rw [hs] at placed
    split
    · exact h
    · rename_i logs endBlock answer
      obtain ⟨forward, held, all⟩ :=
        pollForEvents_some chain currentBlock latestBlock respond logs endBlock answer
      have low : startBlock ≤ currentBlock := placed
      apply h.move
      · refine ⟨Nat.le_trans low forward, ?_⟩
        intro log member
        obtain ⟨b, hb, hlog⟩ := held log member
        exact ⟨b, Nat.le_trans low hb, hlog⟩
      · intro d emits _ comes
        simp only [State.Comes, hs] at comes
        obtain ⟨b, log, hlog, hd⟩ := emits
        have block := chain.emits_block b log d hlog hd
        by_cases high : endBlock ≤ d.blockNumber
        · exact Or.inl (Or.inl high)
        · exact Or.inl (Or.inr ⟨log, all b (by omega) (by omega) log hlog, hd⟩)
  · exact h

/-- The loop goes on to the next log. -/
theorem Conserves.drop (h : Conserves chain startBlock s) (endBlock : Nat) (log : Log)
    (logs : List Log)
    (hs : s.monitor = .processing endBlock (log :: logs) ∨ s.monitor = .handling endBlock log logs)
    (may : s.MayDrop decodeLog endBlock log logs) :
    Conserves chain startBlock { s with monitor := .processing endBlock logs } := by
  have placed : startBlock ≤ endBlock ∧ chain.Holds startBlock (log :: logs) := by
    have placed := h.placed
    rcases hs with hs | hs <;> rw [hs] at placed <;> exact placed
  apply h.move (.processing endBlock logs) ⟨placed.1, placed.2.tail⟩
  intro d _ _ comes
  have ahead : State.Ahead decodeLog endBlock (log :: logs) d := by
    rcases hs with hs | hs <;> simp only [State.Comes, hs] at comes <;> exact comes
  by_cases same : depositData decodeLog log = some d
  · exact (may d same).symm
  · exact Or.inl (ahead.tail same)

theorem conserves_checkProcessed (h : Conserves chain startBlock s) (readable : Bool)
    (careful : s.Careful decodeLog startBlock (.isProcessed readable)) :
    Conserves chain startBlock (s.checkProcessed readable) := by
  rw [State.checkProcessed]
  split
  · rename_i endBlock log logs hs
    have placed := h.placed
    rw [hs] at placed
    obtain ⟨b, -, hlog⟩ := placed.2 log (by simp)
    obtain ⟨d, hash, hd, -, transaction, text⟩ := chain.depositData_some b log hlog
    have taken : Conserves chain startBlock { s with monitor := .handling endBlock log logs } := by
      apply h.move (.handling endBlock log logs) placed
      intro d' _ _ comes
      simp only [State.Comes, hs] at comes
      exact Or.inl comes
    rw [transaction]
    simp only
    split
    · rename_i skipped
      apply h.drop endBlock log logs (Or.inl hs)
      cases readable with
      | false => simpa only [State.Careful, hs] using careful
      | true =>
        intro d' hd'
        obtain rfl : d = d' := Option.some.inj (hd.symm.trans hd')
        apply Or.inl
        apply h.marked d ⟨b, log, hlog, hd⟩
        rw [text]
        simpa using skipped
    · exact taken
  · exact h

theorem conserves_handleEvent (h : Conserves chain startBlock s) (connected : Bool)
    (careful : s.Careful decodeLog startBlock (.handleEvent connected)) :
    Conserves chain startBlock (s.handleEvent decodeLog connected) := by
  rw [State.handleEvent]
  split
  · rename_i endBlock log logs hs
    split
    · rename_i nothing
      apply h.drop endBlock log logs (Or.inr hs)
      intro d hd
      rw [nothing] at hd
      cases hd
    · rename_i d hd
      cases connected with
      | false =>
        apply h.drop endBlock log logs (Or.inr hs)
        simpa only [State.Careful, hs] using careful
      | true =>
        simp only [Bool.not_true, Bool.false_eq_true, if_false]
        split
        · exact h.queue endBlock log logs d hs hd
        · exact h
  · exact h

theorem conserves_mark (single : chain.SingleDeposits) (h : Conserves chain startBlock s)
    (written : Bool) : Conserves chain startBlock (s.mark written) := by
  rw [State.mark]
  split
  · rename_i endBlock log logs hs
    cases written with
    | true => exact h.mark single endBlock log logs hs
    | false => exact h.next endBlock log logs hs
  · exact h

theorem conserves_setLastProcessedBlock (h : Conserves chain startBlock s) (written : Bool) :
    Conserves chain startBlock (s.setLastProcessedBlock written) := by
  rw [State.setLastProcessedBlock]
  split
  · rename_i endBlock hs
    split
    · exact h.checkpoint endBlock hs
    · exact h.stop
  · exact h

theorem conserves_receive (single : chain.SingleDeposits) (h : Conserves chain startBlock s)
    (now : Nat) (inserted : Bool)
    (careful : s.Careful decodeLog startBlock (.receive now inserted)) :
    Conserves chain startBlock (s.receive now inserted) := by
  rw [State.receive]
  split
  · exact h
  · rename_i d ds hs
    cases inserted with
    | true => exact h.insert single d ds now hs
    | false =>
      simp only [State.Careful, hs] at careful
      apply h.lose ds
      · intro d' member
        simp [hs, member]
      · intro d' member
        rw [hs] at member
        rcases List.mem_cons.mp member with rfl | later
        · exact careful
        · exact Or.inr (Or.inl later)

theorem conserves_crash (h : Conserves chain startBlock s)
    (careful : s.Careful decodeLog startBlock .crash) : Conserves chain startBlock s.crash := by
  apply h.stop.lose []
  · simp
  · intro d member
    rcases careful d member with recorded | ⟨unmarked, later⟩
    · exact Or.inl recorded
    · exact Or.inr (Or.inr ⟨unmarked, later, later⟩)

theorem conserves_step (single : chain.SingleDeposits) (s : State) (e : Happening)
    (h : Conserves chain startBlock s) (careful : s.Careful decodeLog startBlock e) :
    Conserves chain startBlock (s.step chain startBlock e) := by
  cases e with
  | start readable => exact conserves_start h readable
  | shutdown => exact conserves_shutdown h
  | poll latestBlock respond => exact conserves_poll h latestBlock respond
  | isProcessed readable => exact conserves_checkProcessed h readable careful
  | handleEvent connected => exact conserves_handleEvent h connected careful
  | markProcessed written => exact conserves_mark single h written
  | setLastProcessedBlock written => exact conserves_setLastProcessedBlock h written
  | receive now inserted => exact conserves_receive single h now inserted careful
  | crash => exact conserves_crash h careful

end Steps

/-- The deposits of a block that the table holds, one for each row. -/
def State.depositsOf (s : State) (b : Nat) : List DepositData :=
  (s.deposits.map DepositRow.deposit).filter fun d => d.blockNumber = b

theorem State.mem_depositsOf (s : State) (b : Nat) (d : DepositData) :
    d ∈ s.depositsOf b ↔ s.Recorded d ∧ d.blockNumber = b := by
  simp [State.depositsOf, State.Recorded]

theorem Conserves.nodup_depositsOf {chain : Chain decodeLog} {startBlock : Nat} {s : State}
    (h : Conserves chain startBlock s) (b : Nat) : (s.depositsOf b).Nodup := by
  have keys := h.keys
  rw [show (fun row : DepositRow => row.deposit.txHash) = DepositData.txHash ∘ DepositRow.deposit
    from rfl, ← List.map_map] at keys
  exact (List.Nodup.of_map _ keys).filter _

/-- Below the checkpoint every deposit is recorded once the channel is drained. -/
theorem Conserves.perm_depositsOf {chain : Chain decodeLog} {startBlock : Nat} {s : State}
    (h : Conserves chain startBlock s) (b : Nat) (low : startBlock ≤ b)
    (passed : b < s.checkpoint startBlock) (drained : s.channel = []) :
    (s.depositsOf b).Perm (chain.depositsOf b) := by
  rw [List.perm_ext_iff_of_nodup (h.nodup_depositsOf b) (chain.nodup_depositsOf b)]
  intro d
  rw [State.mem_depositsOf, Chain.mem_depositsOf]
  constructor
  · intro given
    obtain ⟨⟨row, member, rfl⟩, block⟩ := given
    exact ⟨h.rows row member, block⟩
  · intro given
    obtain ⟨emits, block⟩ := given
    refine ⟨?_, block⟩
    rcases h.saved d emits (by omega) with later | recorded | queued
    · omega
    · exact recorded
    · rw [drained] at queued
      cases queued

/-- When no transaction has two deposits and no error, failed insertion or crash loses one, the
table holds a row for each log of the blocks from the start block to the checkpoint whenever the
channel is drained. -/
theorem deposits_conserved (startBlock : Nat) (happenings : List Happening)
    (single : chain.SingleDeposits)
    (careful : Run.Along (State.step chain startBlock) (State.Careful decodeLog startBlock) .initial
      happenings) (n : Nat) (lastBlock b : Nat)
    (passed : (Run.stateAt (State.step chain startBlock) .initial happenings n).lastBlock =
      some lastBlock) (low : startBlock ≤ b) (high : b < lastBlock)
    (drained : (Run.stateAt (State.step chain startBlock) .initial happenings n).channel = []) :
    ((Run.stateAt (State.step chain startBlock) .initial happenings n).depositsOf b).Perm
      (chain.depositsOf b) := by
  have conserves : Conserves chain startBlock
      (Run.stateAt (State.step chain startBlock) .initial happenings n) := by
    apply Run.along_invariant (State.step chain startBlock) (conserves_step single) .initial
    · exact conserves_initial chain startBlock
    · exact Run.along_take _ _ _ _ n careful
  apply conserves.perm_depositsOf b low _ drained
  rw [State.checkpoint, passed]
  exact high

namespace Sample

/-- The hash of `Deposit(address,address,uint256,bytes)`. -/
def depositTopic : Bytes32 := 0xd5d9ab68ad56311de2cda7e56730c5a58bcd4c9d071b9fe5f8efcdb1ccc9251d

/-- The amount, the offset of the data, its length and the data. -/
def decodeDeposit (log : LogData) : Option Deposit :=
  match log.topics with
  | [topic, sender, receiver] =>
      if topic = depositTopic ∧ 96 ≤ log.data.length then
        some
          { fromAddress := sender.truncate 160
            toAddress := receiver.truncate 160
            amount := BitVec.ofNat 256 (fromBigEndian (log.data.take 32))
            data := (log.data.drop 96).take (fromBigEndian ((log.data.drop 64).take 32)) }
      else none
  | _ => none

def deposit (hash : Bytes32) (index : Nat) (amount : UInt256) : Log :=
  { transactionHash := some hash
    blockNumber := some 1
    logIndex := some index
    inner := ⟨[depositTopic, 0xa, 0xb], word amount ++ word 0x40 ++ word 0⟩ }

def blockLogs (hash hash' : Bytes32) (b : Nat) : List Log :=
  if b = 1 then [deposit hash 0 5, deposit hash' 1 7] else []

theorem mem_blockLogs (hash hash' : Bytes32) (b : Nat) (log : Log)
    (h : log ∈ blockLogs hash hash' b) :
    b = 1 ∧ (log = deposit hash 0 5 ∨ log = deposit hash' 1 7) := by
  rw [blockLogs] at h
  split at h
  · rename_i first
    exact ⟨first, by simpa using h⟩
  · cases h

/-- Two deposits in a block. -/
def history (hash hash' : Bytes32) : Chain decodeDeposit where
  logs := blockLogs hash hash'
  mined := by
    intro b log h
    obtain ⟨rfl, rfl | rfl⟩ := mem_blockLogs hash hash' b log h
    · exact ⟨rfl, hash, rfl⟩
    · exact ⟨rfl, hash', rfl⟩
  deposits := by
    intro b log h
    obtain ⟨rfl, rfl | rfl⟩ := mem_blockLogs hash hash' b log h
    · exact ⟨⟨0xa, 0xb, 5, []⟩, by simp only [deposit]; decide, by decide⟩
    · exact ⟨⟨0xa, 0xb, 7, []⟩, by simp only [deposit]; decide, by decide⟩
  indices := by
    intro b
    rw [blockLogs]
    split
    · simp [deposit]
    · simp
  oneBlock := by
    intro b b' log h log' h' _
    rw [(mem_blockLogs hash hash' b log h).1, (mem_blockLogs hash hash' b' log' h').1]

theorem history_single (hash hash' : Bytes32) (h : hash ≠ hash') :
    (history hash hash').SingleDeposits := by
  intro b log hlog log' hlog' same
  obtain ⟨-, rfl | rfl⟩ := mem_blockLogs hash hash' b log hlog <;>
    obtain ⟨-, rfl | rfl⟩ := mem_blockLogs hash hash' b log' hlog'
  · rfl
  · exact absurd (Option.some.inj same) h
  · exact absurd (Option.some.inj same).symm h
  · rfl

def answer (_ _ : Nat) : Response := .logs

/-- The queue is lost in a crash before the deposit is marked. -/
def interrupted : List Happening :=
  [.start true, .poll (some 2) answer, .isProcessed true, .handleEvent true, .crash,
   .start true, .poll (some 2) answer, .isProcessed true, .handleEvent true, .markProcessed true,
   .isProcessed true, .handleEvent true, .markProcessed true, .setLastProcessedBlock true,
   .receive 100 true, .receive 100 true]

theorem interrupted_careful :
    Run.Along (State.step (history 1 2) 0) (State.Careful decodeDeposit 0) .initial
      interrupted := by
  have unmarked : ∀ d ∈ (Run.stateAt (State.step (history 1 2) 0) .initial interrupted 4).channel,
      (Run.stateAt (State.step (history 1 2) 0) .initial interrupted 4).isProcessed d.txHash =
        false ∧
        (Run.stateAt (State.step (history 1 2) 0) .initial interrupted 4).checkpoint 0 ≤
          d.blockNumber := by
    decide
  refine ⟨trivial, trivial, trivial, trivial, ?_, trivial, trivial, trivial, trivial,
    trivial, trivial, trivial, trivial, trivial, trivial, trivial, trivial⟩
  intro d member
  exact Or.inr (unmarked d member)

theorem deposits_conserved_interrupted :
    ((Run.stateAt (State.step (history 1 2) 0) .initial interrupted 16).depositsOf 1).Perm
      ((history 1 2).depositsOf 1) :=
  deposits_conserved (history 1 2) 0 interrupted (history_single 1 2 (by decide))
    interrupted_careful 16 2 1 (by decide +kernel) (by decide) (by decide) (by decide +kernel)

/-- Of the second deposit of a transaction the monitor finds that it is processed. -/
def undisturbed : List Happening :=
  [.start true, .poll (some 2) answer, .isProcessed true, .handleEvent true, .markProcessed true,
   .isProcessed true, .setLastProcessedBlock true, .receive 100 true]

theorem second_deposit_lost :
    (Run.stateAt (State.step (history 1 1) 0) .initial undisturbed 8).lastBlock = some 2 ∧
      (Run.stateAt (State.step (history 1 1) 0) .initial undisturbed 8).channel = [] ∧
        ¬((Run.stateAt (State.step (history 1 1) 0) .initial undisturbed 8).depositsOf 1).Perm
          ((history 1 1).depositsOf 1) := by
  decide

end Sample

end SyndDB.ChainMonitor
