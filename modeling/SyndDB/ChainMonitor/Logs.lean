import SyndDB.ChainMonitor.Monitor

namespace SyndDB.ChainMonitor

open Octets Shared
open Contracts (Bytes32 word_injective)

variable {decodeLog : LogData → Option Deposit} (chain : Chain decodeLog)

namespace Chain

/-- A deposit of the chain. -/
def Emits (d : DepositData) : Prop := ∃ b, ∃ log ∈ chain.logs b, depositData decodeLog log = some d

/-- At most one deposit in a transaction. -/
def SingleDeposits : Prop :=
  ∀ b, ∀ log ∈ chain.logs b, ∀ log' ∈ chain.logs b,
    log.transactionHash = log'.transactionHash → log = log'

/-- Every log of the chain is a deposit of its block and transaction. -/
theorem depositData_some (b : Nat) (log : Log) (h : log ∈ chain.logs b) :
    ∃ d hash, depositData decodeLog log = some d ∧ d.blockNumber = b ∧
      log.transactionHash = some hash ∧ d.txHash = txText hash := by
  obtain ⟨block, hash, transaction⟩ := chain.mined b log h
  obtain ⟨deposit, decoded, amount⟩ := chain.deposits b log h
  simp only [depositData, decoded, if_neg amount, Option.some.injEq, block, transaction,
    Option.getD_some, Option.map_some]
  exact ⟨_, hash, rfl, rfl, rfl, rfl⟩

theorem emits_block (b : Nat) (log : Log) (d : DepositData) (h : log ∈ chain.logs b)
    (hd : depositData decodeLog log = some d) : d.blockNumber = b := by
  obtain ⟨d', -, hd', block, -⟩ := chain.depositData_some b log h
  rw [← Option.some.inj (hd'.symm.trans hd)]
  exact block

theorem txText_injective (hash hash' : Bytes32) (h : txText hash = txText hash') : hash = hash' :=
  word_injective _ _ (hex0x_injective _ _ h)

variable {chain}

/-- Without a second deposit in a transaction, its hash determines the log. -/
theorem SingleDeposits.same_log (single : chain.SingleDeposits) (b b' : Nat) (log log' : Log)
    (d d' : DepositData) (h : log ∈ chain.logs b) (h' : log' ∈ chain.logs b')
    (hd : depositData decodeLog log = some d) (hd' : depositData decodeLog log' = some d')
    (same : d.txHash = d'.txHash) : log = log' := by
  obtain ⟨c, hash, hc, -, transaction, text⟩ := chain.depositData_some b log h
  obtain ⟨c', hash', hc', -, transaction', text'⟩ := chain.depositData_some b' log' h'
  obtain rfl : c = d := Option.some.inj (hc.symm.trans hd)
  obtain rfl : c' = d' := Option.some.inj (hc'.symm.trans hd')
  rw [text, text'] at same
  have hashes : log.transactionHash = log'.transactionHash := by
    rw [transaction, transaction', txText_injective hash hash' same]
  obtain rfl := chain.oneBlock b b' log h log' h' hashes
  exact single b log h log' h' hashes

theorem SingleDeposits.same_data (single : chain.SingleDeposits) (d d' : DepositData)
    (h : chain.Emits d) (h' : chain.Emits d') (same : d.txHash = d'.txHash) : d = d' := by
  obtain ⟨b, log, hlog, hd⟩ := h
  obtain ⟨b', log', hlog', hd'⟩ := h'
  rw [single.same_log b b' log log' d d' hlog hlog' hd hd' same] at hd
  exact Option.some.inj (hd.symm.trans hd')

end Chain

/-- The deposits of a block, one for each of its logs. -/
def Chain.depositsOf (b : Nat) : List DepositData :=
  (chain.logs b).filterMap (depositData decodeLog)

theorem depositData_logIndex (log : Log) (d : DepositData)
    (h : depositData decodeLog log = some d) :
    d.logIndex = log.logIndex := by
  rw [depositData] at h
  split at h
  · cases h
  · split at h
    · cases h
    · cases h
      rfl

theorem Chain.nodup_depositsOf (b : Nat) : (chain.depositsOf b).Nodup := by
  have indices := chain.indices b
  rw [List.Nodup, List.pairwise_map] at indices
  rw [Chain.depositsOf, List.Nodup, List.pairwise_filterMap]
  apply indices.imp
  intro log log' other d hd d' hd' same
  apply other
  rw [← depositData_logIndex log d hd, ← depositData_logIndex log' d' hd', same]

theorem Chain.mem_depositsOf (b : Nat) (d : DepositData) :
    d ∈ chain.depositsOf b ↔ chain.Emits d ∧ d.blockNumber = b := by
  rw [Chain.depositsOf, List.mem_filterMap]
  constructor
  · intro h
    obtain ⟨log, hlog, hd⟩ := h
    exact ⟨⟨b, log, hlog, hd⟩, chain.emits_block b log d hlog hd⟩
  · intro h
    obtain ⟨⟨b', log, hlog, hd⟩, block⟩ := h
    have same : b' = b := (chain.emits_block b' log d hlog hd).symm.trans block
    rw [same] at hlog
    exact ⟨log, hlog, hd⟩

theorem mem_between {L : Type} (logs : Nat → List L) (lo hi : Nat) (log : L) :
    log ∈ between logs lo hi ↔ ∃ b, lo ≤ b ∧ b ≤ hi ∧ log ∈ logs b := by
  rw [between, List.mem_flatMap]
  constructor
  · intro h
    obtain ⟨b, hb, member⟩ := h
    rw [List.mem_range'_1] at hb
    exact ⟨b, hb.1, by omega, member⟩
  · intro h
    obtain ⟨b, low, high, member⟩ := h
    refine ⟨b, ?_, member⟩
    rw [List.mem_range'_1]
    omega

/-- The blocks of two halves are those of the range. -/
theorem range'_halves (lo mid hi : Nat) (low : lo ≤ mid) (high : mid ≤ hi) :
    List.range' lo (mid + 1 - lo) ++ List.range' (mid + 1) (hi + 1 - (mid + 1)) =
      List.range' lo (hi + 1 - lo) := by
  have joined := List.range'_append_1 (s := lo) (m := mid + 1 - lo) (n := hi + 1 - (mid + 1))
  rw [show lo + (mid + 1 - lo) = mid + 1 by omega,
    show mid + 1 - lo + (hi + 1 - (mid + 1)) = hi + 1 - lo by omega] at joined
  exact joined

theorem between_append {L : Type} (logs : Nat → List L) (lo mid hi : Nat) (low : lo ≤ mid)
    (high : mid ≤ hi) : between logs lo mid ++ between logs (mid + 1) hi = between logs lo hi := by
  rw [between, between, between, ← List.flatMap_append, range'_halves lo mid hi low high]

theorem getLogs_eq (respond : Nat → Nat → Response) (fuel lo hi : Nat) (logs : List Log)
    (h : getLogs chain respond fuel lo hi = some logs) : logs = between chain.logs lo hi := by
  induction fuel generalizing lo hi logs with
  | zero =>
    rw [getLogs] at h
    split at h
    · exact (Option.some.inj h).symm
    · cases h
    · split at h <;> cases h
  | succ fuel ih =>
    rw [getLogs] at h
    split at h
    · exact (Option.some.inj h).symm
    · cases h
    · split at h
      · cases h
      · rename_i wide
        obtain ⟨lower, hlower, h⟩ := Option.bind_eq_some_iff.mp h
        obtain ⟨upper, hupper, h⟩ := Option.bind_eq_some_iff.mp h
        cases h
        rw [ih _ _ _ hlower, ih _ _ _ hupper]
        exact between_append chain.logs lo ((lo + hi) / 2) hi (by omega) (by omega)

/-- A poll returns the logs of all blocks from the first to the last one it names. -/
theorem pollForEvents_some (startBlock : Nat) (latestBlock : Option Nat)
    (respond : Nat → Nat → Response) (logs : List Log) (endBlock : Nat)
    (h : pollForEvents chain startBlock latestBlock respond = some (logs, endBlock)) :
    startBlock ≤ endBlock ∧ (∀ log ∈ logs, ∃ b, startBlock ≤ b ∧ log ∈ chain.logs b) ∧
      ∀ b, startBlock ≤ b → b < endBlock → ∀ log ∈ chain.logs b, log ∈ logs := by
  cases latestBlock with
  | none => cases h
  | some latest =>
    simp only [pollForEvents] at h
    split at h
    · cases h
      refine ⟨Nat.le_refl _, by simp, ?_⟩
      intro b low high
      omega
    · obtain ⟨found, hfound, same⟩ := Option.map_eq_some_iff.mp h
      cases same
      rw [getLogs_eq chain respond _ _ _ logs hfound]
      refine ⟨by omega, ?_, ?_⟩
      · intro log member
        obtain ⟨b, low, -, hlog⟩ := (mem_between chain.logs _ _ log).mp member
        exact ⟨b, low, hlog⟩
      · intro b low high log hlog
        exact (mem_between chain.logs _ _ log).mpr ⟨b, low, by omega, hlog⟩

end SyndDB.ChainMonitor
