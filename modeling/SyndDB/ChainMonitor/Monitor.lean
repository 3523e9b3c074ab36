import SyndDB.Contracts.DataTypes
import SyndDB.Framework.Run
import SyndDB.Shared.Message

namespace SyndDB.ChainMonitor

open Octets Shared
open Contracts (Address Bytes32 UInt256 word packedAddress)

structure Deposit where
  fromAddress : Address
  toAddress : Address
  amount : UInt256
  data : Bytes
  deriving DecidableEq

structure LogData where
  topics : List Bytes32
  data : Bytes
  deriving DecidableEq

structure Log where
  transactionHash : Option Bytes32
  blockNumber : Option Nat
  logIndex : Option Nat
  inner : LogData
  deriving DecidableEq

structure DepositData where
  txHash : Hex
  blockNumber : Nat
  logIndex : Option Nat
  fromAddress : Hex
  toAddress : Hex
  amount : String
  data : Bytes
  deriving DecidableEq

def txText (hash : Bytes32) : Hex := hex0x (word hash)

-- `Deposit::decode_log`; what it rejects is logged and dropped
variable (decodeLog : LogData → Option Deposit)

/-- What `handle_event` queues for a log. -/
def depositData (log : Log) : Option DepositData :=
  match decodeLog log.inner with
  | none => none
  | some deposit =>
      if deposit.amount = 0 then none
      else some
        { txHash := (log.transactionHash.map txText).getD "unknown".toList
          blockNumber := log.blockNumber.getD 0
          logIndex := log.logIndex
          fromAddress := hex0x (packedAddress deposit.fromAddress)
          toAddress := hex0x (packedAddress deposit.toAddress)
          amount := toString deposit.amount.toNat
          data := deposit.data }

/-- The `Deposit` logs of the bridge contract, block by block, none of them of amount zero. Indices
are unique in a block, and a transaction is in one block. -/
structure Chain where
  logs : Nat → List Log
  mined : ∀ b, ∀ log ∈ logs b, log.blockNumber = some b ∧ ∃ hash, log.transactionHash = some hash
  deposits : ∀ b, ∀ log ∈ logs b, ∃ deposit, decodeLog log.inner = some deposit ∧ deposit.amount ≠ 0
  indices : ∀ b, ((logs b).map Log.logIndex).Nodup
  oneBlock : ∀ b b', ∀ log ∈ logs b, ∀ log' ∈ logs b',
    log.transactionHash = log'.transactionHash → b = b'

/-- A range is answered, or it has to be split, or the request fails. -/
inductive Response where
  | logs
  | tooLarge
  | failed
  deriving DecidableEq

section Requests

variable {decodeLog} (chain : Chain decodeLog)

/-- The logs of the blocks from `lo` to `hi`, in block order. -/
def between {L : Type} (logs : Nat → List L) (lo hi : Nat) : List L :=
  (List.range' lo (hi + 1 - lo)).flatMap logs

/-- Halves of a range are asked for one after the other. A range of more than `fuel + 1`
blocks is not split. -/
def getLogs (respond : Nat → Nat → Response) : (fuel lo hi : Nat) → Option (List Log)
  | fuel, lo, hi =>
      match respond lo hi with
      | .logs => some (between chain.logs lo hi)
      | .failed => none
      | .tooLarge =>
          if hi ≤ lo then none
          else
            match fuel with
            | 0 => none
            | fuel + 1 => do
                let mid := (lo + hi) / 2
                let lower ← getLogs respond fuel lo mid
                let upper ← getLogs respond fuel (mid + 1) hi
                return lower ++ upper

def pollingWindow : Nat := 100

/-- The sum is one of `u64`. -/
def windowEnd (startBlock latest : Nat) : Nat := min ((startBlock + pollingWindow) % 2 ^ 64) latest

/-- The logs and the last block of the next range. -/
def pollForEvents (startBlock : Nat) (latestBlock : Option Nat) (respond : Nat → Nat → Response) :
    Option (List Log × Nat) :=
  match latestBlock with
  | none => none
  | some latest =>
      let endBlock := windowEnd startBlock latest
      if endBlock ≤ startBlock then some ([], startBlock)
      else
        (getLogs chain respond (endBlock - startBlock) startBlock endBlock).map fun logs =>
          (logs, endBlock)

end Requests

structure ProcessedEvent where
  txHash : Hex
  blockNumber : Nat
  logIndex : Option Nat
  deriving DecidableEq

structure DepositRow where
  deposit : DepositData
  processedAt : Nat
  deriving DecidableEq

/-- Where the monitor thread is. It polls from a block on; works on the logs of a range; has found
that the first of them is not processed; has queued it. -/
inductive Position where
  | stopped
  | polling (currentBlock : Nat)
  | processing (endBlock : Nat) (logs : List Log)
  | handling (endBlock : Nat) (log : Log) (logs : List Log)
  | handled (endBlock : Nat) (log : Log) (logs : List Log)
  deriving DecidableEq

/-- The two databases survive a crash, the channel and the thread do not. -/
structure State where
  processedEvents : List ProcessedEvent
  lastBlock : Option Nat
  deposits : List DepositRow
  channel : List DepositData
  monitor : Position
  deriving DecidableEq

/-- One access to the outside, with its outcome. Handling of a log ends with `Ok(true)` when it is
queued; `receive` is one turn of the loop in `process_deposits`. -/
inductive Happening where
  | start (readable : Bool)
  | shutdown
  | poll (latestBlock : Option Nat) (respond : Nat → Nat → Response)
  | isProcessed (readable : Bool)
  | handleEvent (connected : Bool)
  | markProcessed (written : Bool)
  | setLastProcessedBlock (written : Bool)
  | receive (now : Nat) (inserted : Bool)
  | crash

def channelCapacity : Nat := 100

namespace State

def initial : State := ⟨[], none, [], [], .stopped⟩

def isProcessed (s : State) (txHash : Hex) : Bool :=
  s.processedEvents.any fun e => e.txHash = txHash

/-- `INSERT OR IGNORE`, by the transaction hash -/
def markProcessed (s : State) (log : Log) : List ProcessedEvent :=
  match log.transactionHash with
  | none => s.processedEvents
  | some hash =>
      if s.isProcessed (txText hash) then s.processedEvents
      else s.processedEvents ++ [⟨txText hash, log.blockNumber.getD 0, log.logIndex⟩]

/-- `INSERT OR IGNORE`, by the transaction hash -/
def insertDeposit (s : State) (deposit : DepositData) (now : Nat) : List DepositRow :=
  if s.deposits.any fun row => row.deposit.txHash = deposit.txHash then s.deposits
  else s.deposits ++ [⟨deposit, now⟩]

/-- The sender waits while the channel is full. -/
def handleEvent (s : State) (connected : Bool) : State :=
  match s.monitor with
  | .handling endBlock log logs =>
      match depositData decodeLog log with
      | none => { s with monitor := .processing endBlock logs }
      | some deposit =>
          if !connected then { s with monitor := .processing endBlock logs }
          else if s.channel.length < channelCapacity then
            { s with channel := s.channel ++ [deposit], monitor := .handled endBlock log logs }
          else s
  | _ => s

variable {decodeLog} (chain : Chain decodeLog) (startBlock : Nat)

def start (s : State) (readable : Bool) : State :=
  match s.monitor with
  | .stopped => if readable then { s with monitor := .polling (s.lastBlock.getD startBlock) } else s
  | _ => s

def poll (s : State) (latestBlock : Option Nat) (respond : Nat → Nat → Response) : State :=
  match s.monitor with
  | .polling currentBlock =>
      match pollForEvents chain currentBlock latestBlock respond with
      | none => s
      | some (logs, endBlock) => { s with monitor := .processing endBlock logs }
  | _ => s

/-- A log without a transaction hash is not looked up. -/
def checkProcessed (s : State) (readable : Bool) : State :=
  match s.monitor with
  | .processing endBlock (log :: logs) =>
      match log.transactionHash with
      | none => { s with monitor := .handling endBlock log logs }
      | some hash =>
          if !readable || s.isProcessed (txText hash) then
            { s with monitor := .processing endBlock logs }
          else { s with monitor := .handling endBlock log logs }
  | _ => s

/-- Whatever came of the log, the loop goes on with the next. -/
def mark (s : State) (written : Bool) : State :=
  match s.monitor with
  | .handled endBlock log logs =>
      { s with
        processedEvents := if written then s.markProcessed log else s.processedEvents
        monitor := .processing endBlock logs }
  | _ => s

/-- An error in writing the checkpoint ends the monitor. -/
def setLastProcessedBlock (s : State) (written : Bool) : State :=
  match s.monitor with
  | .processing endBlock [] =>
      if written then { s with lastBlock := some endBlock, monitor := .polling endBlock }
      else { s with monitor := .stopped }
  | _ => s

def shutdown (s : State) : State :=
  match s.monitor with
  | .polling _ => { s with monitor := .stopped }
  | _ => s

def receive (s : State) (now : Nat) (inserted : Bool) : State :=
  match s.channel with
  | [] => s
  | deposit :: channel =>
      { s with
        channel := channel
        deposits := if inserted then s.insertDeposit deposit now else s.deposits }

def crash (s : State) : State := { s with channel := [], monitor := .stopped }

def step (s : State) : Happening → State
  | .start readable => s.start startBlock readable
  | .shutdown => s.shutdown
  | .poll latestBlock respond => s.poll chain latestBlock respond
  | .isProcessed readable => s.checkProcessed readable
  | .handleEvent connected => s.handleEvent decodeLog connected
  | .markProcessed written => s.mark written
  | .setLastProcessedBlock written => s.setLastProcessedBlock written
  | .receive now inserted => s.receive now inserted
  | .crash => s.crash

end State

end SyndDB.ChainMonitor
