import SyndDB.ChainMonitor.Logs

namespace SyndDB.ChainMonitor.EthClient

open Contracts (Bytes32)

inductive BlockNumberOrTag where
  | Number (n : UInt64)
  | Latest
  | Finalized
  | Safe
  | Earliest
  | Pending
  deriving DecidableEq

/-- The part of a filter that says which blocks it is about. Address and topics go to the
provider as they are. -/
inductive FilterBlockOption where
  | Range (fromBlock toBlock : Option BlockNumberOrTag)
  | AtBlockHash (hash : Bytes32)
  deriving DecidableEq

def numbers (lo hi : UInt64) : FilterBlockOption := .Range (some (.Number lo)) (some (.Number hi))

inductive RpcError where
  | ErrorResp (payload : String)
  | Transport (kind : String)
  | Other (error : String)
  deriving DecidableEq

/-- How a request ends: with the timeout, or with what the provider's client returns. -/
inductive Reply (L : Type) where
  | Elapsed
  | Ok (logs : List L)
  | Err (err : RpcError)

variable {L : Type}

/-- The requests made so far and their ends, the last one first. -/
abbrev Requests (L : Type) := List (FilterBlockOption × Reply L)

abbrev Outcome (L : Type) := Requests L × Except RpcError (List L)

-- how the provider ends the next request, whatever has been before
variable (respond : Requests L → FilterBlockOption → Reply L)

/-- The numbers of a filter that has two, else zeros. -/
def blockRange : FilterBlockOption → UInt64 × UInt64
  | .Range (some (.Number lo)) (some (.Number hi)) => (lo, hi)
  | _ => (0, 0)

/-- Lower and upper half one after the other; `get` is the client's `get_logs`. The sum wraps, as it
does in a release build. -/
def fetchHalves (get : Requests L → FilterBlockOption → Option (Outcome L)) (asked : Requests L)
    (fromBlock toBlock : UInt64) : Option (Outcome L) :=
  let mid := (fromBlock + toBlock) / 2
  match get asked (numbers fromBlock mid) with
  | none => none
  | some (asked, .error err) => some (asked, .error err)
  | some (asked, .ok lowerRange) =>
      match get asked (numbers (mid + 1) toBlock) with
      | none => none
      | some (asked, .error err) => some (asked, .error err)
      | some (asked, .ok upperRange) => some (asked, .ok (lowerRange ++ upperRange))

def handleSplitRange (get : Requests L → FilterBlockOption → Option (Outcome L))
    (asked : Requests L) (filter : FilterBlockOption) (err : RpcError) : Option (Outcome L) :=
  let (fromBlock, toBlock) := blockRange filter
  if toBlock ≤ fromBlock then some (asked, .error err) else fetchHalves get asked fromBlock toBlock

/-- Nothing is returned when the fuel does not last for the nested splits. -/
def getLogs : (fuel : Nat) → Requests L → FilterBlockOption → Option (Outcome L)
  | 0, _, _ => none
  | fuel + 1, asked, filter =>
      match respond asked filter with
      | .Elapsed => handleSplitRange (getLogs fuel) ((filter, .Elapsed) :: asked) filter
          (.Transport "request timed out")
      | .Ok logs => some ((filter, .Ok logs) :: asked, .ok logs)
      | .Err (.ErrorResp err) => handleSplitRange (getLogs fuel)
          ((filter, .Err (.ErrorResp err)) :: asked) filter (.ErrorResp err)
      | .Err err => some ((filter, .Err err) :: asked, .error err)

/-- What the provider returns for a range are the logs of the range. -/
def Honest (logs : Nat → List L) : Prop :=
  ∀ asked lo hi found, respond asked (numbers lo hi) = .Ok found →
    found = between logs lo.toNat hi.toNat

/-- The end after which a range is split. -/
inductive Reply.Splits : Reply L → Prop where
  | elapsed : Splits .Elapsed
  | errorResp (payload : String) : Splits (.Err (.ErrorResp payload))

/-- The error that a range too small to be split is given up with. -/
def Reply.error : Reply L → RpcError
  | .Err err => err
  | _ => .Transport "request timed out"

/-- A request for a single block of the range has failed, or one with an error that
is no response. -/
def Excused (lo hi : UInt64) (asked : Requests L) : Prop :=
  (∃ a b reply, (numbers a b, reply) ∈ asked ∧ reply.Splits ∧ b ≤ a ∧
      (lo ≤ hi → a = b ∧ lo ≤ a ∧ a ≤ hi)) ∨
    ∃ filter err, (filter, .Err err) ∈ asked ∧ ∀ payload, err ≠ .ErrorResp payload

structure Correct (logs : Nat → List L) (lo hi : UInt64) (outcome : Outcome L) : Prop where
  complete : ∀ found, outcome.2 = .ok found → found = between logs lo.toNat hi.toNat
  excused : ∀ err, outcome.2 = .error err → Excused lo hi outcome.1

/-- The call ends, whatever fuel it has beyond a bound, and with a correct outcome. -/
def Delivers (logs : Nat → List L) (lo hi : UInt64) : Prop :=
  ∃ fuel outcome, (∀ more, fuel ≤ more → getLogs respond more [] (numbers lo hi) = some outcome) ∧
    Correct logs lo hi outcome

/-- A split ends with the refused request itself, with the lower half, or with both halves. -/
theorem handleSplitRange_some (get : Requests L → FilterBlockOption → Option (Outcome L))
    (asked : Requests L) (lo hi : UInt64) (err : RpcError) (outcome : Outcome L) :
    handleSplitRange get asked (numbers lo hi) err = some outcome ↔
      hi ≤ lo ∧ outcome = (asked, .error err) ∨
      ¬hi ≤ lo ∧ ∃ asked₁ result₁, get asked (numbers lo ((lo + hi) / 2)) = some (asked₁, result₁) ∧
        ((∃ e, result₁ = .error e ∧ outcome = (asked₁, .error e)) ∨
          ∃ lower asked₂ result₂, result₁ = .ok lower ∧
            get asked₁ (numbers ((lo + hi) / 2 + 1) hi) = some (asked₂, result₂) ∧
            outcome = (asked₂, result₂.map (lower ++ ·))) := by
  change (if hi ≤ lo then some (asked, .error err) else fetchHalves get asked lo hi) =
    some outcome ↔ _
  by_cases small : hi ≤ lo
  · simp [small, eq_comm]
  rw [if_neg small, fetchHalves]
  simp only [small, false_and, not_false_eq_true, true_and, false_or]
  cases first : get asked (numbers lo ((lo + hi) / 2)) with
  | none => simp
  | some outcome₁ =>
    obtain ⟨asked₁, result₁⟩ := outcome₁
    cases result₁ with
    | error e => simp [eq_comm]
    | ok lower =>
      cases second : get asked₁ (numbers ((lo + hi) / 2 + 1) hi) with
      | none => simp [second]
      | some outcome₂ =>
        obtain ⟨asked₂, result₂⟩ := outcome₂
        cases result₂ with
        | error e => simp [second, Except.map, eq_comm]
        | ok upper => simp [second, Except.map, eq_comm]

/-- The call ends with its own request, or with what the split of the refused range ends with. -/
theorem getLogs_some (fuel : Nat) (asked : Requests L) (lo hi : UInt64) (outcome : Outcome L) :
    getLogs respond (fuel + 1) asked (numbers lo hi) = some outcome ↔
      (∃ found, respond asked (numbers lo hi) = .Ok found ∧
        outcome = ((numbers lo hi, .Ok found) :: asked, .ok found)) ∨
      (∃ err, respond asked (numbers lo hi) = .Err err ∧ (∀ payload, err ≠ .ErrorResp payload) ∧
        outcome = ((numbers lo hi, .Err err) :: asked, .error err)) ∨
      (respond asked (numbers lo hi)).Splits ∧
        handleSplitRange (getLogs respond fuel)
          ((numbers lo hi, respond asked (numbers lo hi)) :: asked) (numbers lo hi)
          (respond asked (numbers lo hi)).error = some outcome := by
  have timedOut : (Reply.Elapsed : Reply L).Splits := .elapsed
  have refused (payload : String) : (Reply.Err (.ErrorResp payload) : Reply L).Splits :=
    .errorResp payload
  have answered (found : List L) : ¬(Reply.Ok found).Splits := fun h => by cases h
  rw [getLogs]
  cases reply : respond asked (numbers lo hi) with
  | Elapsed => simp [timedOut, Reply.error]
  | Ok found => simp [answered, eq_comm]
  | Err err =>
    cases err with
    | ErrorResp payload => simp [refused, Reply.error]
    | Transport kind =>
      have other : ¬(Reply.Err (.Transport kind) : Reply L).Splits := fun h => by cases h
      simp [other, eq_comm]
    | Other error =>
      have other : ¬(Reply.Err (.Other error) : Reply L).Splits := fun h => by cases h
      simp [other, eq_comm]

/-- More fuel changes no outcome. -/
theorem getLogs_mono (fuel : Nat) (asked : Requests L) (lo hi : UInt64) (outcome : Outcome L)
    (h : getLogs respond fuel asked (numbers lo hi) = some outcome) :
    getLogs respond (fuel + 1) asked (numbers lo hi) = some outcome := by
  induction fuel generalizing asked lo hi outcome with
  | zero => cases h
  | succ fuel ih =>
    rw [getLogs_some] at h ⊢
    refine h.imp id (Or.imp id (And.imp id ?_))
    intro split
    rw [handleSplitRange_some] at split ⊢
    refine split.imp id (And.imp id ?_)
    intro given
    obtain ⟨asked₁, result₁, first, rest⟩ := given
    refine ⟨asked₁, result₁, ih _ _ _ _ first, rest.imp id ?_⟩
    intro given
    obtain ⟨lower, asked₂, result₂, same, second, joined⟩ := given
    exact ⟨lower, asked₂, result₂, same, ih _ _ _ _ second, joined⟩

theorem getLogs_more (fuel more : Nat) (asked : Requests L) (lo hi : UInt64) (outcome : Outcome L)
    (le : fuel ≤ more) (h : getLogs respond fuel asked (numbers lo hi) = some outcome) :
    getLogs respond more asked (numbers lo hi) = some outcome := by
  induction more, le using Nat.le_induction with
  | base => exact h
  | succ more _ ih => exact getLogs_mono respond more asked lo hi outcome ih

/-- The midpoint lies in the range, below its end. -/
theorem mid_spec (lo hi : UInt64) (wide : lo.toNat < hi.toNat) (small : hi.toNat ≤ 2 ^ 63) :
    ((lo + hi) / 2).toNat = (lo.toNat + hi.toNat) / 2 ∧
      ((lo + hi) / 2 + 1).toNat = (lo.toNat + hi.toNat) / 2 + 1 := by
  have sum : (lo + hi).toNat = lo.toNat + hi.toNat := by
    rw [UInt64.toNat_add]
    omega
  have mid : ((lo + hi) / 2).toNat = (lo.toNat + hi.toNat) / 2 := by
    rw [UInt64.toNat_div, sum]
    rfl
  refine ⟨mid, ?_⟩
  rw [UInt64.toNat_add, mid, show (1 : UInt64).toNat = 1 from rfl]
  omega

/-- Excuses of a part are excuses of the whole. -/
theorem Excused.widen (lo hi a b : UInt64) (asked : Requests L) (low : lo ≤ a) (le : a ≤ b)
    (high : b ≤ hi) (h : Excused a b asked) : Excused lo hi asked := by
  rcases h with ⟨c, d, reply, member, splits, below, single⟩ | other
  · obtain ⟨same, start, finish⟩ := single le
    exact Or.inl ⟨c, d, reply, member, splits, below,
      fun _ => ⟨same, UInt64.le_trans low start, UInt64.le_trans finish high⟩⟩
  · exact Or.inr other

theorem correct_ok (logs : Nat → List L) (lo hi : UInt64) (asked : Requests L) (found : List L)
    (h : found = between logs lo.toNat hi.toNat) : Correct logs lo hi (asked, .ok found) where
  complete _ same := (Except.ok.inj same).symm.trans h
  excused _ same := nomatch same

theorem correct_error (logs : Nat → List L) (lo hi : UInt64) (asked : Requests L) (err : RpcError)
    (h : Excused lo hi asked) : Correct logs lo hi (asked, .error err) where
  complete _ same := nomatch same
  excused _ _ := h

/-- A refused range of at most one block is given up. -/
theorem handleSplitRange_narrow (logs : Nat → List L)
    (get : Requests L → FilterBlockOption → Option (Outcome L)) (asked : Requests L)
    (lo hi : UInt64)
    (err : RpcError) (narrow : hi ≤ lo)
    (refused : ∃ reply, (numbers lo hi, reply) ∈ asked ∧ reply.Splits) :
    ∃ outcome, handleSplitRange get asked (numbers lo hi) err = some outcome ∧
      Correct logs lo hi outcome := by
  obtain ⟨reply, member, splits⟩ := refused
  refine ⟨(asked, .error err), (handleSplitRange_some _ _ _ _ _ _).mpr (Or.inl ⟨narrow, rfl⟩),
    correct_error _ _ _ _ _ (Or.inl ⟨lo, hi, reply, member, splits, narrow, fun ordered => ?_⟩)⟩
  have same : lo = hi := UInt64.le_antisymm ordered narrow
  exact ⟨same, UInt64.le_refl lo, ordered⟩

/-- A refused range is answered from its halves, or given up if it is a single block. -/
theorem handleSplitRange_returns (logs : Nat → List L)
    (get : Requests L → FilterBlockOption → Option (Outcome L)) (width : Nat)
    (halves : ∀ asked a b, b.toNat ≤ 2 ^ 63 → b.toNat - a.toNat < width →
      ∃ outcome, get asked (numbers a b) = some outcome ∧ Correct logs a b outcome)
    (asked : Requests L) (lo hi : UInt64) (err : RpcError) (small : hi.toNat ≤ 2 ^ 63)
    (narrow : hi.toNat - lo.toNat < width + 1)
    (refused : ∃ reply, (numbers lo hi, reply) ∈ asked ∧ reply.Splits) :
    ∃ outcome, handleSplitRange get asked (numbers lo hi) err = some outcome ∧
      Correct logs lo hi outcome := by
  by_cases single : hi ≤ lo
  · exact handleSplitRange_narrow logs get asked lo hi err single refused
  have wide : lo.toNat < hi.toNat := by
    rw [UInt64.le_iff_toNat_le] at single
    omega
  obtain ⟨mid, next⟩ := mid_spec lo hi wide small
  have lowOrdered : lo ≤ (lo + hi) / 2 := by
    rw [UInt64.le_iff_toNat_le, mid]
    omega
  have highOrdered : (lo + hi) / 2 + 1 ≤ hi := by
    rw [UInt64.le_iff_toNat_le, next]
    omega
  have midBelow : (lo + hi) / 2 ≤ hi := by
    rw [UInt64.le_iff_toNat_le, mid]
    omega
  have nextAbove : lo ≤ (lo + hi) / 2 + 1 := by
    rw [UInt64.le_iff_toNat_le, next]
    omega
  obtain ⟨⟨asked₁, result₁⟩, first, lower⟩ := halves asked lo ((lo + hi) / 2) (by omega) (by omega)
  cases result₁ with
  | error e =>
    refine ⟨(asked₁, .error e), (handleSplitRange_some _ _ _ _ _ _).mpr
      (Or.inr ⟨single, asked₁, _, first, Or.inl ⟨e, rfl, rfl⟩⟩), correct_error _ _ _ _ _ ?_⟩
    exact (lower.excused e rfl).widen lo hi _ _ _ (UInt64.le_refl lo) lowOrdered midBelow
  | ok lowerRange =>
    obtain ⟨⟨asked₂, result₂⟩, second, upper⟩ :=
      halves asked₁ ((lo + hi) / 2 + 1) hi small (by omega)
    refine ⟨(asked₂, result₂.map (lowerRange ++ ·)), (handleSplitRange_some _ _ _ _ _ _).mpr
      (Or.inr ⟨single, asked₁, _, first, Or.inr ⟨lowerRange, asked₂, result₂, rfl, second, rfl⟩⟩),
      ?_⟩
    cases result₂ with
    | error e =>
      exact correct_error _ _ _ _ _
        ((upper.excused e rfl).widen lo hi _ _ _ nextAbove highOrdered (UInt64.le_refl hi))
    | ok upperRange =>
      apply correct_ok
      rw [lower.complete _ rfl, upper.complete _ rfl, mid, next]
      exact between_append logs _ _ _ (by omega) (by omega)

/-- A call is correct if it is whenever its own request is refused. -/
theorem getLogs_of_split (logs : Nat → List L) (honest : Honest respond logs) (fuel : Nat)
    (asked : Requests L) (lo hi : UInt64)
    (split : (respond asked (numbers lo hi)).Splits → ∃ outcome,
      handleSplitRange (getLogs respond fuel)
          ((numbers lo hi, respond asked (numbers lo hi)) :: asked) (numbers lo hi)
          (respond asked (numbers lo hi)).error = some outcome ∧ Correct logs lo hi outcome) :
    ∃ outcome, getLogs respond (fuel + 1) asked (numbers lo hi) = some outcome ∧
      Correct logs lo hi outcome := by
  have refused (splits : (respond asked (numbers lo hi)).Splits) :
      ∃ outcome, getLogs respond (fuel + 1) asked (numbers lo hi) = some outcome ∧
        Correct logs lo hi outcome := by
    obtain ⟨outcome, found, correct⟩ := split splits
    exact ⟨outcome, (getLogs_some _ _ _ _ _ _).mpr (Or.inr (Or.inr ⟨splits, found⟩)), correct⟩
  have failed (err : RpcError) (reply : respond asked (numbers lo hi) = .Err err)
      (other : ∀ payload, err ≠ .ErrorResp payload) :
      ∃ outcome, getLogs respond (fuel + 1) asked (numbers lo hi) = some outcome ∧
        Correct logs lo hi outcome :=
    ⟨_, (getLogs_some _ _ _ _ _ _).mpr (Or.inr (Or.inl ⟨err, reply, other, rfl⟩)),
      correct_error _ _ _ _ _ (Or.inr ⟨_, err, List.mem_cons_self, other⟩)⟩
  cases reply : respond asked (numbers lo hi) with
  | Ok found =>
    exact ⟨_, (getLogs_some _ _ _ _ _ _).mpr (Or.inl ⟨found, reply, rfl⟩),
      correct_ok _ _ _ _ _ (honest asked lo hi found reply)⟩
  | Elapsed => exact refused (reply ▸ .elapsed)
  | Err err =>
    cases err with
    | ErrorResp payload => exact refused (reply ▸ .errorResp payload)
    | Transport kind => exact failed _ reply fun _ h => by cases h
    | Other error => exact failed _ reply fun _ h => by cases h

/-- By induction on the fuel, which outlasts the length of the range. -/
theorem getLogs_returns (logs : Nat → List L) (honest : Honest respond logs) (fuel : Nat)
    (asked : Requests L) (lo hi : UInt64) (small : hi.toNat ≤ 2 ^ 63)
    (enough : hi.toNat - lo.toNat < fuel) :
    ∃ outcome, getLogs respond fuel asked (numbers lo hi) = some outcome ∧
      Correct logs lo hi outcome := by
  induction fuel generalizing asked lo hi with
  | zero => omega
  | succ fuel ih =>
    apply getLogs_of_split respond logs honest
    intro splits
    exact handleSplitRange_returns logs (getLogs respond fuel) fuel
      (fun asked a b => ih asked a b) _ lo hi _ small enough ⟨_, List.mem_cons_self, splits⟩

theorem delivers_of_returns (logs : Nat → List L) (lo hi : UInt64) (fuel : Nat)
    (h : ∃ outcome, getLogs respond fuel [] (numbers lo hi) = some outcome ∧
      Correct logs lo hi outcome) :
    Delivers respond logs lo hi := by
  obtain ⟨outcome, found, correct⟩ := h
  exact ⟨fuel, outcome,
    fun more le => getLogs_more respond fuel more [] lo hi outcome le found, correct⟩

/-- A provider that refuses all ranges of more than a block that end at `top`, and
answers all others. -/
def stubborn (logs : Nat → List L) (top : UInt64) : Requests L → FilterBlockOption → Reply L
  | _, .Range (some (.Number lo)) (some (.Number hi)) =>
      if hi = top ∧ lo < top then .Elapsed else .Ok (between logs lo.toNat hi.toNat)
  | _, _ => .Ok []

theorem stubborn_honest (logs : Nat → List L) (top : UInt64) : Honest (stubborn logs top) logs := by
  intro asked lo hi found h
  simp only [stubborn, numbers] at h
  split at h
  · cases h
  · cases h
    rfl

/-- Half a sum of `u64` is below 2^63, so that the upper half of a refused range ends beyond
its start again. -/
theorem getLogs_diverges (logs : Nat → List L) (top : UInt64) (beyond : 2 ^ 63 < top.toNat)
    (fuel : Nat) (asked : Requests L) (lo : UInt64) (below : lo < top) :
    getLogs (stubborn logs top) fuel asked (numbers lo top) = none := by
  induction fuel generalizing asked lo with
  | zero => rfl
  | succ fuel ih =>
    have refused (asked : Requests L) (lo : UInt64) (h : lo < top) :
        stubborn logs top asked (numbers lo top) = .Elapsed := if_pos ⟨rfl, h⟩
    have half : ((lo + top) / 2).toNat < 2 ^ 63 := by
      have sum := (lo + top).toNat_lt
      rw [UInt64.toNat_div, show (2 : UInt64).toNat = 2 from rfl]
      omega
    have next : (lo + top) / 2 + 1 < top := by
      rw [UInt64.lt_iff_toNat_lt, UInt64.toNat_add, show (1 : UInt64).toNat = 1 from rfl]
      omega
    rw [Option.eq_none_iff_forall_ne_some]
    intro outcome found
    rcases (getLogs_some _ _ _ _ _ _).mp found with ⟨_, answer, -⟩ | ⟨_, failure, -⟩ | ⟨-, split⟩
    · rw [refused asked lo below] at answer
      cases answer
    · rw [refused asked lo below] at failure
      cases failure
    rcases (handleSplitRange_some _ _ _ _ _ _).mp split with ⟨narrow, -⟩
      | ⟨-, asked₁, _, first, rest⟩
    · exact absurd below (UInt64.not_lt.mpr narrow)
    rcases rest with ⟨e, same, -⟩ | ⟨lower, asked₂, result₂, -, second, -⟩
    · -- the lower half ends elsewhere and is answered
      have other : ¬((lo + top) / 2 = top ∧ lo < top) := by
        intro given
        obtain ⟨equal, -⟩ := given
        rw [equal] at half
        omega
      subst same
      cases fuel with
      | zero => cases first
      | succ fuel =>
        have answer : ∀ asked, stubborn logs top asked (numbers lo ((lo + top) / 2)) =
            .Ok (between logs lo.toNat ((lo + top) / 2).toNat) := fun _ => if_neg other
        rw [getLogs, answer] at first
        cases first
    · rw [ih asked₁ _ next] at second
      cases second

/-- The call ends with all logs of the range, or for want of a single block, whatever the provider
does, exactly if the range does not end beyond 2^63 or has at most one block. -/
theorem getLogs_delivers_iff (logs : Nat → List L) (lo hi : UInt64) :
    (∀ respond : Requests L → FilterBlockOption → Reply L, Honest respond logs →
      Delivers respond logs lo hi) ↔ hi.toNat ≤ 2 ^ 63 ∨ hi ≤ lo := by
  constructor
  · intro always
    by_contra beyond
    rw [not_or, Nat.not_le, UInt64.not_le] at beyond
    obtain ⟨fuel, outcome, found, -⟩ := always (stubborn logs hi) (stubborn_honest logs hi)
    have ended := found fuel (Nat.le_refl fuel)
    rw [getLogs_diverges logs hi beyond.1 fuel [] lo beyond.2] at ended
    cases ended
  · rintro (small | narrow) respond honest
    · exact delivers_of_returns respond logs lo hi _
        (getLogs_returns respond logs honest (hi.toNat - lo.toNat + 1) [] lo hi small (by omega))
    · refine delivers_of_returns respond logs lo hi 1
        (getLogs_of_split respond logs honest 0 [] lo hi ?_)
      intro splits
      exact handleSplitRange_narrow logs _ _ lo hi _ narrow ⟨_, List.mem_cons_self, splits⟩

/-- All blocks of `u64`, with the sum of the ends in range. -/
theorem getLogs_all_blocks :
    ∃ respond : Requests Nat → FilterBlockOption → Reply Nat,
      Honest respond (fun block => [block]) ∧
      (0 : UInt64).toNat + (UInt64.ofNat (2 ^ 64 - 1)).toNat < 2 ^ 64 ∧
      ¬Delivers respond (fun block => [block]) 0 (UInt64.ofNat (2 ^ 64 - 1)) := by
  refine ⟨stubborn _ (UInt64.ofNat (2 ^ 64 - 1)), stubborn_honest _ _, by decide, ?_⟩
  intro given
  obtain ⟨fuel, outcome, found, -⟩ := given
  have ended := found fuel (Nat.le_refl fuel)
  rw [getLogs_diverges _ _ (by decide) fuel [] 0 (by decide)] at ended
  cases ended

section Polling

variable {decodeLog : LogData → Option Deposit} (chain : Chain decodeLog)

/-- The node of the polling loop, whose answer depends on the range alone. -/
def node (respond : Nat → Nat → Response) : Requests Log → FilterBlockOption → Reply Log
  | _, .Range (some (.Number lo)) (some (.Number hi)) =>
      match respond lo.toNat hi.toNat with
      | .logs => .Ok (between chain.logs lo.toNat hi.toNat)
      | .tooLarge => .Elapsed
      | .failed => .Err (.Transport "request failed")
  | _, _ => .Ok []

/-- A range that is not split. -/
theorem getLogs_node_once (respond : Nat → Nat → Response) (fuel : Nat) (asked : Requests Log)
    (lo hi : UInt64) (once : respond lo.toNat hi.toNat = .tooLarge → hi ≤ lo) :
    ∃ asked' result, getLogs (node chain respond) (fuel + 1) asked (numbers lo hi) =
        some (asked', result) ∧
      result.toOption = ChainMonitor.getLogs chain respond fuel lo.toNat hi.toNat := by
  have other : ∀ payload, RpcError.Transport "request failed" ≠ .ErrorResp payload := by
    intro payload same
    cases same
  cases reply : respond lo.toNat hi.toNat with
  | logs =>
    have value : ChainMonitor.getLogs chain respond fuel lo.toNat hi.toNat =
        some (between chain.logs lo.toNat hi.toNat) := by
      rw [ChainMonitor.getLogs.eq_def]
      simp only [reply]
    refine ⟨_, .ok (between chain.logs lo.toNat hi.toNat), (getLogs_some _ _ _ _ _ _).mpr
      (Or.inl ⟨_, ?_, rfl⟩), value.symm⟩
    simp only [node, numbers, reply]
  | failed =>
    have value : ChainMonitor.getLogs chain respond fuel lo.toNat hi.toNat = none := by
      rw [ChainMonitor.getLogs.eq_def]
      simp only [reply]
    refine ⟨_, .error (.Transport "request failed"), (getLogs_some _ _ _ _ _ _).mpr
      (Or.inr (Or.inl ⟨_, ?_, other, rfl⟩)), value.symm⟩
    simp only [node, numbers, reply]
  | tooLarge =>
    have narrow := once reply
    have value : ChainMonitor.getLogs chain respond fuel lo.toNat hi.toNat = none := by
      rw [ChainMonitor.getLogs.eq_def]
      simp only [reply, if_pos (UInt64.le_iff_toNat_le.mp narrow)]
    refine ⟨_, .error _, (getLogs_some _ _ _ _ _ _).mpr (Or.inr (Or.inr ⟨?_,
      (handleSplitRange_some _ _ _ _ _ _).mpr (Or.inl ⟨narrow, rfl⟩)⟩)), value.symm⟩
    simp only [node, numbers, reply]
    exact .elapsed

/-- Up to 2^63 the loop's requests are this client's. -/
theorem getLogs_node (respond : Nat → Nat → Response) (fuel : Nat) (asked : Requests Log)
    (lo hi : UInt64) (small : hi.toNat ≤ 2 ^ 63) (enough : hi.toNat - lo.toNat ≤ fuel) :
    ∃ asked' result, getLogs (node chain respond) (fuel + 1) asked (numbers lo hi) =
        some (asked', result) ∧
      result.toOption = ChainMonitor.getLogs chain respond fuel lo.toNat hi.toNat := by
  induction fuel generalizing asked lo hi with
  | zero =>
    apply getLogs_node_once
    intro _
    rw [UInt64.le_iff_toNat_le]
    omega
  | succ fuel ih =>
    by_cases once : respond lo.toNat hi.toNat = .tooLarge → hi ≤ lo
    · exact getLogs_node_once chain respond (fuel + 1) asked lo hi once
    obtain ⟨reply, narrow⟩ := Classical.not_imp.mp once
    have splits : (node chain respond asked (numbers lo hi)).Splits := by
      simp only [node, numbers, reply]
      exact .elapsed
    have wide : lo.toNat < hi.toNat := by
      rw [UInt64.le_iff_toNat_le] at narrow
      omega
    obtain ⟨mid, next⟩ := mid_spec lo hi wide small
    obtain ⟨asked₁, result₁, first, lower⟩ := ih
      ((numbers lo hi, node chain respond asked (numbers lo hi)) :: asked) lo ((lo + hi) / 2)
      (by omega) (by omega)
    obtain ⟨asked₂, result₂, second, upper⟩ := ih asked₁ ((lo + hi) / 2 + 1) hi small (by omega)
    rw [mid] at lower
    rw [next] at upper
    rw [ChainMonitor.getLogs, reply]
    simp only [if_neg (Nat.not_le.mpr wide), ← lower, ← upper]
    cases result₁ with
    | error e =>
      exact ⟨_, .error _, (getLogs_some _ _ _ _ _ _).mpr (Or.inr (Or.inr ⟨splits,
        (handleSplitRange_some _ _ _ _ _ _).mpr (Or.inr ⟨narrow, asked₁, _, first,
          Or.inl ⟨e, rfl, rfl⟩⟩)⟩)), rfl⟩
    | ok lowerRange =>
      refine ⟨_, result₂.map (lowerRange ++ ·),
        (getLogs_some _ _ _ _ _ _).mpr (Or.inr (Or.inr ⟨splits,
        (handleSplitRange_some _ _ _ _ _ _).mpr (Or.inr ⟨narrow, asked₁, _, first,
          Or.inr ⟨lowerRange, asked₂, result₂, rfl, second, rfl⟩⟩)⟩)), ?_⟩
      cases result₂ with
      | error e => rfl
      | ok upperRange => rfl

end Polling

end SyndDB.ChainMonitor.EthClient
