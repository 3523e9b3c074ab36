import SyndDB.Contracts.TeeKeyManager
import SyndDB.Framework.Run

namespace SyndDB.Contracts.TeeKeyManager

open Octets

/-- A transaction to the key manager: what it finds on the chain and what it calls. -/
structure Transaction where
  ctx : Context
  call : Call

/-- A transaction that reverts leaves the state as it was. -/
def transact (X : Crypto) (cfg : Config) (st : State) (tx : Transaction) : State :=
  match dispatch X cfg tx.ctx st tx.call with
  | .ok r => r.2
  | .error _ => st

/-- The keys as their owner sees them: one register and one waiting list for each type, and one
expiry for each address. -/
@[ext] structure KeyTable where
  registered : KeyType → Address → Bool
  pending : KeyType → Address → Bool
  expiry : Address → UInt256

namespace KeyTable

/-- The entry for one key of one type, set. -/
def put (f : KeyType → Address → Bool) (t : KeyType) (k : Address) (b : Bool) :
    KeyType → Address → Bool :=
  fun t' k' => if t' = t ∧ k' = k then b else f t' k'

/-- What a successful call does to the register. -/
inductive Effect where
  | keep
  | pend (t : KeyType) (k : Address)
  | enroll (t : KeyType) (k : Address) (e : UInt256)
  | approve (t : KeyType) (k : Address) (e : UInt256)
  | reject (t : KeyType) (k : Address)
  | remove (t : KeyType) (k : Address)
  | expire (k : Address) (e : UInt256)
  | revoke

variable (T : KeyTable)

def register (t : KeyType) (k : Address) (e : UInt256) : KeyTable :=
  { T with
    registered := put T.registered t k true
    expiry := Function.update T.expiry k e }

def Effect.apply : Effect → KeyTable → KeyTable
  | .keep, T => T
  | .pend t k, T => { T with pending := put T.pending t k true }
  | .enroll t k e, T => T.register t k e
  | .approve t k e, T => { T.register t k e with pending := put T.pending t k false }
  | .reject t k, T => { T with pending := put T.pending t k false }
  | .remove t k, T =>
      { T with
        registered := put T.registered t k false
        expiry := Function.update T.expiry k 0 }
  | .expire k e, T => { T with expiry := Function.update T.expiry k e }
  | .revoke, T =>
      { T with
        registered := fun _ _ => false
        expiry := fun k =>
          if T.registered .Sequencer k || T.registered .Validator k then 0 else T.expiry k }

/-- What a call has to find for its effect. -/
def Effect.Enabled : Effect → KeyTable → Prop
  | .pend t k, T | .enroll t k _, T => T.registered t k = false
  | .approve t k _, T | .reject t k, T => T.pending t k = true
  | .remove t k, T => T.registered t k = true
  | .keep, _ | .expire _ _, _ | .revoke, _ => True

/-- The type and the key of an effect on one key of one type. -/
def Effect.subject : Effect → Option (KeyType × Address)
  | .pend t k | .enroll t k _ | .approve t k _ | .reject t k | .remove t k => some (t, k)
  | .keep | .expire _ _ | .revoke => none

/-- The effect writes the expiry of its key. -/
def Effect.dates : Effect → Bool
  | .enroll _ _ _ | .approve _ _ _ | .remove _ _ | .expire _ _ => true
  | .keep | .pend _ _ | .reject _ _ | .revoke => false

variable {T}

@[simp] theorem put_self (f : KeyType → Address → Bool) (t : KeyType) (k : Address) (b : Bool) :
    put f t k b t k = b := by
  simp [put]

theorem put_type (f : KeyType → Address → Bool) (t t' : KeyType) (k : Address) (b : Bool)
    (h : t' ≠ t) : put f t k b t' = f t' := by
  funext k'
  simp [put, h]

theorem put_other (f : KeyType → Address → Bool) (t t' : KeyType) (k k' : Address) (b : Bool)
    (h : ¬(t' = t ∧ k' = k)) : put f t k b t' k' = f t' k' :=
  if_neg h

theorem put_true (f : KeyType → Address → Bool) (t t' : KeyType) (k k' : Address)
    (h : put f t k true t' k' = true) : (t' = t ∧ k' = k) ∨ f t' k' = true := by
  unfold put at h
  split at h
  · rename_i same
    exact .inl same
  · exact .inr h

theorem put_false (f : KeyType → Address → Bool) (t t' : KeyType) (k k' : Address)
    (h : put f t k false t' k' = true) : ¬(t' = t ∧ k' = k) ∧ f t' k' = true := by
  unfold put at h
  split at h
  · cases h
  · rename_i other
    exact ⟨other, h⟩

end KeyTable

open KeyTable

/-- The register kept in a state. -/
def table (st : State) : KeyTable where
  registered t k := (_getKeySet st t).contains k
  pending := _getPendingKeys st
  expiry := st.keyExpiration

/-- What the two registration functions do with an attested key. -/
def registration (t : KeyType) (requiresApproval : Bool) (expiresAt : UInt256) (k : Address) :
    Effect :=
  if requiresApproval then .pend t k else .enroll t k expiresAt

/-- The effect of a call that succeeds; `none` when the attestation is not accepted. -/
def Call.effect (ctx : Context) (st : State) : Call → Option Effect
  | .addKey t pv pb r e | .addKeyWithSignature t pv pb _ _ r e =>
      (ctx.verifyAttestationProof st.attestationVerifier pv pb).map (registration t r e)
  | .approveKey t k e => some (.approve t k e)
  | .rejectKey t k => some (.reject t k)
  | .removeKey t k => some (.remove t k)
  | .setKeyExpiration k e => some (.expire k e)
  | .revokeAllKeys => some .revoke
  | .setBridge _ | .isKeyValid _ _ | .updateAttestationVerifier _ | .query => some .keep

section Refinement

variable (st : State)

theorem table_addKey (t : KeyType) (k : Address) :
    table (_putKeySet st (((_getKeySet st t).add k).getD (_getKeySet st t)) t) =
      { table st with registered := put (table st).registered t k true } := by
  ext1
  · funext t' k'
    cases t <;> cases t' <;>
      simp [table, _putKeySet, _getKeySet, put, AddressSet.contains_add]
  · cases t <;> rfl
  · cases t <;> rfl

theorem table_removeKey (t : KeyType) (k : Address) :
    table (_putKeySet st (((_getKeySet st t).remove k).getD (_getKeySet st t)) t) =
      { table st with registered := put (table st).registered t k false } := by
  ext1
  · funext t' k'
    cases t <;> cases t' <;>
      simp [table, _putKeySet, _getKeySet, put, AddressSet.contains_remove, Bool.and_comm]
  · cases t <;> rfl
  · cases t <;> rfl

theorem table_setPendingKey (t : KeyType) (k : Address) (b : Bool) :
    table (_setPendingKey st t k b) =
      { table st with pending := put (table st).pending t k b } := by
  ext1
  · cases t <;> rfl
  · funext t' k'
    cases t <;> cases t' <;>
      simp [table, _setPendingKey, _getPendingKeys, put, Function.update_apply]
  · cases t <;> rfl

theorem table_setExpiration (k : Address) (e : UInt256) :
    table (setExpiration st k e) =
      { table st with expiry := Function.update (table st).expiry k e } := rfl

theorem table_revokeKey (t : KeyType) (k : Address) :
    table (revokeKey t st k) = (Effect.remove t k).apply (table st) := by
  rw [revokeKey, table_setExpiration, table_removeKey]
  rfl

/-- A revocation loop takes its keys out of the register and drops their expiry. -/
theorem table_revoke (t : KeyType) (ks : List Address) :
    table (ks.foldl (revokeKey t) st) =
      { table st with
        registered := fun t' k => (table st).registered t' k && !(t' = t && k ∈ ks)
        expiry := fun k => if k ∈ ks then 0 else (table st).expiry k } := by
  induction ks generalizing st with
  | nil => simp
  | cons key ks ih =>
    rw [List.foldl_cons, ih, table_revokeKey]
    ext1
    · funext t' k
      by_cases ht : t' = t
      · by_cases hk : k = key
        · simp [Effect.apply, put, ht, hk]
        · simp [Effect.apply, put, ht, hk]
      · simp [Effect.apply, put, ht]
    · rfl
    · funext k
      by_cases hk : k = key
      · simp [Effect.apply, hk]
      · simp [Effect.apply, hk]

theorem mem_values (t : KeyType) (k : Address) :
    k ∈ (_getKeySet st t).values ↔ (table st).registered t k = true :=
  decide_eq_true_iff.symm

theorem table_revokeAllKeys :
    table ((st.sequencerKeys.values.foldl (revokeKey .Sequencer) st).validatorKeys.values.foldl
      (revokeKey .Validator) (st.sequencerKeys.values.foldl (revokeKey .Sequencer) st)) =
      Effect.revoke.apply (table st) := by
  have sequencers (k : Address) := mem_values st .Sequencer k
  have validators (k : Address) :=
    mem_values (st.sequencerKeys.values.foldl (revokeKey .Sequencer) st) .Validator k
  rw [table_revoke] at validators ⊢
  rw [table_revoke]
  simp only [_getKeySet] at sequencers validators
  ext1
  · funext t k
    cases t with
    | Sequencer => simp [Effect.apply, sequencers]
    | Validator => simp [Effect.apply, validators]
  · rfl
  · funext k
    simp only [Effect.apply, sequencers, validators]
    by_cases hs : (table st).registered .Sequencer k = true
    · simp [hs]
    · simp [hs]

variable {st}

theorem insertKey_effect {st' : State} {t : KeyType} {k : Address} {r : Bool} {e : UInt256}
    (h : insertKey st t k r e = .ok st') :
    (registration t r e k).Enabled (table st) ∧
      table st' = (registration t r e k).apply (table st) := by
  obtain ⟨_, absent, h⟩ := (Outcome.bind_ok _ _ _).mp h
  have unregistered : (_getKeySet st t).contains k = false := by simpa using require_ok absent
  cases r with
  | true =>
    cases h
    exact ⟨unregistered, table_setPendingKey st t k true⟩
  | false =>
    cases h
    refine ⟨unregistered, ?_⟩
    rw [table_setExpiration, table_addKey]
    rfl

variable (X : Crypto) (cfg : Config) (ctx : Context)

/-- The effect of either registration function. -/
theorem registration_effect {t : KeyType} {pv pb : Bytes} {r : Bool} {e : UInt256} {key : Address}
    {st' : State} (proof : ctx.verifyAttestationProof st.attestationVerifier pv pb = some key)
    (inserted : insertKey st t key r e = .ok st') :
    ∃ ε, (ctx.verifyAttestationProof st.attestationVerifier pv pb).map (registration t r e) =
        some ε ∧ ε.Enabled (table st) ∧ table st' = ε.apply (table st) :=
  ⟨registration t r e key, by rw [proof, Option.map_some], insertKey_effect inserted⟩

theorem approveKey_effect {t : KeyType} {k : Address} {e : UInt256} {st' : State}
    (h : approveKey ctx st t k e = .ok st') :
    (Effect.approve t k e).Enabled (table st) ∧
      table st' = (Effect.approve t k e).apply (table st) := by
  obtain ⟨-, pending, rfl⟩ := approveKey_ok h
  refine ⟨pending, ?_⟩
  rw [table_setExpiration, table_addKey, _deletePendingKey, table_setPendingKey]
  rfl

theorem removeKey_effect {t : KeyType} {k : Address} {st' : State}
    (h : removeKey ctx st t k = .ok st') :
    (Effect.remove t k).Enabled (table st) ∧ table st' = (Effect.remove t k).apply (table st) := by
  obtain ⟨-, keys, removed, rfl⟩ := removeKey_ok h
  have present : k ∈ (_getKeySet st t).values := by
    by_contra absent
    simp [AddressSet.remove, absent] at removed
  refine ⟨(mem_values st t k).mp present, ?_⟩
  have moved := table_removeKey st t k
  rw [removed, Option.getD_some] at moved
  rw [table_setExpiration, moved]
  rfl

/-- A call that succeeds has its effect on the register, and nothing but its effect. -/
theorem dispatch_effect (c : Call) (data : Bytes) (st' : State)
    (h : dispatch X cfg ctx st c = .ok (data, st')) :
    ∃ ε, c.effect ctx st = some ε ∧ ε.Enabled (table st) ∧ table st' = ε.apply (table st) := by
  cases c with
  | setBridge b =>
    obtain ⟨-, rfl⟩ := setBridge_ok (returned_ok h)
    exact ⟨.keep, rfl, trivial, rfl⟩
  | isKeyValid t k =>
    obtain ⟨_, _, h⟩ := (Outcome.bind_ok _ _ _).mp h
    cases h
    exact ⟨.keep, rfl, trivial, rfl⟩
  | addKey t pv pb requiresApproval e =>
    obtain ⟨key, h⟩ := keyed_ok h
    obtain ⟨-, proof, inserted⟩ := addKey_ok h
    exact registration_effect ctx proof inserted
  | addKeyWithSignature t pv pb d s requiresApproval e =>
    obtain ⟨key, h⟩ := keyed_ok h
    obtain ⟨-, -, proof, -, inserted⟩ := addKeyWithSignature_ok h
    exact registration_effect ctx proof inserted
  | approveKey t k e => exact ⟨.approve t k e, rfl, approveKey_effect ctx (returned_ok h)⟩
  | rejectKey t k =>
    obtain ⟨-, pending, rfl⟩ := rejectKey_ok (returned_ok h)
    exact ⟨.reject t k, rfl, pending, table_setPendingKey st t k false⟩
  | removeKey t k => exact ⟨.remove t k, rfl, removeKey_effect ctx (returned_ok h)⟩
  | setKeyExpiration k e =>
    obtain ⟨-, rfl⟩ := setKeyExpiration_ok (returned_ok h)
    exact ⟨.expire k e, rfl, trivial, rfl⟩
  | revokeAllKeys =>
    obtain ⟨-, _, rfl, rfl⟩ := revokeAllKeys_ok (returned_ok h)
    exact ⟨.revoke, rfl, trivial, table_revokeAllKeys st⟩
  | updateAttestationVerifier v =>
    obtain ⟨-, rfl⟩ := updateAttestationVerifier_ok (returned_ok h)
    exact ⟨.keep, rfl, trivial, rfl⟩
  | query =>
    cases h
    exact ⟨.keep, rfl, trivial, rfl⟩

/-- A transaction reverts, or has its effect. -/
theorem transact_effect (st : State) (tx : Transaction) :
    transact X cfg st tx = st ∨ ∃ ε, (∃ r, dispatch X cfg tx.ctx st tx.call = .ok r) ∧
      tx.call.effect tx.ctx st = some ε ∧ ε.Enabled (table st) ∧
        table (transact X cfg st tx) = ε.apply (table st) := by
  unfold transact
  cases h : dispatch X cfg tx.ctx st tx.call with
  | error e => exact .inl rfl
  | ok r =>
    obtain ⟨ε, effect, enabled, moved⟩ := dispatch_effect X cfg tx.ctx tx.call r.1 r.2 h
    exact .inr ⟨ε, ⟨r, rfl⟩, effect, enabled, moved⟩

end Refinement

theorem isKeyValid_registered {timestamp : UInt256} {st : State} {t : KeyType} {k : Address}
    (h : isKeyValid timestamp st t k = .ok true) : (table st).registered t k = true := by
  obtain ⟨_, registered, _⟩ := (Outcome.bind_ok _ _ _).mp h
  exact require_ok registered

theorem isKeyValid_congr (timestamp : UInt256) (st st' : State) (t : KeyType) (k : Address)
    (same : (table st').registered t k = (table st).registered t k)
    (dated : (table st).registered t k = true → st'.keyExpiration k = st.keyExpiration k) :
    isKeyValid timestamp st' t k = isKeyValid timestamp st t k := by
  have unfolded (s : State) : isKeyValid timestamp s t k =
      (do
        require ((table s).registered t k) (.InvalidPublicKey k)
        require (!(s.keyExpiration k ≠ 0 && s.keyExpiration k < timestamp)) (.KeyExpired k)
        return true) := rfl
  rw [unfolded st', unfolded st, same]
  cases hr : (table st).registered t k with
  | false => rfl
  | true => rw [dated hr]

/-- The type that an operation on a single type is performed for. -/
def Call.keyType : Call → Option KeyType
  | .addKey t _ _ _ _ | .addKeyWithSignature t _ _ _ _ _ _ | .approveKey t _ _ | .rejectKey t _
  | .removeKey t _ => some t
  | .setBridge _ | .isKeyValid _ _ | .setKeyExpiration _ _ | .revokeAllKeys
  | .updateAttestationVerifier _ | .query => none

/-- The key and the type that a registration call presents. -/
def Call.presents (ctx : Context) (st : State) : Call → Option (KeyType × Address)
  | .addKey t pv pb _ _ | .addKeyWithSignature t pv pb _ _ _ _ =>
      (ctx.verifyAttestationProof st.attestationVerifier pv pb).map fun k => (t, k)
  | .setBridge _ | .isKeyValid _ _ | .approveKey _ _ _ | .rejectKey _ _ | .removeKey _ _
  | .setKeyExpiration _ _ | .revokeAllKeys | .updateAttestationVerifier _ | .query => none

theorem registration_cases (t : KeyType) (r : Bool) (e : UInt256) (k : Address) :
    registration t r e k = .pend t k ∨ registration t r e k = .enroll t k e := by
  cases r with
  | false => exact .inr rfl
  | true => exact .inl rfl

/-- The calls behind an effect: a registration, or a function for the owner. -/
theorem effect_cases (ctx : Context) (st : State) (c : Call) (ε : Effect)
    (h : c.effect ctx st = some ε) :
    (∃ t k e, c.presents ctx st = some (t, k) ∧ c.keyType = some t ∧
      (ε = .pend t k ∨ ε = .enroll t k e)) ∨
    (∃ t k e, c = .approveKey t k e ∧ ε = .approve t k e) ∨
    (∃ t k, c = .rejectKey t k ∧ ε = .reject t k) ∨
    (∃ t k, c = .removeKey t k ∧ ε = .remove t k) ∨
    (c.keyType = none ∧ ε.subject = none) := by
  have registering (t : KeyType) (pv pb : Bytes) (r : Bool) (e : UInt256)
      (h : (ctx.verifyAttestationProof st.attestationVerifier pv pb).map (registration t r e) =
        some ε) :
      ∃ k, (ctx.verifyAttestationProof st.attestationVerifier pv pb).map (fun k => (t, k)) =
        some (t, k) ∧ (ε = .pend t k ∨ ε = .enroll t k e) := by
    obtain ⟨k, accepted, rfl⟩ := Option.map_eq_some_iff.mp h
    rw [accepted]
    exact ⟨k, rfl, registration_cases t r e k⟩
  cases c with
  | addKey t pv pb r e =>
    obtain ⟨k, presents, hε⟩ := registering t pv pb r e h
    exact .inl ⟨t, k, e, presents, rfl, hε⟩
  | addKeyWithSignature t pv pb d s r e =>
    obtain ⟨k, presents, hε⟩ := registering t pv pb r e h
    exact .inl ⟨t, k, e, presents, rfl, hε⟩
  | approveKey t k e =>
    cases h
    exact .inr (.inl ⟨t, k, e, rfl, rfl⟩)
  | rejectKey t k =>
    cases h
    exact .inr (.inr (.inl ⟨t, k, rfl, rfl⟩))
  | removeKey t k =>
    cases h
    exact .inr (.inr (.inr (.inl ⟨t, k, rfl, rfl⟩)))
  | _ =>
    cases h
    exact .inr (.inr (.inr (.inr ⟨rfl, rfl⟩)))

theorem effect_subject (ctx : Context) (st : State) (c : Call) (t : KeyType) (ε : Effect)
    (hc : c.keyType = some t) (h : c.effect ctx st = some ε) : ∃ k, ε.subject = some (t, k) := by
  rcases effect_cases ctx st c ε h with ⟨t', k, e, _, ht, hε⟩ | ⟨t', k, e, rfl, rfl⟩ |
    ⟨t', k, rfl, rfl⟩ | ⟨t', k, rfl, rfl⟩ | ⟨none, _⟩
  · rw [hc] at ht
    cases ht
    rcases hε with rfl | rfl
    · exact ⟨k, rfl⟩
    · exact ⟨k, rfl⟩
  · cases hc
    exact ⟨k, rfl⟩
  · cases hc
    exact ⟨k, rfl⟩
  · cases hc
    exact ⟨k, rfl⟩
  · rw [hc] at none
    cases none

/-- Keys are added to the waiting list and to the register by registration calls and
approvals only. -/
theorem effect_presents (ctx : Context) (st : State) (c : Call) (ε : Effect) (t : KeyType)
    (k : Address) (h : c.effect ctx st = some ε) (hε : ε = .pend t k ∨ ∃ e, ε = .enroll t k e) :
    c.presents ctx st = some (t, k) := by
  rcases effect_cases ctx st c ε h with ⟨t', k', e, presents, _, same⟩ | ⟨t', k', e, rfl, rfl⟩ |
    ⟨t', k', rfl, rfl⟩ | ⟨t', k', rfl, rfl⟩ | ⟨_, none⟩
  · rcases same with rfl | rfl
    · simp only [Effect.pend.injEq, reduceCtorEq, exists_const, or_false] at hε
      rw [presents, hε.1, hε.2]
    · simp only [Effect.enroll.injEq, reduceCtorEq, false_or] at hε
      obtain ⟨_, ht, hk, _⟩ := hε
      rw [presents, ht, hk]
  · simp at hε
  · simp at hε
  · simp at hε
  · rcases hε with rfl | ⟨e, rfl⟩
    · cases none
    · cases none

theorem effect_approve (ctx : Context) (st : State) (c : Call) (t : KeyType) (k : Address)
    (e : UInt256) (h : c.effect ctx st = some (.approve t k e)) : c = .approveKey t k e := by
  rcases effect_cases ctx st c _ h with ⟨_, _, _, _, _, same⟩ | ⟨_, _, _, rfl, same⟩ |
    ⟨_, _, _, same⟩ | ⟨_, _, _, same⟩ | ⟨_, none⟩
  · simp at same
  · cases same
    rfl
  · cases same
  · cases same
  · cases none

/-- An effect on one key of one type: the register of the other type and the expiry of every
other address are as before. -/
theorem apply_elsewhere (ε : Effect) (T : KeyTable) (t : KeyType) (k : Address)
    (h : ε.subject = some (t, k)) :
    (∀ other, other ≠ t → (ε.apply T).registered other = T.registered other) ∧
      ∀ a, (ε.dates = true ∧ a = k) ∨ (ε.apply T).expiry a = T.expiry a := by
  have entered (b : Bool) (other : KeyType) (ho : other ≠ t) :
      put T.registered t k b other = T.registered other := put_type T.registered t other k b ho
  have dated (e : UInt256) (a : Address) :
      (true = true ∧ a = k) ∨ Function.update T.expiry k e a = T.expiry a := by
    by_cases ha : a = k
    · exact .inl ⟨rfl, ha⟩
    · exact .inr (Function.update_of_ne ha e T.expiry)
  cases ε with
  | pend t' k' => exact ⟨fun _ _ => rfl, fun _ => .inr rfl⟩
  | reject t' k' => exact ⟨fun _ _ => rfl, fun _ => .inr rfl⟩
  | enroll t' k' e =>
    cases h
    exact ⟨entered true, dated e⟩
  | approve t' k' e =>
    cases h
    exact ⟨entered true, dated e⟩
  | remove t' k' =>
    cases h
    exact ⟨entered false, dated 0⟩
  | _ => cases h

/-- An operation for one type leaves the key set of the other type as it is, and every answer of
`isKeyValid` for the other type, at every timestamp. Only the answer for an address that is
registered under the other type as well can change, when the operation registers, approves or
removes that very address and so writes the one expiry that the address has. -/
theorem key_types_independent (X : Crypto) (cfg : Config) (verifier : Address)
    (txs : List Transaction) (tx : Transaction) (t other : KeyType)
    (ht : tx.call.keyType = some t) (ho : other ≠ t) (a : Address) (timestamp : UInt256) :
    let st := Run.run (transact X cfg) (deploy verifier) txs
    let st' := transact X cfg st tx
    (_getKeySet st' other).contains a = (_getKeySet st other).contains a ∧
      (isKeyValid timestamp st' other a = isKeyValid timestamp st other a ∨
        ((_getKeySet st other).contains a = true ∧ st'.keyExpiration a ≠ st.keyExpiration a ∧
          ∃ ε, tx.call.effect tx.ctx st = some ε ∧ ε.subject = some (t, a) ∧ ε.dates = true)) := by
  intro st st'
  rcases transact_effect X cfg st tx with reverted | ⟨ε, _, effect, _, moved⟩
  · have same : st' = st := reverted
    rw [same]
    exact ⟨rfl, .inl rfl⟩
  · obtain ⟨k, subject⟩ := effect_subject tx.ctx st tx.call t ε ht effect
    obtain ⟨registered, expiry⟩ := apply_elsewhere ε (table st) t k subject
    have members (a : Address) : (table st').registered other a =
        (table st).registered other a := by
      rw [moved, registered other ho]
    refine ⟨members a, ?_⟩
    by_cases affected : (table st).registered other a = true ∧
        st'.keyExpiration a ≠ st.keyExpiration a
    · refine .inr ⟨affected.1, affected.2, ε, effect, ?_⟩
      have undated : ¬(ε.apply (table st)).expiry a = (table st).expiry a := by
        rw [← moved]
        exact affected.2
      obtain ⟨dates, rfl⟩ := (expiry a).resolve_right undated
      exact ⟨subject, dates⟩
    · refine .inl (isKeyValid_congr timestamp st st' other a (members a) ?_)
      intro hr
      by_contra changed
      exact affected ⟨hr, changed⟩

/-- A verifier that reads the key off the public values. -/
def readingVerifier (_verifier : Address) (publicValues _proofBytes : Bytes) : Option Address :=
  some (BitVec.ofNat 160 (fromBigEndian publicValues))

def sampleCrypto : Crypto := ⟨fun _ => 0, fun _ _ => none⟩

/-- Account `0xD0` deployed the key manager. -/
def sampleConfig : Config := ⟨0xD0, 0⟩

def configured : Transaction := ⟨⟨0xD0, 0, readingVerifier⟩, .setBridge 0xB1⟩

/-- A call by the bridge. -/
def byBridge (timestamp : UInt256) (c : Call) : Transaction :=
  ⟨⟨0xB1, timestamp, readingVerifier⟩, c⟩

/-- The transaction registers a sequencer next to a validator. -/
theorem key_types_independent_two :
    let st := Run.run (transact sampleCrypto sampleConfig) (deploy 0)
      [configured, byBridge 5 (.addKey .Validator [0xAA] [] false 100)]
    let tx := byBridge 7 (.addKey .Sequencer [0xBB] [] false 1000)
    let st' := transact sampleCrypto sampleConfig st tx
    (_getKeySet st' .Validator).contains 0xAA = (_getKeySet st .Validator).contains 0xAA ∧
      (isKeyValid 50 st' .Validator 0xAA = isKeyValid 50 st .Validator 0xAA ∨
        ((_getKeySet st .Validator).contains 0xAA = true ∧
          st'.keyExpiration 0xAA ≠ st.keyExpiration 0xAA ∧
          ∃ ε, tx.call.effect tx.ctx st = some ε ∧ ε.subject = some (.Sequencer, 0xAA) ∧
            ε.dates = true)) :=
  key_types_independent sampleCrypto sampleConfig 0 _ _ .Sequencer .Validator rfl (by decide) 0xAA
    50

/-- Registered as a sequencer too, with a later expiry, an expired validator is valid again. -/
theorem key_types_share_expiry :
    ¬∀ (X : Crypto) (cfg : Config) (verifier : Address) (txs : List Transaction)
      (tx : Transaction) (t other : KeyType), tx.call.keyType = some t → other ≠ t →
      ∀ (a : Address) (timestamp : UInt256), tx.ctx.timestamp ≤ timestamp →
        isKeyValid timestamp (transact X cfg (Run.run (transact X cfg) (deploy verifier) txs) tx)
          other a =
        isKeyValid timestamp (Run.run (transact X cfg) (deploy verifier) txs) other a := by
  intro independent
  have same := independent sampleCrypto sampleConfig 0
    [configured, byBridge 5 (.addKey .Validator [0xAA] [] false 100)]
    (byBridge 200 (.addKey .Sequencer [0xAA] [] false 1000)) .Sequencer .Validator rfl (by decide)
    0xAA 500 (by decide)
  revert same
  decide

section Separation

variable (X : Crypto) (cfg : Config)

def Succeeds (st : State) (tx : Transaction) : Prop :=
  ∃ r, dispatch X cfg tx.ctx st tx.call = .ok r

/-- A registration call for a key that succeeds, openly or subject to approval. -/
def Registers (t : KeyType) (k : Address) (st : State) (tx : Transaction) : Prop :=
  Succeeds X cfg st tx ∧ tx.call.presents tx.ctx st = some (t, k)

/-- An approval of a key that succeeds. -/
def Approves (t : KeyType) (k : Address) (st : State) (tx : Transaction) : Prop :=
  Succeeds X cfg st tx ∧ ∃ e, tx.call = .approveKey t k e

/-- No key that waits for approval is registered openly. -/
def EnrollsNonePending (st : State) (tx : Transaction) : Prop :=
  ∀ t k e, tx.call.effect tx.ctx st = some (.enroll t k e) → _getPendingKeys st t k = false

def KeyTable.Separate (T : KeyTable) : Prop :=
  ∀ t k, T.pending t k = true → T.registered t k = false

theorem separate_apply (ε : Effect) (T : KeyTable) (enabled : ε.Enabled T) (h : T.Separate)
    (enrolls : ∀ t k e, ε = .enroll t k e → T.pending t k = false) : (ε.apply T).Separate := by
  intro t' k' waiting
  cases ε with
  | keep => exact h t' k' waiting
  | pend t k =>
    rcases put_true _ _ _ _ _ waiting with ⟨rfl, rfl⟩ | waiting
    · exact enabled
    · exact h t' k' waiting
  | enroll t k e =>
    have other : ¬(t' = t ∧ k' = k) := by
      intro same
      obtain ⟨rfl, rfl⟩ := same
      exact Bool.false_ne_true ((enrolls t' k' e rfl).symm.trans waiting)
    exact (put_other _ _ _ _ _ _ other).trans (h t' k' waiting)
  | approve t k e =>
    obtain ⟨other, waiting⟩ := put_false _ _ _ _ _ waiting
    exact (put_other _ _ _ _ _ _ other).trans (h t' k' waiting)
  | reject t k => exact h t' k' (put_false _ _ _ _ _ waiting).2
  | remove t k =>
    have absent : T.registered t' k' = false := h t' k' waiting
    simp [Effect.apply, put, absent]
  | expire k e => exact h t' k' waiting
  | revoke => rfl

/-- A transaction that registers no pending key openly keeps the two apart. -/
theorem transact_separate (st : State) (tx : Transaction) (h : (table st).Separate)
    (ha : EnrollsNonePending st tx) : (table (transact X cfg st tx)).Separate := by
  rcases transact_effect X cfg st tx with reverted | ⟨ε, _, effect, enabled, moved⟩
  · rw [reverted]
    exact h
  · rw [moved]
    apply separate_apply ε _ enabled h
    intro t k e enroll
    exact ha t k e (enroll ▸ effect)

theorem deploy_separate (verifier : Address) : (table (deploy verifier)).Separate := by
  intro t k _
  cases t <;> rfl

/-- A key gets on the waiting list by a registration call only. -/
theorem pending_step (st : State) (tx : Transaction) (t : KeyType) (k : Address)
    (h : (table (transact X cfg st tx)).pending t k = true) :
    (table st).pending t k = true ∨ Registers X cfg t k st tx := by
  rcases transact_effect X cfg st tx with reverted | ⟨ε, success, effect, _, moved⟩
  · rw [reverted] at h
    exact .inl h
  · rw [moved] at h
    cases ε with
    | pend t' k' =>
      rcases put_true _ _ _ _ _ h with ⟨rfl, rfl⟩ | h
      · exact .inr ⟨success, effect_presents _ _ _ _ _ _ effect (.inl rfl)⟩
      · exact .inl h
    | approve t' k' e => exact .inl (put_false _ _ _ _ _ h).2
    | reject t' k' => exact .inl (put_false _ _ _ _ _ h).2
    | _ => exact .inl h

/-- A key gets in the register by a registration call, or from the waiting list. -/
theorem registered_step (st : State) (tx : Transaction) (t : KeyType) (k : Address)
    (h : (table (transact X cfg st tx)).registered t k = true) :
    (table st).registered t k = true ∨ Registers X cfg t k st tx ∨
      ((table st).pending t k = true ∧ Approves X cfg t k st tx) := by
  rcases transact_effect X cfg st tx with reverted | ⟨ε, success, effect, enabled, moved⟩
  · rw [reverted] at h
    exact .inl h
  · rw [moved] at h
    cases ε with
    | enroll t' k' e =>
      rcases put_true _ _ _ _ _ h with ⟨rfl, rfl⟩ | h
      · exact .inr (.inl ⟨success, effect_presents _ _ _ _ _ _ effect (.inr ⟨e, rfl⟩)⟩)
      · exact .inl h
    | approve t' k' e =>
      rcases put_true _ _ _ _ _ h with ⟨rfl, rfl⟩ | h
      · exact .inr (.inr ⟨enabled, success, e, effect_approve _ _ _ _ _ _ effect⟩)
      · exact .inl h
    | remove t' k' => exact .inl (put_false _ _ _ _ _ h).2
    | revoke => cases h
    | _ => exact .inl h

/-- A key that is registered at the end of a run was so at its start, or a registration call for
it came in between, or it was waiting and has been approved. -/
theorem registered_run (t : KeyType) (k : Address) (st : State) (txs : List Transaction)
    (h : (table (Run.run (transact X cfg) st txs)).registered t k = true) :
    (table st).registered t k = true ∨
      Run.Occurs (transact X cfg) (Registers X cfg t k) st txs ∨
      ((table st).pending t k = true ∧
        Run.Occurs (transact X cfg) (Approves X cfg t k) st txs) := by
  induction txs generalizing st with
  | nil => exact .inl h
  | cons tx txs ih =>
    rcases ih (transact X cfg st tx) h with now | later | ⟨waiting, later⟩
    · rcases registered_step X cfg st tx t k now with before | registers | ⟨waiting, approves⟩
      · exact .inl before
      · exact .inr (.inl (Run.occurs_head _ _ _ _ _ registers))
      · exact .inr (.inr ⟨waiting, Run.occurs_head _ _ _ _ _ approves⟩)
    · exact .inr (.inl (Run.occurs_tail _ _ _ _ _ later))
    · rcases pending_step X cfg st tx t k waiting with waiting | registers
      · exact .inr (.inr ⟨waiting, Run.occurs_tail _ _ _ _ _ later⟩)
      · exact .inr (.inl (Run.occurs_head _ _ _ _ _ registers))

/-- A revocation that succeeds empties both registers and leaves the waiting lists alone. -/
theorem transact_revoke (st : State) (tx : Transaction) (hc : tx.call = .revokeAllKeys)
    (h : Succeeds X cfg st tx) :
    table (transact X cfg st tx) = Effect.revoke.apply (table st) := by
  obtain ⟨r, hr⟩ := h
  obtain ⟨ε, effect, _, moved⟩ := dispatch_effect X cfg tx.ctx tx.call r.1 r.2 hr
  have revoking : tx.call.effect tx.ctx st = some .revoke := by rw [hc]; rfl
  rw [revoking] at effect
  cases effect
  rw [transact, hr]
  exact moved

end Separation

/-- The sequencer key `0xAA` waits for approval. -/
def waitingKey : List Transaction :=
  [configured, byBridge 5 (.addKey .Sequencer [0xAA] [] true 0)]

end SyndDB.Contracts.TeeKeyManager
