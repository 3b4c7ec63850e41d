import Naalp.Authorization.GateAgreement
import Naalp.Authorization.WalkerAgreement
import Naalp.Rust.Gates
import Naalp.Stores.TornLogs

/-! The approval gates of Python and Rust on the same approvals.
Rust narrows the granted effect to its low octet before it compares; Python compares the whole
number.
-/

namespace Naalp.Python

open Naalp.Foundation
open Naalp.Python.Cbor

/-- The approval of the same fields. -/
def Approval.ApprovalRecord.ofRust (a : Rust.Approval.ApprovalRecord) : Approval.ApprovalRecord :=
  { approves := a.approves.bytes, approver := .lit a.approver.chars, grant := a.grant.toNat,
    nonce := a.nonce.bytes, notAfter := a.notAfter.toNat, audience := .lit a.audience.chars }

/-- The open ledger with the same log and memory. -/
def Approval.Ledger.ofRust (l : Rust.Approval.Ledger) : Approval.Ledger :=
  { file := { disk := l.disk }, memory := l.memory }

def Payment.PaymentImport.ofRust (p : Rust.Payment.PaymentImport) : Payment.PaymentImport :=
  { format := p.format.toNat, amount := p.amount.toNat, currency := .lit p.currency.chars,
    payee := p.payee.bytes, notAfter := p.notAfter.toNat, foreign := p.foreign.bytes }

def Mcp.Resolved.ofRust (r : Rust.Mcp.Resolved) : Mcp.Resolved :=
  { toolCall := { tool := r.toolCall.tool, args := r.toolCall.args }, enforced := r.enforced.toNat }

end Naalp.Python

namespace Naalp.Authorization

open Naalp.Foundation
open Naalp.ConsumeLedger
open Naalp.Go (Stop Result)
open Naalp.Go.Cose (PublicKey)
open Naalp.Python
open Naalp.Python.Approval
open Naalp.Python.Cbor
open Naalp.Python.Cose
open Naalp.Rust.Cose (VerifyingKey)

-----------------------------------------------------------------------------------------
-- The octets that are signed and hashed
-----------------------------------------------------------------------------------------

theorem encodable_octets (v : Rust.Octets) : Encodable v.value := by
  have size := v.size
  rw [Rust.Cbor.isizeMax] at size
  exact encodable_b.mpr (by omega)

theorem encodable_text (s : Rust.Text) : Encodable s.value := by
  have size := s.size
  rw [Rust.Cbor.isizeMax] at size
  exact encodable_t.mpr ⟨_, PyStr.encode_eq_ok.mpr ⟨s.chars, rfl, rfl⟩,
    show (Rust.Channels.asBytes s.chars).length < 2 ^ 64 by omega⟩

theorem encodable_uint64 (v : UInt64) : Encodable (.u v.toNat) := by
  have bound := v.toNat_lt
  exact encodable_u.mpr ⟨by omega, by omega⟩

/-- A map with small keys in order is encoded when its values are. -/
theorem encodable_map {pairs : List (Value × Value)} (few : pairs.length < 2 ^ 64)
    (values : ∀ pair ∈ pairs, Encodable pair.1 ∧ Encodable pair.2)
    (ascending : (pairs.map encodedKey).Pairwise (· < ·)) : Encodable (.m pairs) :=
  encodable_m.mpr ⟨few, values, nodup_of_ascending ascending⟩

theorem encodable_key {k : Int} (small : 0 ≤ k ∧ k < 24) : Encodable (.u k) :=
  encodable_u.mpr ⟨small.1, by omega⟩

/-- Every Rust approval can be encoded: its fields are bounded by their types. -/
theorem encodable_approval (a : Rust.Approval.ApprovalRecord) : Encodable a.value := by
  have fields : ∀ pair ∈ [(Value.u 1, a.approves.value), (.u 2, a.approver.value),
      (.u 3, .u a.grant.toNat), (.u 4, a.nonce.value), (.u 5, .u a.notAfter.toNat)],
      Encodable pair.1 ∧ Encodable pair.2 := by
    simp only [List.forall_mem_cons]
    exact ⟨⟨encodable_key (by decide), encodable_octets _⟩,
      ⟨encodable_key (by decide), encodable_text _⟩,
      ⟨encodable_key (by decide), encodable_uint64 _⟩,
      ⟨encodable_key (by decide), encodable_octets _⟩,
      ⟨encodable_key (by decide), encodable_uint64 _⟩, by simp⟩
  unfold Rust.Approval.ApprovalRecord.value
  split
  · refine encodable_map (by simp) (List.forall_mem_append.mpr ⟨fields, ?_⟩)
      (show [[1], [2], [3], [4], [5], [6]].Pairwise _ by decide)
    exact List.forall_mem_singleton.mpr ⟨encodable_key (by decide), encodable_text _⟩
  · exact encodable_map (by simp) (List.forall_mem_append.mpr ⟨fields, by simp⟩)
      (show [[1], [2], [3], [4], [5]].Pairwise _ by decide)

/-- Every Rust charge binding can be encoded. -/
theorem encodable_chargeBinding (p : Rust.Payment.PaymentImport)
    : Encodable p.chargeBinding.value := by
  refine encodable_map (by simp) ?_ (show [[1], [2], [3], [4], [5], [6]].Pairwise _ by decide)
  simp only [List.forall_mem_cons]
  exact ⟨⟨encodable_key (by decide), encodable_uint64 _⟩,
    ⟨encodable_key (by decide), encodable_uint64 _⟩,
    ⟨encodable_key (by decide), encodable_text _⟩,
    ⟨encodable_key (by decide), encodable_octets _⟩,
    ⟨encodable_key (by decide), encodable_uint64 _⟩,
    ⟨encodable_key (by decide), encodable_contentIdBytes _⟩, by simp⟩

theorem encodable_callBinding (tc : Rust.Mcp.ToolCall) : Encodable tc.callBinding.value := by
  refine encodable_map (by simp) ?_ (show [[1], [2]].Pairwise _ by decide)
  simp only [List.forall_mem_cons]
  exact ⟨⟨encodable_key (by decide), encodable_contentIdBytes _⟩,
    ⟨encodable_key (by decide), encodable_contentIdBytes _⟩, by simp⟩

/-- The content id of an approval, which is its key in the ledger. -/
def approvalId (a : Rust.Approval.ApprovalRecord) : Bytes := contentIdBytes (encoding a.value)

theorem rustApproval_bytes (a : Rust.Approval.ApprovalRecord) : a.bytes = .ok (encoding a.value) :=
  Stores.rustEncode_of_encodable (encodable_approval a)

theorem rustApproval_id (a : Rust.Approval.ApprovalRecord) : a.id = .ok (approvalId a) := by
  rw [Rust.Approval.ApprovalRecord.id, rustApproval_bytes]
  rfl

/-- Python encodes the same map. -/
theorem approval_bytes_ofRust (a : Rust.Approval.ApprovalRecord)
    : (ApprovalRecord.ofRust a).bytes = .ok (encoding a.value) := by
  have named : PyStr.lit a.audience.chars ≠ [] ↔ a.audience.chars ≠ [] :=
    not_congr Delegation.lit_strings.eq_nil_iff
  have same : (ApprovalRecord.ofRust a).bytes = encode a.value := by
    simp only [ApprovalRecord.bytes, Rust.Approval.ApprovalRecord.value, ApprovalRecord.ofRust,
      named]
    rfl
  rw [same]
  exact encodable_approval a

theorem approval_id_ofRust (a : Rust.Approval.ApprovalRecord)
    : (ApprovalRecord.ofRust a).id = .ok (approvalId a) :=
  approval_id_eq_ok.mpr ⟨_, approval_bytes_ofRust a, rfl⟩

-----------------------------------------------------------------------------------------
-- Signatures
-----------------------------------------------------------------------------------------

/-- The packages of Python and of Rust accept the same signatures, of the right length, under the
keys that Rust holds.
-/
structure RustLibraryAgrees (lib : SignatureLibrary) (rustLib : Rust.Cose.SignatureLibrary)
    : Prop where
  mldsa : ∀ (set : MlDsa) (pk : PublicKey set) (message context sig : Bytes),
    lib.mldsaVerify set pk.bytes message sig context = .ok true
      ↔ sig.length = set.signatureSize
        ∧ rustLib.mldsaVerify set pk.bytes message sig context = true
  ed25519 : ∀ (vk : VerifyingKey) (message sig : Bytes),
    lib.ed25519Verify vk.bytes message sig = .ok true
      ↔ sig.length = 64 ∧ rustLib.ed25519Verify vk.bytes message sig = true

section Verifying

variable {lib : SignatureLibrary} {rustLib : Rust.Cose.SignatureLibrary}
  (agree : RustLibraryAgrees lib rustLib)

include agree

theorem mldsaVerifyRaw_ofRust (set : MlDsa) (pk : PublicKey set) (msg sig : Bytes)
    : lib.mldsaVerify set pk.bytes msg sig [] = .ok true
      ↔ Rust.Cose.mldsaVerifyRaw rustLib set pk msg sig = true := by
  rw [agree.mldsa, Rust.Cose.mldsaVerifyRaw, Rust.Cose.tryInto]
  by_cases size : sig.length = set.signatureSize
  · simp [size]
  · simp [size]

/-- Python has no raw check for a composite key; under the others it accepts what Rust does.
Witness: cases on the key; the sizes that Rust checks first are those that the Python libraries
are given.
-/
theorem coseVerify1Raw_ofRust (v : Rust.Cose.Verifier) (msg sig : Bytes)
    : coseVerify1Raw lib v.alg v.pubKey msg sig = .ok true
      ↔ v.alg ≠ algComposite65Ed25519 ∧ v.verifyRaw rustLib msg sig = true := by
  cases v with
  | mldsa65 pk =>
      have notComposite : algMldsa65 ≠ algComposite65Ed25519 := by decide
      exact (mldsaVerifyRaw_ofRust agree .mlDsa65 pk msg sig).trans
        (and_iff_right notComposite).symm
  | mldsa87 pk =>
      have notComposite : algMldsa87 ≠ algComposite65Ed25519 := by decide
      exact (mldsaVerifyRaw_ofRust agree .mlDsa87 pk msg sig).trans
        (and_iff_right notComposite).symm
  | ed25519 vk =>
      have notComposite : algEd25519 ≠ algComposite65Ed25519 := by decide
      refine Iff.trans (agree.ed25519 vk msg sig) (Iff.trans ?_ (and_iff_right notComposite).symm)
      rw [Rust.Cose.Verifier.verifyRaw, Rust.Cose.tryInto]
      by_cases size : sig.length = 64
      · simp [size]
      · simp [size]
  | composite ml65 ed =>
      constructor
      · intro accepted
        cases accepted
      · intro composite
        exact (composite.1 rfl).elim

end Verifying

-----------------------------------------------------------------------------------------
-- The two ledgers
-----------------------------------------------------------------------------------------

/-- Both calls succeed or neither does, and they leave the same log, spent ids and head. -/
structure SameVerdict (python : Py Unit × Ledger) (rust : Result Unit × Rust.Approval.Ledger)
    : Prop where
  verdict : python.1 = .ok () ↔ rust.1 = .ok ()
  log : python.2.file.disk ++ python.2.file.pending = rust.2.disk
  consumed : python.2.memory.consumed = rust.2.memory.consumed
  head : python.2.memory.head = rust.2.memory.head

section Ledgers

variable (l : Rust.Approval.Ledger) (aid : Bytes) (consumer : List Char)

/-- The entry that either ledger appends next. -/
theorem nextEntry_ofRust
    : (Ledger.ofRust l).nextEntry aid (.lit consumer) = l.nextEntry aid consumer :=
  rfl

/-- The Python ledger refuses, or appends a writable entry for an unspent id. -/
theorem consume_ofRust_cases
    : (∃ err, (Ledger.ofRust l).consume none aid (.lit consumer) = (.error err, .ofRust l)
        ∧ ¬ (aid ∉ l.memory.consumed ∧ Writable (l.nextEntry aid consumer)))
      ∨ aid ∉ l.memory.consumed ∧ Writable (l.nextEntry aid consumer)
        ∧ (Ledger.ofRust l).consume none aid (.lit consumer)
          = (.ok (l.nextEntry aid consumer),
            appendEntry (.ofRust l) (l.nextEntry aid consumer)) := by
  have prepared : ∀ p, (Ledger.ofRust l).prepareConsume aid (.lit consumer) = .ok p
      ↔ aid ∉ l.memory.consumed ∧ Writable (l.nextEntry aid consumer)
        ∧ p = ⟨l.nextEntry aid consumer, record (l.nextEntry aid consumer),
          framedRecord (l.nextEntry aid consumer), l.nextEntry aid consumer⟩ := by
    intro p
    simp only [Ledger.prepareConsume, Ledger.checkUnspent, bind_eq_ok, raiseIf_eq_ok, exists_const,
      prepare_eq_ok, nextEntry_ofRust]
    rfl
  by_cases writes : aid ∉ l.memory.consumed ∧ Writable (l.nextEntry aid consumer)
  · refine .inr ⟨writes.1, writes.2, ?_⟩
    rw [Ledger.consume, (prepared _).mpr ⟨writes.1, writes.2, rfl⟩]
    simp [Ledger.persist, LogFile.append, Ledger.ofRust, appendEntry]
  · left
    cases refused : (Ledger.ofRust l).prepareConsume aid (.lit consumer) with
    | error err => exact ⟨err, by rw [Ledger.consume, refused, Ledger.persist], writes⟩
    | ok p =>
        obtain ⟨unspent, writable, -⟩ := (prepared p).mp refused
        exact (writes ⟨unspent, writable⟩).elim

/-- Encoding an entry does not fail in Rust, whatever its size. -/
theorem rustEntryBytes_ok
    : ∃ octets, Rust.Approval.entryBytes (l.nextEntry aid consumer) = .ok octets := by
  obtain ⟨text, encoded⟩ : ∃ text, (PyStr.lit consumer).encode = .ok text :=
    ⟨_, PyStr.encode_eq_ok.mpr ⟨consumer, rfl, rfl⟩⟩
  simp [Rust.Approval.entryBytes, Rust.Approval.Ledger.nextEntry, Rust.Cbor.encode, Go.Cbor.encode,
    Go.Cbor.encodePairs, Go.Cbor.encHead, encoded, Rust.expect]

theorem rustEntryBytes_writable (writable : Writable (l.nextEntry aid consumer))
    : Rust.Approval.entryBytes (l.nextEntry aid consumer)
      = .ok (record (l.nextEntry aid consumer)) :=
  Stores.rustEncode_of_encodable (encodable_allFields.mpr writable.encodes)

/-- A Python gate refuses, or consumes the id that its checks leave. -/
theorem guarded_ofRust_cases {checks : Py Bytes} {convert : Py LedgerEntry → Py Unit}
    (returns : ∀ e, convert (.ok e) = .ok ())
    (raises : ∀ err, ∃ translated, convert (.error err) = .error translated)
    (leaves : ∀ id, checks = .ok id → id = aid)
    : let called := (Ledger.ofRust l).guarded checks fun id =>
        (convert ((Ledger.ofRust l).consume none id (.lit consumer)).1,
          ((Ledger.ofRust l).consume none id (.lit consumer)).2)
      let passes := checks = .ok aid ∧ aid ∉ l.memory.consumed
        ∧ Writable (l.nextEntry aid consumer)
      (∃ err, called = (.error err, .ofRust l) ∧ ¬ passes)
      ∨ called = (.ok (), appendEntry (.ofRust l) (l.nextEntry aid consumer)) ∧ passes := by
  cases checks with
  | error err =>
      refine .inl ⟨err, rfl, ?_⟩
      intro passes
      cases passes.1
  | ok id =>
      obtain rfl := leaves id rfl
      rcases consume_ofRust_cases l id consumer with ⟨err, refused, stuck⟩
        | ⟨unspent, writable, written⟩
      · obtain ⟨translated, same⟩ := raises err
        refine .inl ⟨translated, ?_, fun passes => stuck passes.2⟩
        simp only [Ledger.guarded, refused, same]
      · refine .inr ⟨?_, rfl, unspent, writable⟩
        simp only [Ledger.guarded, written, returns]

/-- A Rust gate refuses, or consumes the id that its checks leave. -/
theorem rustGuarded_cases {checks : Result Bytes} (leaves : ∀ id, checks = .ok id → id = aid)
    : (∃ stop, l.guarded checks consumer = (.error stop, l)
        ∧ ¬ (checks = .ok aid ∧ aid ∉ l.memory.consumed))
      ∨ ∃ octets, Rust.Approval.entryBytes (l.nextEntry aid consumer) = .ok octets
        ∧ l.guarded checks consumer
          = (.ok (), { disk := l.disk ++ frame octets,
                       memory := l.memory.advance Rust.Approval.nextSeq
                         (l.nextEntry aid consumer, octets) })
        ∧ checks = .ok aid ∧ aid ∉ l.memory.consumed := by
  cases checks with
  | error stop =>
      refine .inl ⟨stop, rfl, ?_⟩
      intro passes
      cases passes.1
  | ok id =>
      obtain rfl := leaves id rfl
      by_cases spent : id ∈ l.memory.consumed
      · refine .inl ⟨Rust.Approval.errAlreadyConsumed, ?_, fun passes => passes.2 spent⟩
        simp [Rust.Approval.Ledger.guarded, Rust.Approval.Ledger.consume, spent, Except.map,
          Except.mapError, Rust.Approval.surfaced]
      · obtain ⟨octets, encoded⟩ := rustEntryBytes_ok l id consumer
        refine .inr ⟨octets, encoded, ?_, rfl, spent⟩
        simp [Rust.Approval.Ledger.guarded, Rust.Approval.Ledger.consume, spent, encoded,
          Except.map, Except.mapError]

/-- Gates with the same id to consume reach the same verdict exactly when both sequences of
checks, and the writing of the entry in Python, pass or not.
Witness: each gate either refuses and keeps its ledger or passes and appends the one entry, so
the four cases are compared.
-/
theorem guarded_sameVerdict_iff {checks : Py Bytes} {rustChecks : Result Bytes}
    (convert : Py LedgerEntry → Py Unit) (returns : ∀ e, convert (.ok e) = .ok ())
    (raises : ∀ err, ∃ translated, convert (.error err) = .error translated)
    (leaves : ∀ id, checks = .ok id → id = aid)
    (rustLeaves : ∀ id, rustChecks = .ok id → id = aid)
    : SameVerdict
        ((Ledger.ofRust l).guarded checks fun id =>
          (convert ((Ledger.ofRust l).consume none id (.lit consumer)).1,
            ((Ledger.ofRust l).consume none id (.lit consumer)).2))
        (l.guarded rustChecks consumer)
      ↔ (checks = .ok aid ∧ aid ∉ l.memory.consumed ∧ Writable (l.nextEntry aid consumer)
        ↔ rustChecks = .ok aid ∧ aid ∉ l.memory.consumed) := by
  rcases guarded_ofRust_cases l aid consumer returns raises leaves with
      ⟨err, refused, stuck⟩ | ⟨passed, checked⟩
  · rcases rustGuarded_cases l aid consumer rustLeaves with
        ⟨stop, rustRefused, rustStuck⟩ | ⟨octets, -, rustPassed, rustChecked⟩
    · rw [refused, rustRefused]
      refine iff_of_true ⟨?_, ?_, rfl, rfl⟩ (iff_of_false stuck rustStuck)
      · simp
      · exact List.append_nil _
    · rw [refused, rustPassed]
      refine iff_of_false ?_ fun same => stuck (same.mpr rustChecked)
      intro same
      cases same.verdict.mpr rfl
  · rcases rustGuarded_cases l aid consumer rustLeaves with
        ⟨stop, rustRefused, rustStuck⟩ | ⟨octets, encoded, rustPassed, rustChecked⟩
    · rw [passed, rustRefused]
      refine iff_of_false ?_ fun same => rustStuck (same.mp checked)
      intro same
      cases same.verdict.mp rfl
    · rw [rustEntryBytes_writable l aid consumer checked.2.2] at encoded
      obtain rfl := Except.ok.inj encoded
      rw [passed, rustPassed]
      refine iff_of_true ⟨iff_of_true rfl rfl, ?_, rfl, rfl⟩ (iff_of_true checked rustChecked)
      simp [appendEntry, Ledger.ofRust, framedRecord, frame]

end Ledgers

-----------------------------------------------------------------------------------------
-- The three gates
-----------------------------------------------------------------------------------------

/-- The three gates of Rust, each with what it is asked to authorize. -/
inductive RustGate where
  | authorizeCall (r : Rust.Mcp.Resolved) (consumer : List Char)
  | authorizeCharge (p : Rust.Payment.PaymentImport) (consumer : List Char)
  | authorizeDestructive (action : Native.Delegation.Action Char)
      (grants : Native.Delegation.GrantSet Char) (anchors : List (List Char))
      (revoked : Native.Delegation.Revocations) (argsContentId : Bytes)

/-- The approval and key that a caller presents to a Rust gate, at a time. -/
structure RustPresented where
  appr : Rust.Approval.ApprovalRecord
  approverV : Rust.Cose.Verifier
  sig : Bytes
  now : UInt64

/-- Dispatch to the functions of the source. -/
def rustGate (rustLib : Rust.Cose.SignatureLibrary) (l : Rust.Approval.Ledger)
    (presented : RustPresented) : RustGate → Result Unit × Rust.Approval.Ledger
  | .authorizeCall r consumer =>
      Rust.Mcp.authorizeCall rustLib r presented.appr presented.approverV presented.sig consumer
        presented.now l
  | .authorizeCharge p consumer =>
      Rust.Payment.authorizeCharge rustLib p presented.appr presented.approverV presented.sig
        consumer presented.now l
  | .authorizeDestructive action grants anchors revoked argsContentId =>
      Rust.Delegation.authorizeDestructive rustLib action grants anchors revoked presented.now
        presented.appr presented.approverV presented.sig argsContentId l

/-- The same gate of Python. -/
def RustGate.python : RustGate → Gate
  | .authorizeCall r consumer => .authorizeCall (.ofRust r) (.lit consumer)
  | .authorizeCharge p consumer => .authorizeCharge (.ofRust p) (.lit consumer)
  | .authorizeDestructive action grants anchors revoked argsContentId =>
      .authorizeDestructive (.ofNative action) (.ofNative grants) (anchors.map .lit)
        (.ofNative revoked) argsContentId

/-- The same approval, key and time for a Python gate. -/
def RustPresented.python (presented : RustPresented) : Presented :=
  { appr := .ofRust presented.appr, alg := presented.approverV.alg,
    pubkey := presented.approverV.pubKey, sig := presented.sig, now := presented.now.toNat }

/-- What a gate checks before it looks at the approval. -/
def RustGate.Admits (now : UInt64) : RustGate → Prop
  | .authorizeCall _ _ => True
  | .authorizeCharge p _ => Rust.Payment.isRegisteredFormat p.format = true
  | .authorizeDestructive action grants anchors revoked _ =>
      Rust.Delegation.verifyChain action grants anchors revoked now = .ok ()

/-- The content id that the approval has to bind. -/
def RustGate.boundId : RustGate → Bytes
  | .authorizeCall r _ => contentIdBytes (encoding r.toolCall.callBinding.value)
  | .authorizeCharge p _ => contentIdBytes (encoding p.chargeBinding.value)
  | .authorizeDestructive _ _ _ _ argsContentId => argsContentId

/-- The effect that the grant has to cover. -/
def RustGate.effect : RustGate → UInt8
  | .authorizeCall r _ => r.enforced
  | .authorizeCharge _ _ => Rust.Payment.chargeEffect
  | .authorizeDestructive action _ _ _ _ => action.effect

def RustGate.consumer : RustGate → List Char
  | .authorizeCall _ consumer | .authorizeCharge _ consumer => consumer
  | .authorizeDestructive action _ _ _ _ => action.signer

/-- The call comes to the comparison of the grant and would then find the approval unspent. -/
structure ReachesGrant (rustLib : Rust.Cose.SignatureLibrary) (l : Rust.Approval.Ledger)
    (presented : RustPresented) (gate : RustGate) : Prop where
  admitted : gate.Admits presented.now
  verified : Rust.Approval.verifyApproval rustLib presented.appr presented.approverV presented.sig
    gate.boundId presented.now = .ok ()
  unspent : approvalId presented.appr ∉ l.memory.consumed

/-- The whole grant covers the effect, under a key that Python can check raw signatures with, and
the entry can be written with its length in four octets.
-/
structure CoversInPython (l : Rust.Approval.Ledger) (presented : RustPresented) (gate : RustGate)
    : Prop where
  plain : presented.approverV.alg ≠ algComposite65Ed25519
  covers : gate.effect.toNat ≤ presented.appr.grant.toNat
  writable : Writable (l.nextEntry (approvalId presented.appr) gate.consumer)

/-- The low octet of the grant covers the effect. -/
def CoversInRust (presented : RustPresented) (gate : RustGate) : Prop :=
  gate.effect.toNat ≤ presented.appr.grant.toNat % 256

theorem guarded_map {α β γ : Type} (led : Ledger) (checks : Py α) (call : α → Py β × Ledger)
    (drop : β → γ)
    : ((led.guarded checks call).1.map drop, (led.guarded checks call).2)
      = led.guarded checks (fun value => ((call value).1.map drop, (call value).2)) := by
  cases checks <;> rfl

theorem rustAuthorizes_iff {a : Rust.Approval.ApprovalRecord} {effect : UInt8}
    : ¬ Native.Delegation.authorizes a.grantOctet effect = false
      ↔ effect.toNat ≤ a.grant.toNat % 256 := by
  simp [Native.Delegation.authorizes, Rust.Approval.ApprovalRecord.grantOctet,
    UInt8.le_iff_toNat_le]

theorem rustVerifyApproval_eq_ok {rustLib : Rust.Cose.SignatureLibrary}
    {a : Rust.Approval.ApprovalRecord} {v : Rust.Cose.Verifier} {sig cid : Bytes} {now : UInt64}
    {done : Unit}
    : Rust.Approval.verifyApproval rustLib a v sig cid now = .ok done
      ↔ v.verifyRaw rustLib (encoding a.value) sig = true ∧ a.approves.bytes = cid
        ∧ now ≤ a.notAfter := by
  simp only [Rust.Approval.verifyApproval, rustApproval_bytes, ok_bind, bind_eq_ok, raiseIf_eq_ok,
    exists_const, Bool.not_eq_false, not_not, ne_eq, gt_iff_lt, UInt64.not_lt]

/-- The last checks of a Python gate, after those of the approval. -/
theorem grantChecks_ofRust {a : Rust.Approval.ApprovalRecord} {checked : Py Unit} {V : Prop}
    (verified : checked = .ok () ↔ V) {effect : UInt8} {err : Exc} {id : Bytes}
    : (do
        checked
        raiseIf (Policy.authorizes (ApprovalRecord.ofRust a).grant effect.toNat = false) err
        (ApprovalRecord.ofRust a).id) = .ok id
      ↔ V ∧ effect.toNat ≤ a.grant.toNat ∧ id = approvalId a := by
  have covered : (effect.toNat : Int) ≤ (ApprovalRecord.ofRust a).grant
      ↔ effect.toNat ≤ a.grant.toNat :=
    Int.ofNat_le
  simp only [bind_eq_ok, raiseIf_eq_ok, exists_const, authorizes_iff, approval_id_ofRust,
    Except.ok.injEq, covered]
  constructor
  · intro passed
    obtain ⟨_, valid, covers, rfl⟩ := passed
    exact ⟨verified.mp valid, covers, rfl⟩
  · intro passed
    obtain ⟨valid, covers, rfl⟩ := passed
    exact ⟨(), verified.mpr valid, covers, rfl⟩

/-- The last checks of a Rust gate, after those of the approval. -/
theorem rustGrantChecks {a : Rust.Approval.ApprovalRecord} {checked : Result Unit} {V : Prop}
    (verified : checked = .ok () ↔ V) {effect : UInt8} {stop : Stop} {id : Bytes}
    : (do
        checked
        raiseIf (Native.Delegation.authorizes a.grantOctet effect = false) stop
        a.id) = .ok id
      ↔ V ∧ effect.toNat ≤ a.grant.toNat % 256 ∧ id = approvalId a := by
  simp only [bind_eq_ok, raiseIf_eq_ok, exists_const, rustAuthorizes_iff, rustApproval_id,
    Except.ok.injEq]
  constructor
  · intro passed
    obtain ⟨_, valid, covers, rfl⟩ := passed
    exact ⟨verified.mp valid, covers, rfl⟩
  · intro passed
    obtain ⟨valid, covers, rfl⟩ := passed
    exact ⟨(), verified.mpr valid, covers, rfl⟩

/-- The bindings of a call have one id in both implementations, that of the encoded binding. -/
theorem callBinding_ofRust (r : Rust.Mcp.Resolved)
    : (Mcp.Resolved.ofRust r).toolCall.callBinding.contentId
        = .ok (contentIdBytes (encoding r.toolCall.callBinding.value))
      ∧ r.toolCall.callBinding.contentId
        = .ok (contentIdBytes (encoding r.toolCall.callBinding.value)) := by
  have encodable := encodable_callBinding r.toolCall
  have python : (Mcp.Resolved.ofRust r).toolCall.callBinding.bytes
      = .ok (encoding r.toolCall.callBinding.value) :=
    encodable
  constructor
  · rw [Mcp.CallBinding.contentId, python]
    rfl
  · rw [Rust.Mcp.CallBinding.contentId, Stores.rustEncode_of_encodable encodable]
    rfl

/-- The bindings of a charge have one id in both implementations, that of the encoded binding.
-/
theorem chargeBinding_ofRust (p : Rust.Payment.PaymentImport)
    : (Payment.PaymentImport.ofRust p).chargeBinding.contentId
        = .ok (contentIdBytes (encoding p.chargeBinding.value))
      ∧ p.chargeBinding.contentId = .ok (contentIdBytes (encoding p.chargeBinding.value)) := by
  have encodable := encodable_chargeBinding p
  have python : (Payment.PaymentImport.ofRust p).chargeBinding.bytes
      = .ok (encoding p.chargeBinding.value) :=
    encodable
  constructor
  · rw [Payment.ChargeBinding.contentId, python]
    rfl
  · rw [Rust.Payment.ChargeBinding.contentId, Stores.rustEncode_of_encodable encodable]
    rfl

/-- Both implementations register the same payment formats. -/
theorem isRegisteredFormat_ofRust (code : UInt64)
    : Payment.isRegisteredFormat code.toNat = Rust.Payment.isRegisteredFormat code := by
  have named : ∀ k : UInt64, (code.toNat : Int) = (k.toNat : Int) ↔ code = k := by
    intro k
    rw [Int.ofNat_inj, UInt64.toNat_inj]
  have first := named 1
  have second := named 2
  have third := named 3
  simp only [Payment.isRegisteredFormat, Rust.Payment.isRegisteredFormat, ← first, ← second,
    ← third]
  rfl

/-- The chain of a destructive action verifies alike. -/
theorem verifyChain_ofRust (action : Native.Delegation.Action Char)
    (grants : Native.Delegation.GrantSet Char) (anchors : List (List Char))
    (revoked : Native.Delegation.Revocations) (now : UInt64)
    : Delegation.verifyChain (.ofNative action) (.ofNative grants) (anchors.map .lit)
        (.ofNative revoked) now.toNat = .ok ()
      ↔ Rust.Delegation.verifyChain action grants anchors revoked now = .ok () := by
  have same := Delegation.verifyChain_ofNative grants anchors revoked now action
  rw [← @mapError_eq_ok _ _ _ _ Exc.kind?, same, mapError_eq_ok, Rust.Delegation.verifyChain]

section Gates

variable {lib : SignatureLibrary} {rustLib : Rust.Cose.SignatureLibrary}

section Checks

variable (agree : RustLibraryAgrees lib rustLib)

include agree

/-- The approval checks agree under libraries that agree, except that the Python one takes no
composite key.
-/
theorem verifyApproval_ofRust (a : Rust.Approval.ApprovalRecord) (v : Rust.Cose.Verifier)
    (sig cid : Bytes) (now : UInt64)
    : verifyApproval lib (.ofRust a) v.alg v.pubKey sig cid now.toNat = .ok ()
      ↔ v.alg ≠ algComposite65Ed25519
        ∧ Rust.Approval.verifyApproval rustLib a v sig cid now = .ok () := by
  have unexpired : (now.toNat : Int) ≤ (a.notAfter.toNat : Int) ↔ now ≤ a.notAfter := by
    rw [UInt64.le_iff_toNat_le]
    omega
  rw [verifyApproval_eq_ok, rustVerifyApproval_eq_ok, approval_bytes_ofRust]
  have signed : (∃ body, (.ok (encoding a.value) : Py Bytes) = .ok body
      ∧ coseVerify1Raw lib v.alg v.pubKey body sig = .ok true)
      ↔ v.alg ≠ algComposite65Ed25519 ∧ v.verifyRaw rustLib (encoding a.value) sig = true := by
    rw [← coseVerify1Raw_ofRust agree]
    simp
  rw [signed, and_assoc]
  exact and_congr Iff.rfl (and_congr Iff.rfl (and_congr Iff.rfl unexpired))

end Checks

variable {l : Rust.Approval.Ledger} {presented : RustPresented} (gate : RustGate)

/-- Gates whose checks pass for the same reasons, but for the covering of the effect. -/
theorem alike_of_checks {led : Ledger} (same : Ledger.ofRust l = led) {checks : Py Bytes}
    {rustChecks : Result Bytes} (convert : Py LedgerEntry → Py Unit)
    (returns : ∀ e, convert (.ok e) = .ok ())
    (raises : ∀ err, ∃ translated, convert (.error err) = .error translated)
    {admits verified : Prop}
    (reaches : ReachesGrant rustLib l presented gate
      ↔ admits ∧ verified ∧ approvalId presented.appr ∉ l.memory.consumed)
    (python : ∀ id, checks = .ok id
      ↔ admits ∧ (presented.approverV.alg ≠ algComposite65Ed25519 ∧ verified)
        ∧ gate.effect.toNat ≤ presented.appr.grant.toNat ∧ id = approvalId presented.appr)
    (rust : ∀ id, rustChecks = .ok id
      ↔ admits ∧ verified ∧ CoversInRust presented gate ∧ id = approvalId presented.appr)
    : SameVerdict
        (led.guarded checks fun id =>
          (convert (led.consume none id (.lit gate.consumer)).1,
            (led.consume none id (.lit gate.consumer)).2))
        (l.guarded rustChecks gate.consumer)
      ↔ (ReachesGrant rustLib l presented gate
        → (CoversInPython l presented gate ↔ CoversInRust presented gate)) := by
  have covers : CoversInPython l presented gate
      ↔ presented.approverV.alg ≠ algComposite65Ed25519
        ∧ gate.effect.toNat ≤ presented.appr.grant.toNat
        ∧ Writable (l.nextEntry (approvalId presented.appr) gate.consumer) :=
    ⟨fun c => ⟨c.plain, c.covers, c.writable⟩, fun c => ⟨c.1, c.2.1, c.2.2⟩⟩
  subst same
  rw [guarded_sameVerdict_iff l (approvalId presented.appr) gate.consumer convert returns raises
    (fun id left => ((python id).mp left).2.2.2) (fun id left => ((rust id).mp left).2.2.2),
    python, rust, reaches, covers]
  grind

end Gates

/-- For every gate, approval, key, signature, time, ledger and consumer: the Python and the Rust
gate reach the same verdict and leave the same entries exactly when the call does not come to the
comparison of the grant, or the whole grant covers the effect as its low octet does. Witness: the
checks before pass alike.
-/
theorem gates_alike_iff {lib : SignatureLibrary} {rustLib : Rust.Cose.SignatureLibrary}
    (agree : RustLibraryAgrees lib rustLib) (l : Rust.Approval.Ledger) (presented : RustPresented)
    (gate : RustGate)
    : SameVerdict (gateStep lib (.ofRust l) ⟨gate.python, presented.python, none⟩)
        (rustGate rustLib l presented gate)
      ↔ (ReachesGrant rustLib l presented gate
        → (CoversInPython l presented gate ↔ CoversInRust presented gate)) := by
  have verifies := fun cid =>
    verifyApproval_ofRust agree presented.appr presented.approverV presented.sig cid presented.now
  have reaches : ReachesGrant rustLib l presented gate
      ↔ gate.Admits presented.now
        ∧ Rust.Approval.verifyApproval rustLib presented.appr presented.approverV presented.sig
            gate.boundId presented.now = .ok ()
        ∧ approvalId presented.appr ∉ l.memory.consumed :=
    ⟨fun r => ⟨r.admitted, r.verified, r.unspent⟩, fun r => ⟨r.1, r.2.1, r.2.2⟩⟩
  generalize same : Ledger.ofRust l = led
  cases gate with
  | authorizeCall r consumer =>
      simp only [gateStep, RustGate.python, RustPresented.python, rustGate, Mcp.authorizeCall,
        Rust.Mcp.authorizeCall]
      refine alike_of_checks (.authorizeCall r consumer) same (·.map (fun _ => ())) (fun _ => rfl)
        (fun err => ⟨err, rfl⟩) reaches ?_ ?_
      · intro id
        simp only [(callBinding_ofRust r).1, ok_bind, RustGate.Admits, true_and]
        exact grantChecks_ofRust (mapError_eq_ok.trans (verifies _))
      · intro id
        simp only [(callBinding_ofRust r).2, ok_bind, RustGate.Admits, true_and]
        exact rustGrantChecks mapError_eq_ok
  | authorizeCharge p consumer =>
      simp only [gateStep, RustGate.python, RustPresented.python, rustGate,
        Payment.authorizeCharge, Rust.Payment.authorizeCharge, guarded_map]
      refine alike_of_checks (.authorizeCharge p consumer) same (·.map (fun _ => ())) (fun _ => rfl)
        (fun err => ⟨err, rfl⟩) reaches ?_ ?_
      · intro id
        have registered : Payment.isRegisteredFormat (Payment.PaymentImport.ofRust p).format
            = Rust.Payment.isRegisteredFormat p.format :=
          isRegisteredFormat_ofRust p.format
        have effect : Payment.chargeEffect = (Rust.Payment.chargeEffect.toNat : Int) := rfl
        simp only [raiseIf_bind_eq_ok, (chargeBinding_ofRust p).1, ok_bind, registered, effect,
          Bool.not_eq_false, RustGate.Admits]
        exact and_congr Iff.rfl (grantChecks_ofRust (verifies _))
      · intro id
        simp only [raiseIf_bind_eq_ok, (chargeBinding_ofRust p).2, ok_bind, Bool.not_eq_false,
          RustGate.Admits]
        exact and_congr Iff.rfl (rustGrantChecks Iff.rfl)
  | authorizeDestructive action grants anchors revoked argsContentId =>
      simp only [gateStep, RustGate.python, RustPresented.python, rustGate,
        Delegation.authorizeDestructive, Rust.Delegation.authorizeDestructive]
      refine alike_of_checks (.authorizeDestructive action grants anchors revoked
        argsContentId) same (fun result =>
          (result.map (fun _ => ())).mapError Delegation.ledgerDenial) (fun _ => rfl)
        (fun err => ⟨Delegation.ledgerDenial err, rfl⟩) reaches ?_ ?_
      · intro id
        rw [unit_bind_eq_ok, verifyChain_ofRust]
        exact and_congr Iff.rfl (grantChecks_ofRust (mapError_eq_ok.trans (verifies _)))
      · intro id
        rw [unit_bind_eq_ok]
        exact and_congr Iff.rfl (rustGrantChecks mapError_eq_ok)

-----------------------------------------------------------------------------------------
-- A grant beyond one octet
-----------------------------------------------------------------------------------------

/-- The two libraries on which the model can be evaluated agree. -/
theorem digestRustLibrary_agrees : RustLibraryAgrees digestLibrary Rust.Cose.digestLibrary := by
  have sized : ∀ {size : Nat} {sig digest : Bytes}, sig = fitTo size digest
      ↔ sig.length = size ∧ sig = fitTo size digest := by
    intro size sig digest
    refine ⟨fun same => ⟨?_, same⟩, And.right⟩
    rw [same]
    exact length_fitTo size digest
  constructor
  · intro set pk message context sig
    simpa only [digestLibrary, Rust.Cose.digestLibrary, pure_eq_ok, Except.ok.injEq,
      decide_eq_true_eq] using sized
  · intro vk message sig
    simpa only [digestLibrary, Rust.Cose.digestLibrary, pure_eq_ok, Except.ok.injEq,
      decide_eq_true_eq] using sized

def noText : Rust.Text := ⟨[], Nat.zero_le _⟩

def fewOctets (octets : Bytes) (few : octets.length ≤ 64) : Rust.Octets :=
  ⟨octets, Nat.le_trans few (by decide)⟩

def sampleRustCharge : Rust.Payment.PaymentImport :=
  { format := 1, amount := 5, currency := noText, payee := fewOctets [7] (by decide),
    notAfter := 10, foreign := fewOctets [] (by decide) }

def sampleRustGate : RustGate := .authorizeCharge sampleRustCharge []

/-- An approval of the sample charge, signed under an Ed25519 key. -/
def sampleRustPresented (grant : UInt64) : RustPresented :=
  let appr : Rust.Approval.ApprovalRecord :=
    { approves := fewOctets sampleRustGate.boundId
        (by simp [sampleRustGate, RustGate.boundId, contentIdBytes, Sha2.length_sha384])
      approver := noText, grant, nonce := fewOctets [] (by decide), notAfter := 10,
      audience := noText }
  { appr, approverV := .ed25519 ⟨List.replicate 32 9, by decide⟩
    sig := fitTo 64 (Sha2.sha384 (List.replicate 32 9 ++ encoding appr.value)), now := 0 }

def emptyRustLedger : Rust.Approval.Ledger := { disk := [], memory := .genesis }

/-- The sample approval binds the charge and verifies under its key. -/
theorem sampleRust_verified (grant : UInt64)
    : Rust.Approval.verifyApproval Rust.Cose.digestLibrary (sampleRustPresented grant).appr
        (sampleRustPresented grant).approverV (sampleRustPresented grant).sig
        sampleRustGate.boundId (sampleRustPresented grant).now = .ok () := by
  have unexpired : (0 : UInt64) ≤ 10 := by decide
  refine rustVerifyApproval_eq_ok.mpr ⟨?_, rfl, unexpired⟩
  simp only [sampleRustPresented, Rust.Cose.Verifier.verifyRaw, Rust.Cose.tryInto, length_fitTo,
    if_true, Rust.Cose.digestLibrary, decide_true]

/-- The entry of the sample approval can be written. -/
theorem sampleRust_writable (grant : UInt64)
    : Writable (emptyRustLedger.nextEntry (approvalId (sampleRustPresented grant).appr) []) := by
  have size : (approvalId (sampleRustPresented grant).appr).length = 50 := by
    simp [approvalId, contentIdBytes, Sha2.length_sha384]
  generalize approvalId (sampleRustPresented grant).appr = aid at size
  have encodes : (emptyRustLedger.nextEntry aid []).bytes
      = .ok (record (emptyRustLedger.nextEntry aid [])) :=
    encodes_iff.mpr ⟨show (0 : Int) ≤ 0 ∧ (0 : Int) < 2 ^ 64 by decide,
      show (List.replicate headSize (0 : UInt8)).length < 2 ^ 64 by simp [headSize],
      show aid.length < 2 ^ 64 by omega, [], rfl, by decide⟩
  have bound : (record (emptyRustLedger.nextEntry aid [])).length ≤ 49 + 48 + aid.length + 0 :=
    length_record_le encodes rfl
  exact ⟨encodes, show (record (emptyRustLedger.nextEntry aid [])).length < 2 ^ 32 by omega⟩

theorem gateStep_of_charge {lib : SignatureLibrary} {led after : Ledger} {fault : Option Fault}
    {p : Payment.PaymentImport} {consumer : PyStr} {presented : Presented} {e : LedgerEntry}
    (authorized : Payment.authorizeCharge lib led fault p presented.appr presented.alg
      presented.pubkey presented.sig consumer presented.now = (.ok e, after))
    : gateStep lib led ⟨.authorizeCharge p consumer, presented, fault⟩ = (.ok (), after) := by
  simp only [gateStep, authorized]
  rfl

/-- The grant 256 covers the charge in Python; its low octet is 0, and Rust refuses.
Witness: the approval verifies in both, so the comparison of the grant decides; the entry that
Python then appends can be written.
-/
theorem narrowed_grant_refused
    : (gateStep digestLibrary (.ofRust emptyRustLedger)
          ⟨sampleRustGate.python, (sampleRustPresented 256).python, none⟩).1 = .ok ()
      ∧ (rustGate Rust.Cose.digestLibrary emptyRustLedger (sampleRustPresented 256)
          sampleRustGate).1 = .error Rust.Approval.errApprovalRequired := by
  have verified := sampleRust_verified 256
  have registered : Rust.Payment.isRegisteredFormat sampleRustCharge.format = true := by decide
  obtain ⟨pythonBound, rustBound⟩ := chargeBinding_ofRust sampleRustCharge
  constructor
  · have valid := (verifyApproval_ofRust digestRustLibrary_agrees _ _ _ _ _).mpr
      ⟨by decide, verified⟩
    have covers : Payment.chargeEffect
        ≤ (ApprovalRecord.ofRust (sampleRustPresented 256).appr).grant := by
      decide
    have named := approval_id_ofRust (sampleRustPresented 256).appr
    rcases consume_ofRust_cases emptyRustLedger (approvalId (sampleRustPresented 256).appr) [] with
      ⟨_, -, stuck⟩ | ⟨-, -, consumed⟩
    · exact (stuck ⟨List.not_mem_nil, sampleRust_writable 256⟩).elim
    · have authorized := (authorizeCharge_eq_ok _ _ none _ _ _ _ _
        ((isRegisteredFormat_ofRust _).trans registered) pythonBound).mpr
        ⟨_, ⟨valid, covers, named⟩, consumed⟩
      exact congrArg Prod.fst (@gateStep_of_charge _ _ _ _ _ _ (sampleRustPresented 256).python _
        authorized)
  · have refuses : Native.Delegation.authorizes (sampleRustPresented 256).appr.grantOctet
        Rust.Payment.chargeEffect = false := by
      decide
    have known : ¬ Rust.Payment.isRegisteredFormat sampleRustCharge.format = false := by
      simp [registered]
    have bound : sampleRustCharge.chargeBinding.contentId = .ok sampleRustGate.boundId := rustBound
    rw [sampleRustGate, rustGate, Rust.Payment.authorizeCharge, raiseIf_neg known, ok_bind, bound,
      ok_bind, verified, ok_bind, raiseIf_pos refuses]
    rfl

/-- With the grant 2 both gates decide alike. -/
theorem known_grant_decided_alike
    : SameVerdict
        (gateStep digestLibrary (.ofRust emptyRustLedger)
          ⟨sampleRustGate.python, (sampleRustPresented 2).python, none⟩)
        (rustGate Rust.Cose.digestLibrary emptyRustLedger (sampleRustPresented 2)
          sampleRustGate) := by
  apply (gates_alike_iff digestRustLibrary_agrees _ _ _).mpr
  intro _
  exact iff_of_true ⟨by decide, by decide, sampleRust_writable 2⟩ (show 2 ≤ 2 % 256 by decide)

end Naalp.Authorization
