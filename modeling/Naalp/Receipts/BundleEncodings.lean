import Naalp.Bodies.Slots
import Naalp.CanonicalEncoding.Rejections
import Naalp.Receipts.ProofBundles

/-! Proof bundles on the wire and the errors of their verification. A bundle is written back to the
octets that it was read from unless these hold something that the bundle does not keep, and
unverified octets reach the verifier before the calls whose errors it names.
-/

namespace Naalp.Receipts

open Naalp.Foundation
open Naalp.Bodies (slot mem_slot slot_keys slots_keys ascending_of_keys pairs_eq_shows FlatReader)
open Naalp.Python
open Naalp.Python.Approval
open Naalp.Python.Bundle
open Naalp.Python.Cbor
open Naalp.Python.Cose

-----------------------------------------------------------------------------------------
-- The nested records
-----------------------------------------------------------------------------------------

def approvalSlots (fields : ApprovalFields) : List (Value × Value) :=
  slot 1 .b fields.approves ++ slot 2 .t fields.approver ++ slot 3 .u fields.grant
    ++ slot 4 .b fields.nonce ++ slot 5 .u fields.notAfter
    ++ slot 6 .t (if fields.audience = [] then none else some fields.audience)

theorem readApprovalField_eq_ok {fields next : ApprovalFields} {pair : Value × Value}
    (taken : readApprovalField fields pair = .ok next)
    : (∃ v, pair = (.u 1, .b v) ∧ next = { fields with approves := some v })
      ∨ (∃ v, pair = (.u 2, .t v) ∧ next = { fields with approver := some v })
      ∨ (∃ v, pair = (.u 3, .u v) ∧ next = { fields with grant := some v })
      ∨ (∃ v, pair = (.u 4, .b v) ∧ next = { fields with nonce := some v })
      ∨ (∃ v, pair = (.u 5, .u v) ∧ next = { fields with notAfter := some v })
      ∨ (∃ v, pair = (.u 6, .t v) ∧ next = { fields with audience := v }) := by
  unfold readApprovalField at taken
  split at taken <;> simp_all [eq_comm]

/-- The reader shows every field but an explicit empty audience. -/
theorem approvalShown
    : ShowsFields Prod.fst readApprovalField approvalSlots (· ≠ (.u 6, .t [])) := by
  intro fields next pair admitted taken other
  rcases readApprovalField_eq_ok taken with
    ⟨v, rfl, rfl⟩ | ⟨v, rfl, rfl⟩ | ⟨v, rfl, rfl⟩ | ⟨v, rfl, rfl⟩ | ⟨v, rfl, rfl⟩ | ⟨v, rfl, rfl⟩
  case inr.inr.inr.inr.inr =>
    have named : v ≠ [] := by
      rintro rfl
      exact admitted rfl
    simp only [approvalSlots, List.mem_append, mem_slot, named, if_false]
    grind
  all_goals
    simp only [approvalSlots, List.mem_append, mem_slot]
    grind

theorem approvalSlots_ascending (fields : ApprovalFields)
    : ((approvalSlots fields).map encodedKey).Pairwise (· < ·) :=
  @ascending_of_keys _ [.u 1, .u 2, .u 3, .u 4, .u 5, .u 6]
    (slots_keys (slots_keys (slots_keys (slots_keys (slots_keys slot_keys))))) (by decide)

/-- What a complete record shows are the pairs that it is written from. -/
theorem approvalSlots_eq_pairs (a : ApprovalRecord)
    : approvalSlots ⟨some a.approves, some a.approver, some a.grant, some a.nonce, some a.notAfter,
        a.audience⟩ = (Signatures.Record.approval a).pairs := by
  by_cases named : a.audience = [] <;> simp [approvalSlots, slot, Signatures.Record.pairs, named]

/-- An explicit empty audience stands in an approval body. -/
def EmptyAudience (body : Bytes) : Prop :=
  ∃ fields, decode body = .ok (.m fields) ∧ (.u 6, .t []) ∈ fields

/-- An approval body is parsed when the loop over its pairs sets every field. -/
theorem parseApprovalBody_eq_ok {body : Bytes} {a : ApprovalRecord}
    (parsed : parseApprovalBody body = .ok a)
    : ∃ fields, decode body = .ok (.m fields)
      ∧ fields.foldlM readApprovalField {}
        = .ok ⟨some a.approves, some a.approver, some a.grant, some a.nonce, some a.notAfter,
          a.audience⟩ := by
  simp only [parseApprovalBody, bind_eq_ok] at parsed
  obtain ⟨v, decoded, parsed⟩ := parsed
  cases v with
  | m fields =>
      simp only [bind_eq_ok] at parsed
      obtain ⟨final, ran, parsed⟩ := parsed
      split at parsed
      · obtain rfl := Except.ok.inj parsed
        exact ⟨fields, decoded, ran⟩
      · cases parsed
  | _ => cases parsed

/-- A parsed approval is written back to the body it was parsed from, unless that has an explicit
empty audience.
-/
theorem approval_bytes_iff {body : Bytes} {a : ApprovalRecord}
    (parsed : parseApprovalBody body = .ok a)
    : a.bytes = .ok body ↔ ¬ EmptyAudience body := by
  obtain ⟨fields, decoded, ran⟩ := parseApprovalBody_eq_ok parsed
  constructor
  · rintro written ⟨again, decodedAgain, stands⟩
    have read := Signatures.Record.decode_bytes (r := .approval a) written
    obtain rfl := Value.m.inj (Except.ok.inj (decodedAgain.symm.trans read))
    by_cases named : a.audience = [] <;> simp [Signatures.Record.pairs, named] at stands
  · intro explicit
    obtain ⟨canonical, rfl⟩ := decode_eq_ok.mp decoded
    have ordered := (@canonical_m (unboundedDepth - 1) fields).mp canonical
    have admitted : ∀ pair ∈ fields, pair ≠ (.u 6, .t []) := by
      rintro _ member rfl
      exact explicit ⟨fields, decoded, member⟩
    have shown := pairs_eq_shows approvalShown ordered.2.1 (approvalSlots_ascending _) admitted
      rfl ran
    rw [approvalSlots_eq_pairs] at shown
    have written := (Signatures.Record.approval a).bytes_eq_encode
    rw [← shown] at written
    exact written.trans canonical.encodable

def receiptSlots (fields : ReceiptFields) : List (Value × Value) :=
  slot 1 .b fields.ledger ++ slot 2 .b fields.approvalId ++ slot 3 .u fields.position

theorem readReceiptField_eq_ok {fields next : ReceiptFields} {pair : Value × Value}
    (taken : readReceiptField fields pair = .ok next)
    : (∃ v, pair = (.u 1, .b v) ∧ next = { fields with ledger := some v })
      ∨ (∃ v, pair = (.u 2, .b v) ∧ next = { fields with approvalId := some v })
      ∨ (∃ v, pair = (.u 3, .u v) ∧ next = { fields with position := some v }) := by
  unfold readReceiptField at taken
  split at taken <;> simp_all [eq_comm]

/-- The reader of a receipt fills one slot with every pair. -/
theorem receiptReader : FlatReader readReceiptField {} receiptSlots where
  shown := by
    intro fields next pair _ taken other
    rcases readReceiptField_eq_ok taken with ⟨v, rfl, rfl⟩ | ⟨v, rfl, rfl⟩ | ⟨v, rfl, rfl⟩
    all_goals
      simp only [receiptSlots, List.mem_append, mem_slot]
      grind
  empty := rfl
  ordered fields :=
    @ascending_of_keys _ [.u 1, .u 2, .u 3] (slots_keys (slots_keys slot_keys)) (by decide)
  leaves fields := by
    simp only [receiptSlots, List.mem_append, mem_slot]
    rintro pair ((⟨v, -, rfl⟩ | ⟨v, -, rfl⟩) | ⟨v, -, rfl⟩) <;> exact ⟨trivial, trivial⟩
  replays fields := by
    obtain ⟨ledger, approvalId, position⟩ := fields
    cases ledger <;> cases approvalId <;> cases position <;> rfl

/-- A receipt is parsed exactly from the octets that it is written to. -/
theorem parseReceiptBody_eq_ok {body : Bytes} {r : ConsumeReceipt}
    (parsed : parseReceiptBody body = .ok r) : r.bytes = .ok body := by
  refine (receiptReader.read_iff ⟨some r.ledger, some r.approvalId, some r.position⟩ body).mp ?_
  simp only [parseReceiptBody, bind_eq_ok] at parsed
  obtain ⟨v, decoded, parsed⟩ := parsed
  cases v with
  | m fields =>
      simp only [bind_eq_ok] at parsed
      obtain ⟨final, ran, parsed⟩ := parsed
      split at parsed
      · obtain rfl := Except.ok.inj parsed
        exact ⟨fields, decoded, ran⟩
      · cases parsed
  | _ => cases parsed

-----------------------------------------------------------------------------------------
-- The bundle map
-----------------------------------------------------------------------------------------

/-- The pairs of a bundle on the wire, with the bodies of its two records. -/
def wirePairs (bundle : ProofBundle) (approval receipt : Bytes) : List (Value × Value) :=
  [(.u 1, .b bundle.objectBytes), (.u 2, .u bundle.profile), (.u 3, .b approval),
    (.u 4, .b bundle.approvalSig), (.u 5, .n bundle.approvalAlg), (.u 6, .b receipt),
    (.u 7, .b bundle.receiptSig), (.u 8, .n bundle.receiptAlg)]
  ++ (if bundle.selfAssertedKeys ≠ []
    then [(.u 9, .a (bundle.selfAssertedKeys.map keyValue))] else [])

section Wire

variable {bundle : ProofBundle} {approval receipt b : Bytes} {pairs : List (Value × Value)}

theorem mem_wirePairs {pair : Value × Value}
    : pair ∈ wirePairs bundle approval receipt
      ↔ pair = (.u 1, .b bundle.objectBytes) ∨ pair = (.u 2, .u bundle.profile)
        ∨ pair = (.u 3, .b approval) ∨ pair = (.u 4, .b bundle.approvalSig)
        ∨ pair = (.u 5, .n bundle.approvalAlg) ∨ pair = (.u 6, .b receipt)
        ∨ pair = (.u 7, .b bundle.receiptSig) ∨ pair = (.u 8, .n bundle.receiptAlg)
        ∨ (bundle.selfAssertedKeys ≠ []
          ∧ pair = (.u 9, .a (bundle.selfAssertedKeys.map keyValue))) := by
  by_cases keys : bundle.selfAssertedKeys = [] <;> simp [wirePairs, keys]

/-- The keys of a bundle are written in ascending order. -/
theorem wirePairs_ascending
    : ((wirePairs bundle approval receipt).map encodedKey).Pairwise (· < ·) := by
  have keys : ((wirePairs bundle approval receipt).map encodedKey).Sublist
      [[1], [2], [3], [4], [5], [6], [7], [8], [9]] := by
    by_cases keys : bundle.selfAssertedKeys = []
    · simp only [wirePairs, keys, ne_eq, not_true_eq_false, if_false]
      exact of_decide_eq_true rfl
    · simp only [wirePairs, ne_eq, keys, not_false_eq_true, if_true]
      exact of_decide_eq_true rfl
  exact List.Pairwise.sublist keys (by decide)

theorem keyValue_inOrder (key : PyStr × Bytes × Bytes) : Bodies.InOrder 2 (keyValue key) := by
  refine .a ?_
  simp only [List.forall_mem_cons]
  exact ⟨.leaf trivial le_rfl, .leaf trivial le_rfl, .leaf trivial le_rfl, nofun⟩

/-- The map of a bundle is in order, the approval and the receipt being strings of octets in
it.
-/
theorem wirePairs_inOrder : Bodies.InOrder 4 (.m (wirePairs bundle approval receipt)) := by
  have leaf {v : Value} (leaf : Leaf v) : Bodies.InOrder 3 v := .leaf leaf (by decide)
  have keys : Bodies.InOrder 3 (.a (bundle.selfAssertedKeys.map keyValue)) := by
    refine .a fun item member => ?_
    obtain ⟨key, -, rfl⟩ := List.mem_map.mp member
    exact keyValue_inOrder key
  refine .m wirePairs_ascending (by decide) fun pair member => ?_
  rcases mem_wirePairs.mp member with
    rfl | rfl | rfl | rfl | rfl | rfl | rfl | rfl | ⟨-, rfl⟩
  case inr.inr.inr.inr.inr.inr.inr.inr => exact ⟨trivial, keys⟩
  all_goals exact ⟨trivial, leaf trivial⟩

/-- A bundle is written exactly when it has an approval and a receipt and all its parts can be
encoded.
-/
theorem toBytes_eq_ok
    : bundle.toBytes = .ok b
      ↔ ∃ a r approval receipt, bundle.approval = some a ∧ bundle.receipt = some r
        ∧ a.bytes = .ok approval ∧ r.bytes = .ok receipt
        ∧ encode (.m (wirePairs bundle approval receipt)) = .ok b := by
  simp only [ProofBundle.toBytes, ProofBundle.bodyMap, bind_eq_ok, required_eq_ok, pure_eq_ok,
    Except.ok.injEq]
  constructor
  · rintro ⟨_, ⟨a, present, approval, written, r, carried, receipt, receipted, rfl⟩, encoded⟩
    exact ⟨a, r, approval, receipt, present, carried, written, receipted, encoded⟩
  · rintro ⟨a, r, approval, receipt, present, carried, written, receipted, encoded⟩
    exact ⟨_, ⟨a, present, approval, written, r, carried, receipt, receipted, rfl⟩, encoded⟩

/-- What a bundle is read from: the field of each part, with the bodies of the two records. -/
structure ReadBundle (pairs : List (Value × Value)) (bundle : ProofBundle)
    (approval receipt : Bytes)
    : Prop where
  keys : ∀ pair ∈ pairs, ∃ n, pair.1 = .u n
  object : Envelope.getField 1 pairs = some (.b bundle.objectBytes)
  profile : Envelope.getField 2 pairs = some (.u bundle.profile)
  approvalField : Envelope.getField 3 pairs = some (.b approval)
  approvalSig : Envelope.getField 4 pairs = some (.b bundle.approvalSig)
  approvalAlg : Envelope.getField 5 pairs = some (.n bundle.approvalAlg)
  receiptField : Envelope.getField 6 pairs = some (.b receipt)
  receiptSig : Envelope.getField 7 pairs = some (.b bundle.receiptSig)
  receiptAlg : Envelope.getField 8 pairs = some (.n bundle.receiptAlg)
  selfAsserted : Envelope.getField 9 pairs = some (.a (bundle.selfAssertedKeys.map keyValue))
    ∨ Envelope.getField 9 pairs = none ∧ bundle.selfAssertedKeys = []
  approvalRead : ∃ a, bundle.approval = some a ∧ parseApprovalBody approval = .ok a
  receiptRead : ∃ r, bundle.receipt = some r ∧ parseReceiptBody receipt = .ok r

/-- The loop over the keys passes exactly when all of them are unsigned integers, by induction
on the pairs.
-/
theorem checkBundleKeys_eq_ok {done : Unit}
    : checkBundleKeys pairs = .ok done ↔ ∀ pair ∈ pairs, ∃ n, pair.1 = .u n := by
  induction pairs with
  | nil => simp [checkBundleKeys]
  | cons pair rest ih =>
      obtain ⟨k, v⟩ := pair
      cases k with
      | u n => simp [checkBundleKeys, ih]
      | _ => simp [checkBundleKeys]

theorem needB_eq_ok {n : Int} {v : Bytes}
    : needB pairs n = .ok v ↔ Envelope.getField n pairs = some (.b v) := by
  unfold needB
  split <;> simp_all

theorem needU_eq_ok {n v : Int}
    : needU pairs n = .ok v ↔ Envelope.getField n pairs = some (.u v) := by
  unfold needU
  split <;> simp_all

theorem needN_eq_ok {n v : Int}
    : needN pairs n = .ok v ↔ Envelope.getField n pairs = some (.n v) := by
  unfold needN
  split <;> simp_all

/-- An entry is parsed from what it is written as. -/
theorem parseKey_inverse : Bodies.InverseOn parseKey keyValue (fun _ => True) where
  written := by
    intro v key _ parsed
    unfold parseKey at parsed
    split at parsed
    · obtain rfl := Except.ok.inj parsed
      exact ⟨rfl, trivial⟩
    · cases parsed
    · cases parsed
  read _ := rfl

/-- The self-asserted keys are read as they are listed, or are absent. -/
theorem selfAsserted_eq_ok {keys : List (PyStr × Bytes × Bytes)}
    (decoded : ∀ pair ∈ pairs, Bodies.Decoded pair.2) (distinct : (pairs.map encodedKey).Nodup)
    (parsed : selfAsserted pairs = .ok keys)
    : Envelope.getField 9 pairs = some (.a (keys.map keyValue))
      ∨ Envelope.getField 9 pairs = none ∧ keys = [] := by
  unfold selfAsserted at parsed
  split at parsed
  · rename_i absent
    exact .inr ⟨absent, (Except.ok.inj parsed).symm⟩
  · rename_i items present
    have stands := (Envelope.getField_eq_some distinct).mp present
    obtain ⟨rfl, -⟩ :=
      parseKey_inverse.written_of_mapM (Bodies.decoded_a (decoded _ stands)) parsed
    exact .inl present
  · cases parsed

/-- Reading takes a bundle apart. -/
theorem fromBytes_eq_ok (read : fromBytes b = .ok bundle)
    : ∃ pairs approval receipt, decode b = .ok (.m pairs)
      ∧ ReadBundle pairs bundle approval receipt := by
  simp only [fromBytes, bind_eq_ok] at read
  obtain ⟨v, decoded, read⟩ := read
  cases v with
  | m pairs =>
      simp only [bind_eq_ok, checkBundleKeys_eq_ok, needB_eq_ok, needU_eq_ok, needN_eq_ok,
        pure_eq_ok, Except.ok.injEq, exists_const] at read
      obtain ⟨keys, object, objectField, profile, profileField, approval, approvalField, a, parsed,
        approvalSig, approvalSigField, approvalAlg, approvalAlgField, receipt, receiptField, r,
        receiptParsed, receiptSig, receiptSigField, receiptAlg, receiptAlgField, asserted,
        assertedField, rfl⟩ := read
      obtain ⟨ordered, members⟩ := Bodies.decoded_m (Bodies.decoded_of_decode decoded)
      exact ⟨pairs, approval, receipt, decoded, keys, objectField, profileField, approvalField,
        approvalSigField, approvalAlgField, receiptField, receiptSigField, receiptAlgField,
        selfAsserted_eq_ok members (nodup_of_ascending ordered) assertedField, ⟨a, rfl, parsed⟩,
        ⟨r, rfl, receiptParsed⟩⟩
  | _ => cases read

/-- What a bundle keeps of its octets: the keys 1 to 9, of which an empty array of keys and an
explicit empty audience are written as absent ones.
-/
structure Kept (pairs : List (Value × Value)) : Prop where
  known : ∀ n v, (.u n, v) ∈ pairs → 1 ≤ n ∧ n ≤ 9
  keys : (.u 9, .a []) ∉ pairs
  audience : ∀ body, (.u 3, .b body) ∈ pairs → ¬ EmptyAudience body

section Reading

variable (read : ReadBundle pairs bundle approval receipt) (distinct : (pairs.map encodedKey).Nodup)

include read distinct

/-- What a bundle is written as is among the pairs that it was read from. -/
theorem ReadBundle.subset : ∀ pair ∈ wirePairs bundle approval receipt, pair ∈ pairs := by
  have stands {n : Int} {v : Value} := (@Envelope.getField_eq_some pairs n v distinct).mp
  intro pair member
  rcases mem_wirePairs.mp member with
    rfl | rfl | rfl | rfl | rfl | rfl | rfl | rfl | ⟨keys, rfl⟩
  · exact stands read.object
  · exact stands read.profile
  · exact stands read.approvalField
  · exact stands read.approvalSig
  · exact stands read.approvalAlg
  · exact stands read.receiptField
  · exact stands read.receiptSig
  · exact stands read.receiptAlg
  · exact stands (read.selfAsserted.resolve_right fun absent => keys absent.2)

/-- Under the known keys nothing else stands. -/
theorem ReadBundle.superset (kept : Kept pairs)
    : ∀ pair ∈ pairs, pair ∈ wirePairs bundle approval receipt := by
  intro pair member
  obtain ⟨k, v⟩ := pair
  obtain ⟨n, rfl⟩ : ∃ n, k = .u n := read.keys _ member
  obtain ⟨lower, upper⟩ := kept.known n v member
  have field := (Envelope.getField_eq_some distinct).mpr member
  have value : ∀ w, Envelope.getField n pairs = some w → v = w :=
    fun _ present => Option.some.inj (field.symm.trans present)
  rw [mem_wirePairs]
  obtain rfl | rfl | rfl | rfl | rfl | rfl | rfl | rfl | rfl : n = 1 ∨ n = 2 ∨ n = 3 ∨ n = 4 ∨ n = 5
      ∨ n = 6 ∨ n = 7 ∨ n = 8 ∨ n = 9 := by omega
  · simp [value _ read.object]
  · simp [value _ read.profile]
  · simp [value _ read.approvalField]
  · simp [value _ read.approvalSig]
  · simp [value _ read.approvalAlg]
  · simp [value _ read.receiptField]
  · simp [value _ read.receiptSig]
  · simp [value _ read.receiptAlg]
  · rcases read.selfAsserted with present | absent
    · obtain rfl := value _ present
      have some : bundle.selfAssertedKeys ≠ [] := by
        intro none
        rw [none] at member
        exact kept.keys member
      simp [some]
    · rw [absent.1] at field
      cases field

end Reading

/-- A bundle is written to the octets it was read from exactly when it keeps what stands in them.
Witness: what is written is the map of the bundle in order, so it is the octets read exactly
when the map has no more and no less in it.
-/
theorem toBytes_iff (returned : fromBytes b = .ok bundle)
    : bundle.toBytes = .ok b ↔ ∀ pairs, decode b = .ok (.m pairs) → Kept pairs := by
  obtain ⟨pairs, approval, receipt, decoded, read⟩ := fromBytes_eq_ok returned
  obtain ⟨canonical, octets⟩ := decode_eq_ok.mp decoded
  have ordered := ((@canonical_m (unboundedDepth - 1) pairs).mp canonical).2.1
  have distinct := nodup_of_ascending ordered
  obtain ⟨a, hasApproval, approvalParsed⟩ := read.approvalRead
  obtain ⟨r, hasReceipt, receiptParsed⟩ := read.receiptRead
  constructor
  · intro written again decodedAgain
    obtain rfl := Value.m.inj (Except.ok.inj (decoded.symm.trans decodedAgain))
    obtain ⟨a', r', body, receiptBody, present, -, approvalWritten, -, encoded⟩ :=
      toBytes_eq_ok.mp written
    obtain rfl := Option.some.inj (hasApproval.symm.trans present)
    have own := wirePairs_inOrder.decode (by decide) encoded
    obtain rfl := Value.m.inj (Except.ok.inj (decoded.symm.trans own))
    refine ⟨?_, ?_, ?_⟩
    · intro n v member
      rw [mem_wirePairs] at member
      simp only [Prod.mk.injEq, Value.u.injEq] at member
      omega
    · simp [mem_wirePairs]
    · intro other member
      have stands := (Envelope.getField_eq_some distinct).mp read.approvalField
      have bodyStands : (.u 3, .b body) ∈ wirePairs bundle body receiptBody :=
        mem_wirePairs.mpr (by simp)
      obtain rfl := Value.b.inj (Envelope.value_unique distinct bodyStands stands)
      obtain rfl := Value.b.inj (Envelope.value_unique distinct bodyStands member)
      exact (approval_bytes_iff approvalParsed).mp approvalWritten
  · intro kept
    have keptPairs := kept pairs decoded
    have approvalStands := (Envelope.getField_eq_some distinct).mp read.approvalField
    have approvalWritten :=
      (approval_bytes_iff approvalParsed).mpr (keptPairs.audience _ approvalStands)
    refine toBytes_eq_ok.mpr ⟨a, r, approval, receipt, hasApproval, hasReceipt, approvalWritten,
      parseReceiptBody_eq_ok receiptParsed, ?_⟩
    have same : wirePairs bundle approval receipt = pairs := by
      refine eq_of_ascending wirePairs_ascending ordered fun pair => ?_
      exact ⟨read.subset distinct pair, read.superset distinct keptPairs pair⟩
    rw [same, octets]
    exact canonical.encodable

end Wire

-----------------------------------------------------------------------------------------
-- Named failures
-----------------------------------------------------------------------------------------

/-- The error types that the verifier names. -/
def NamedError (err : Exc) : Prop := isNamed err = true ∨ ∃ kind msg, err = .bundleError kind msg

/-- The header and the payload of a tagged COSE_Sign1 object. -/
def Sign1Parts (data prot payload : Bytes) : Prop :=
  ∃ unprotected sig, decode data
    = .ok (.tag tagSign1 (.a [.b prot, unprotected, .b payload, .b sig]))

/-- What the peek at an object and the id of its approver need, as far as they get: no ill-formed
text in what is decoded, the shape of a COSE_Sign1 object, an alg in its header when its payload
names a signer, and an approver without a lone surrogate.
-/
structure Readable (objectBytes : Bytes) (approver : PyStr) : Prop where
  texts : ¬ Meets BadText unboundedDepth objectBytes
  sign1 : ∀ v, decode objectBytes = .ok v
    → ∃ prot unprotected payload sig,
      v = .tag tagSign1 (.a [.b prot, unprotected, .b payload, .b sig])
  payload : ∀ prot payload, Sign1Parts objectBytes prot payload
    → ¬ Meets BadText Envelope.maxNestingDepth payload
  header : ∀ prot payload pairs signer, Sign1Parts objectBytes prot payload
    → decodeBounded payload Envelope.maxNestingDepth = .ok (.m pairs)
    → (.u Envelope.fieldSigner, .b signer) ∈ pairs → prot ≠ [0xA0]
    → ¬ Meets BadText unboundedDepth prot
      ∧ ∀ v, decode prot = .ok v → ∃ entries alg, v = .m entries ∧ (.u 1, .n alg) ∈ entries
  approver : ∀ prot payload pairs signer entries, Sign1Parts objectBytes prot payload
    → decodeBounded payload Envelope.maxNestingDepth = .ok (.m pairs)
    → (.u Envelope.fieldSigner, .b signer) ∈ pairs → prot ≠ [0xA0] → decode prot = .ok entries
    → ∃ octets, approver.encode = .ok octets

section Failures

variable {α β : Type} {lib : SignatureLibrary} {str : Exc → String} {data prot payload : Bytes}
  {levels : Nat}

theorem namedError_bundle {kind : Kind} {msg : String} : NamedError (.bundleError kind msg) :=
  .inr ⟨kind, msg, rfl⟩

/-- The decoder raises another error only at ill-formed text. -/
theorem failsOnly_decodeBounded
    : FailsOnly NamedError (decodeBounded data levels) ↔ ¬ Meets BadText levels data := by
  constructor
  · intro named met
    have raised := (decodeBounded_eq_error foreign_unicode).mpr (meets_badText.mp met)
    have known := named _ raised
    simp [NamedError, isNamed] at known
  · intro unmet err failed
    rcases decodeBounded_failsOnly_named.mpr unmet err failed with ⟨msg, rfl⟩ | ⟨msg, rfl⟩
    · exact .inl rfl
    · exact .inl rfl

/-- Whatever is decoded is read further. -/
theorem failsOnly_decodeBounded_bind {next : Value → Py α}
    : FailsOnly NamedError (decodeBounded data levels >>= next)
      ↔ ¬ Meets BadText levels data
        ∧ ∀ v, decodeBounded data levels = .ok v → FailsOnly NamedError (next v) := by
  rw [failsOnly_bind_iff, failsOnly_decodeBounded]

theorem failsOnly_encode {s : PyStr}
    : FailsOnly NamedError s.encode ↔ ∃ octets, s.encode = .ok octets := by
  refine failsOnly_iff_ok ?_
  intro err failed
  obtain rfl := failsOnly_textEncode err failed
  simp [NamedError, isNamed]

/-- A decoded value that is no COSE_Sign1 object raises an unnamed error. -/
theorem failsOnly_parseSign1Raw
    : FailsOnly NamedError (parseSign1Raw data)
      ↔ ¬ Meets BadText unboundedDepth data
        ∧ ∀ v, decode data = .ok v → ∃ prot unprotected payload sig,
          v = .tag tagSign1 (.a [.b prot, unprotected, .b payload, .b sig]) := by
  rw [parseSign1Raw, decode, failsOnly_decodeBounded_bind]
  refine and_congr_right fun _ => forall_congr' fun v => imp_congr_right fun decoded => ?_
  rw [failsOnly_iff_ok]
  · constructor
    · rintro ⟨⟨prot, payload, sig⟩, returned⟩
      have parsed : parseSign1Raw data = .ok (prot, payload, sig) := by
        rw [parseSign1Raw, decode, decoded]
        exact returned
      obtain ⟨unprotected, read⟩ := Signatures.parseSign1Raw_eq_ok.mp parsed
      exact ⟨prot, unprotected, payload, sig, Except.ok.inj (decoded.symm.trans read)⟩
    · rintro ⟨prot, unprotected, payload, sig, rfl⟩
      exact ⟨(prot, payload, sig), rfl⟩
  · intro err failed
    have value : ∃ msg, err = .valueError msg := by
      split at failed
      · rcases bind_eq_error.mp failed with raised | ⟨_, -, raised⟩
        · unfold raiseIf at raised
          split at raised
          · exact ⟨_, (Except.error.inj raised).symm⟩
          · cases raised
        · split at raised
          · cases raised
          · exact ⟨_, (Except.error.inj raised).symm⟩
      · exact ⟨_, (Except.error.inj failed).symm⟩
    obtain ⟨msg, rfl⟩ := value
    simp [NamedError, isNamed]

theorem sign1Parts_iff
    : Sign1Parts data prot payload ↔ ∃ sig, parseSign1Raw data = .ok (prot, payload, sig) := by
  simp only [Sign1Parts, Signatures.parseSign1Raw_eq_ok]
  exact exists_comm

/-- Past the parse, the peek names its errors but for the texts of the payload. -/
theorem failsOnly_peekObjectSigner
    : FailsOnly NamedError (peekObjectSigner data)
      ↔ FailsOnly NamedError (parseSign1Raw data)
        ∧ ∀ prot payload, Sign1Parts data prot payload
          → ¬ Meets BadText Envelope.maxNestingDepth payload := by
  simp only [peekObjectSigner, failsOnly_bind_iff, failsOnly_decodeBounded, Prod.forall,
    sign1Parts_iff]
  refine and_congr_right fun _ => ⟨?_, ?_⟩
  · rintro named prot payload ⟨sig, parsed⟩
    exact (named prot payload sig parsed).1
  · intro texts prot payload sig parsed
    refine ⟨texts prot payload ⟨sig, parsed⟩, fun v _ => ?_⟩
    split
    · split
      · exact failsOnly_pure _
      · exact failsOnly_throw namedError_bundle
    · exact failsOnly_throw namedError_bundle

/-- The alg of a header is refused by name exactly when the header holds no bad text and is a
map with an alg.
-/
theorem failsOnly_algFromProtected
    : FailsOnly NamedError (algFromProtected prot)
      ↔ prot ≠ [0xA0] → ¬ Meets BadText unboundedDepth prot
        ∧ ∀ v, decode prot = .ok v → ∃ entries alg, v = .m entries ∧ (.u 1, .n alg) ∈ entries := by
  by_cases empty : prot = [0xA0]
  · obtain ⟨msg, failed⟩ : ∃ msg, algFromProtected prot = .error (.nonCanonical msg) := by
      rw [algFromProtected, raiseIf_pos empty]
      exact ⟨_, rfl⟩
    rw [failed]
    exact ⟨fun _ other => (other empty).elim, fun _ => failsOnly_throw (.inl rfl)⟩
  · simp only [ne_eq, empty, not_false_eq_true, forall_const]
    rw [algFromProtected, raiseIf_neg empty, ok_bind, decode, failsOnly_decodeBounded_bind]
    refine and_congr_right fun _ => forall_congr' fun v => imp_congr_right fun _ => ?_
    cases v with
    | m entries =>
        dsimp only
        cases found : findAlg entries with
        | none =>
            have absent : ¬ ∃ alg, (.u 1, .n alg) ∈ entries := by
              rw [← exists_findAlg, found]
              simp
            simpa [FailsOnly, NamedError, isNamed] using absent
        | some alg =>
            obtain ⟨alg, stands⟩ := exists_findAlg.mp ⟨alg, found⟩
            exact ⟨fun _ => ⟨entries, alg, rfl, stands⟩, fun _ => failsOnly_pure _⟩
    | _ => simp [FailsOnly, NamedError, isNamed]

/-- The references of a complete bundle are read, or not read with a named error, exactly when the
peek has what it needs.
Witness: the peek opens the object, its payload and its header in turn, and each of them can
raise an unnamed error.
-/
theorem failsOnly_keyRefs {bundle : ProofBundle} {approval : ApprovalRecord}
    {receipt : ConsumeReceipt} (hasApproval : bundle.approval = some approval)
    (hasReceipt : bundle.receipt = some receipt)
    : FailsOnly NamedError bundle.keyRefs ↔ Readable bundle.objectBytes approval.approver := by
  have present : required bundle.approval = .ok approval := required_eq_ok.mpr hasApproval
  have carried : required bundle.receipt = .ok receipt := required_eq_ok.mpr hasReceipt
  rw [ProofBundle.keyRefs, failsOnly_bind_iff, failsOnly_peekObjectSigner, failsOnly_parseSign1Raw]
  simp only [failsOnly_bind_iff, present, carried, Except.ok.injEq, failsOnly_encode, objectAlg]
  constructor
  · rintro ⟨⟨⟨texts, sign1⟩, payload⟩, rest⟩
    have peeks : ∀ {prot payload pairs signer}, Sign1Parts bundle.objectBytes prot payload
        → decodeBounded payload Envelope.maxNestingDepth = .ok (.m pairs)
        → (.u Envelope.fieldSigner, .b signer) ∈ pairs
        → ∃ sig signer, parseSign1Raw bundle.objectBytes = .ok (prot, payload, sig)
          ∧ peekObjectSigner bundle.objectBytes = .ok signer := by
      intro prot payload pairs signer parts decoded stands
      obtain ⟨signer, found⟩ := exists_findSigner.mpr ⟨signer, stands⟩
      obtain ⟨sig, parsed⟩ := sign1Parts_iff.mp parts
      exact ⟨sig, signer, parsed,
        peekObjectSigner_eq_ok.mpr ⟨prot, payload, sig, pairs, parsed, decoded, found⟩⟩
    refine ⟨texts, sign1, payload, ?_, ?_⟩
    · intro prot payload pairs _ parts decoded stands notEmpty
      obtain ⟨sig, signer, parsed, peeked⟩ := peeks parts decoded stands
      exact failsOnly_algFromProtected.mp ((rest signer peeked).1.2 _ parsed) notEmpty
    · intro prot payload pairs _ header parts decoded stands notEmpty decodedHeader
      obtain ⟨sig, signer, parsed, peeked⟩ := peeks parts decoded stands
      have named := failsOnly_algFromProtected.mp ((rest signer peeked).1.2 _ parsed) notEmpty
      obtain ⟨entries, _, rfl, algStands⟩ := named.2 header decodedHeader
      obtain ⟨alg, found⟩ := exists_findAlg.mpr ⟨_, algStands⟩
      have read : algFromProtected prot = .ok alg := by
        simp [algFromProtected, notEmpty, decodedHeader, found]
      exact (((rest signer peeked).2 alg (by rw [parsed, ok_bind, read])).2 approval rfl).1
  · intro readable
    refine ⟨⟨⟨readable.texts, readable.sign1⟩, readable.payload⟩, fun signer peeked => ?_⟩
    obtain ⟨prot, payload, sig, pairs, parsed, decoded, found⟩ := peekObjectSigner_eq_ok.mp peeked
    have parts := sign1Parts_iff.mpr ⟨sig, parsed⟩
    have stands := mem_of_findSigner found
    refine ⟨⟨failsOnly_parseSign1Raw.mpr ⟨readable.texts, readable.sign1⟩, ?_⟩, ?_⟩
    · intro again reparsed
      obtain rfl := Except.ok.inj (parsed.symm.trans reparsed)
      exact failsOnly_algFromProtected.mpr (readable.header _ _ _ _ parts decoded stands)
    · intro alg read
      refine ⟨failsOnly_ok, ?_⟩
      rintro _ rfl
      rw [parsed, ok_bind] at read
      simp only [algFromProtected, bind_eq_ok, raiseIf_eq_ok, exists_const] at read
      obtain ⟨notEmpty, entries, decodedHeader, -⟩ := read
      refine ⟨readable.approver _ _ _ _ entries parts decoded stands notEmpty decodedHeader, ?_⟩
      exact fun _ _ => ⟨failsOnly_ok, fun _ _ => failsOnly_pure _⟩

theorem failsOnly_resolveKey {anchor : TrustAnchor} {holder : String} {ref : KeyRef}
    : FailsOnly NamedError (resolveKey anchor holder ref) := by
  unfold resolveKey
  split
  · exact failsOnly_pure _
  · exact failsOnly_throw namedError_bundle

/-- What is called by name raises a named error, whatever it raises. -/
theorem failsOnly_callNamed {name : String} {outcome : Py α}
    : FailsOnly NamedError (callNamed str name outcome) := by
  unfold callNamed
  split
  · exact failsOnly_pure _
  · split
    · rename_i named
      exact failsOnly_throw (.inl named)
    · exact failsOnly_throw namedError_bundle

/-- The content id of an accepted object is computed, since its body map is canonical. -/
theorem contentId_of_verified {profile alg : Int} {pubkey : Bytes}
    {kindValidator : Option (Int → Int → Bool)} {knownCext : List Int} {o : Envelope.Object}
    (accepted : Envelope.verify lib profile alg pubkey kindValidator data knownCext = .ok o)
    : ∃ cid, o.contentId = .ok cid := by
  obtain ⟨parts, stages⟩ := (Envelope.verify_eq_ok ..).mp accepted
  obtain ⟨id, claimed⟩ :=
    stages.id_eq_some (Implementations.distinct_of_decodeBounded stages.body).2
  have canonical := (stages.canonical_pairs claimed).sublist (List.sublist_cons_self _ _)
  refine ⟨contentIdBytes (encoding (.m o.fieldPairs)), ?_⟩
  change Cbor.contentId (.m o.fieldPairs) = _
  rw [Cbor.contentId, canonical.encodable]
  rfl

/-- Verification names its errors exactly when what a complete bundle presents to an anchor can be
read.
Witness: before the references everything is refused by name; after them nothing else can be
raised.
-/
theorem failsOnly_run (call : OfflineCall)
    : FailsOnly NamedError (call.run lib str)
      ↔ ∀ anchor approval receipt, call.anchor = some anchor → anchor.selfDerived = false
        → call.bundle.approval = some approval → call.bundle.receipt = some receipt
        → Readable call.bundle.objectBytes approval.approver := by
  unfold OfflineCall.run verifyBundle
  cases supplied : call.anchor with
  | none =>
      exact ⟨fun _ _ _ _ present => absurd present (Option.some_ne_none _).symm,
        fun _ => failsOnly_throw namedError_bundle⟩
  | some anchor =>
      dsimp only
      by_cases derived : anchor.selfDerived = true
      · rw [raiseIf_pos derived]
        refine ⟨fun _ other _ _ same independent => ?_, fun _ => failsOnly_throw namedError_bundle⟩
        obtain rfl := Option.some.inj same
        cases derived.symm.trans independent
      · rw [raiseIf_neg derived, ok_bind]
        cases hasApproval : call.bundle.approval with
        | none =>
            exact ⟨fun _ _ _ _ _ _ present => absurd present (Option.some_ne_none _).symm,
              fun _ => failsOnly_throw namedError_bundle⟩
        | some approval =>
            cases hasReceipt : call.bundle.receipt with
            | none =>
                exact ⟨fun _ _ _ _ _ _ _ present => absurd present (Option.some_ne_none _).symm,
                  fun _ => failsOnly_throw namedError_bundle⟩
            | some receipt =>
                dsimp only
                rw [failsOnly_bind_iff, failsOnly_keyRefs hasApproval hasReceipt]
                constructor
                · rintro ⟨readable, -⟩ _ _ _ - - same -
                  exact Option.some.inj same ▸ readable
                · intro readable
                  have independent : anchor.selfDerived = false := by simpa using derived
                  refine ⟨readable anchor approval receipt rfl independent rfl rfl, ?_⟩
                  rintro ⟨objRef, approvalRef, receiptRef⟩ -
                  dsimp only
                  -- every step is named, and what is computed between the calls does not fail
                  refine failsOnly_resolveKey.bind fun objectPk => ?_
                  refine failsOnly_bind_iff.mpr ⟨failsOnly_callNamed, fun obj called => ?_⟩
                  obtain ⟨cid, identified⟩ := contentId_of_verified (callNamed_eq_ok.mp called)
                  refine failsOnly_resolveKey.bind fun approvalPk => ?_
                  rw [identified, ok_bind]
                  refine failsOnly_bind_iff.mpr ⟨failsOnly_callNamed, fun _ called => ?_⟩
                  obtain ⟨body, -, named⟩ :=
                    Authorization.id_of_verifyApproval (callNamed_eq_ok.mp called)
                  rw [named, ok_bind]
                  refine (failsOnly_raiseIf namedError_bundle).bind fun _ => ?_
                  refine failsOnly_resolveKey.bind fun receiptPk => ?_
                  exact failsOnly_callNamed.bind fun _ => failsOnly_pure _

end Failures

/-- Every bundle that is read is written back to its octets exactly when these have only known keys,
neither an empty array of keys nor an explicit empty audience. Verification returns an object or
raises one of its named errors exactly when what a complete bundle presents to an anchor of the
verifier's own can be read.
-/
theorem bundles_exact_and_named_iff (lib : SignatureLibrary) (str : Exc → String)
    : (∀ b bundle, fromBytes b = .ok bundle
        → (bundle.toBytes = .ok b ↔ ∀ pairs, decode b = .ok (.m pairs) → Kept pairs))
      ∧ ∀ call, FailsOnly NamedError (OfflineCall.run lib str call)
        ↔ ∀ anchor approval receipt, call.anchor = some anchor → anchor.selfDerived = false
          → call.bundle.approval = some approval → call.bundle.receipt = some receipt
          → Readable call.bundle.objectBytes approval.approver :=
  ⟨fun _ _ returned => toBytes_iff returned, failsOnly_run⟩

-----------------------------------------------------------------------------------------
-- Octets that are not kept, and errors that are not named
-----------------------------------------------------------------------------------------

/-- A bundle map with the given audience and entries. -/
def looseMap (audience extra : List (Value × Value)) : Py Value := do
  let approval ← encode (.m
    ([(.u 1, .b [1]), (.u 2, .t []), (.u 3, .u 0), (.u 4, .b []), (.u 5, .u 0)]
    ++ audience))
  let receipt ← encode (.m [(.u 1, .b [1]), (.u 2, .b [1]), (.u 3, .u 0)])
  return .m ([(.u 1, .b []), (.u 2, .u 1), (.u 3, .b approval), (.u 4, .b []), (.u 5, .n (-49)),
    (.u 6, .b receipt), (.u 7, .b []), (.u 8, .n (-49))] ++ extra)

/-- Reading the map gives a bundle that is written to other octets. -/
def NotKept (audience extra : List (Value × Value)) : Prop :=
  ∃ b bundle again, (looseMap audience extra >>= encode) = .ok b ∧ fromBytes b = .ok bundle
    ∧ bundle.toBytes = .ok again ∧ again ≠ b

/-- An unknown key, an empty array of keys and an explicit empty audience are read and not kept. An
object that is a single integer raises a ValueError.
-/
theorem loose_bundles_accepted
    : NotKept [] [(.u 10, .u 0)] ∧ NotKept [] [(.u 9, .a [])] ∧ NotKept [(.u 6, .t [])] []
      ∧ ∃ call, OfflineCall.run digestLibrary (fun _ => "") call
        = .error (.valueError "not a tagged COSE_Sign1") := by
  have notKept : ∀ {audience extra}, (do
      let b ← looseMap audience extra >>= encode
      let bundle ← fromBytes b
      let again ← bundle.toBytes
      return decide (again ≠ b)) = (.ok true : Py Bool) → NotKept audience extra := by
    intro audience extra computed
    simp only [bind_eq_ok, pure_eq_ok, Except.ok.injEq, decide_eq_true_eq] at computed
    obtain ⟨b, encoded, bundle, read, again, written, differs⟩ := computed
    exact ⟨b, bundle, again, bind_eq_ok.mpr encoded, read, written, differs⟩
  refine ⟨notKept (by decide +kernel), notKept (by decide +kernel), notKept (by decide +kernel), ?_⟩
  exact ⟨sampleCall [0] [] 1, rfl⟩

end Naalp.Receipts
