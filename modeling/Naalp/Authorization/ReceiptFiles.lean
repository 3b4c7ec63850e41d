import Naalp.Authorization.BoundTerms
import Naalp.Authorization.GatedCalls

/-! What the offline verifier of receipt files accepts, and what it says about the body that a file
records. The verifier checks the signature over the recorded octets, whatever these are.
-/

namespace Naalp.Authorization

open Naalp.Foundation
open Naalp.Python
open Naalp.Python.Approval
open Naalp.Python.Cbor
open Naalp.Python.Cose
open Naalp.Python.Hitl
open Naalp.Python.McpGuard
open Naalp.Python.MixedMode (Json)
open Naalp.Signatures (approvalBody bytes_sampleApproval digestSignature digestSignature_verifies
  objectKey sampleApproval)

-----------------------------------------------------------------------------------------
-- The bodies of receipts
-----------------------------------------------------------------------------------------

/-- A decision of the vocabulary and an effect of the lattice. -/
def WellFormed (r : EffectReceipt) : Prop :=
  (r.decision = decisionExecuted ∨ r.decision = decisionDenied) ∧ 0 ≤ r.effect ∧ r.effect ≤ 3

/-- The values of a receipt, in the order of their keys. -/
def receiptTerms (r : EffectReceipt) : List Value :=
  [.b r.toolId, .b r.argsId, .b r.callId, .u r.effect, .t r.decision, .t r.reason, .b r.resultHash,
    .t r.principal, .t r.toolName, .t r.guardIdentity, .u r.createdMs]

/-- The kinds of the eleven values, with a decision of the vocabulary and an effect of the lattice.
-/
def isReceiptTerms : List Value → Bool
  | [.b _, .b _, .b _, .u effect, .t decision, .t _, .b _, .t _, .t _, .t _, .u _] =>
      (decision = decisionExecuted ∨ decision = decisionDenied) ∧ 0 ≤ effect ∧ effect ≤ 3
  | _ => false

/-- The grammar of a receipt's body: a canonical map with such values under the keys from one on. -/
def ReceiptBody (body : Bytes) : Prop :=
  ∃ values, decode body = .ok (.m (numbered 1 values)) ∧ isReceiptTerms values

theorem receiptTerms_leaves (r : EffectReceipt) : ∀ v ∈ receiptTerms r, Leaf v := by
  simp [receiptTerms, Leaf]

theorem bytes_eq_ok {r : EffectReceipt} {body : Bytes}
    : r.bytes = .ok body ↔ WellFormed r ∧ encode (.m (numbered 1 (receiptTerms r))) = .ok body := by
  have value : r.value = .m (numbered 1 (receiptTerms r)) := rfl
  simp only [EffectReceipt.bytes, EffectReceipt.toMap, bind_eq_ok, raiseIf_eq_ok, exists_const,
    pure_eq_ok, Except.ok.injEq, not_and_or, not_or, not_not, WellFormed, and_assoc, value,
    exists_and_left, exists_eq_left']

/-- A receipt is written exactly when it is well formed and its values can be encoded. -/
theorem receipt_returns {r : EffectReceipt}
    : (∃ body, r.bytes = .ok body) ↔ WellFormed r ∧ ∀ v ∈ receiptTerms r, Encodable v := by
  rw [← @encodable_numbered 1 (receiptTerms r) (by simp [receiptTerms]), encodable_iff]
  simp only [bytes_eq_ok, exists_and_left]

/-- The grammar of a receipt's values: they are the terms of a well-formed receipt. -/
theorem isReceiptTerms_iff {values : List Value}
    : isReceiptTerms values ↔ ∃ r, WellFormed r ∧ values = receiptTerms r := by
  constructor
  · intro kinds
    unfold isReceiptTerms at kinds
    split at kinds
    · rename_i toolId argsId callId effect decision reason resultHash principal toolName
        guardIdentity created
      exact ⟨⟨toolId, argsId, callId, effect, decision, reason, resultHash, principal, toolName,
        guardIdentity, created⟩, by simpa [WellFormed] using kinds, rfl⟩
    · cases kinds
  · rintro ⟨r, wellFormed, rfl⟩
    simpa [receiptTerms, isReceiptTerms, WellFormed] using wellFormed

/-- The bodies of the grammar are those that receipts have. -/
theorem receiptBody_iff {body : Bytes}
    : ReceiptBody body ↔ ∃ r : EffectReceipt, WellFormed r ∧ r.bytes = .ok body := by
  constructor
  · rintro ⟨values, decoded, kinds⟩
    obtain ⟨r, wellFormed, rfl⟩ := isReceiptTerms_iff.mp kinds
    obtain ⟨canonical, rfl⟩ := decode_eq_ok.mp decoded
    exact ⟨r, wellFormed, bytes_eq_ok.mpr ⟨wellFormed, canonical.encodable⟩⟩
  · rintro ⟨r, wellFormed, encoded⟩
    refine ⟨receiptTerms r, ?_, isReceiptTerms_iff.mpr ⟨r, wellFormed, rfl⟩⟩
    exact decode_numbered (by simp [receiptTerms]) (receiptTerms_leaves r)
      (bytes_eq_ok.mp encoded).2

/-- An approval has at most six fields. -/
theorem not_receiptBody_of_approval {a : ApprovalRecord} {body : Bytes}
    (encoded : a.bytes = .ok body)
    : ¬ ReceiptBody body := by
  rw [receiptBody_iff]
  rintro ⟨r, -, written⟩
  let terms : List Value := [.b a.approves, .t a.approver, .u a.grant, .b a.nonce, .u a.notAfter]
    ++ if a.audience ≠ [] then [.t a.audience] else []
  have same : encode (.m (numbered 1 terms)) = .ok body := by
    rw [← encoded, ApprovalRecord.bytes]
    by_cases named : a.audience = [] <;> simp [terms, named, numbered]
  have short : terms.length ≤ 6 := by
    by_cases named : a.audience = [] <;> simp [terms, named]
  have leaves : ∀ v ∈ terms, Leaf v := by
    by_cases named : a.audience = [] <;> simp [terms, named, Leaf]
  have equal := values_eq_of_encode (by omega) (by simp [receiptTerms]) leaves
    (receiptTerms_leaves r) same (bytes_eq_ok.mp written).2
  have lengths := congrArg List.length equal
  simp only [receiptTerms, List.length_cons, List.length_nil] at lengths
  omega

/-- A refusal record has eight fields. -/
theorem not_receiptBody_of_refusal {rec : RefusalDecisionRecord} {body : Bytes}
    (encoded : rec.bytes = .ok body) : ¬ ReceiptBody body := by
  rw [receiptBody_iff]
  rintro ⟨r, -, written⟩
  have equal := @values_eq_of_encode 1 [.t rec.whatKind, .b rec.whatContentId, .u rec.whenMs,
    .t rec.whereIdentity, .t rec.whereAudience, .t rec.sourcePrincipal, .t rec.outcomeReason,
    .t rec.approverIdentity] (receiptTerms r) body (by simp) (by simp [receiptTerms])
      (by simp [Leaf])
    (receiptTerms_leaves r) encoded (bytes_eq_ok.mp written).2
  simp [receiptTerms] at equal

-----------------------------------------------------------------------------------------
-- What the verifier accepts
-----------------------------------------------------------------------------------------

section Verifying

variable {α : Type} (lib : SignatureLibrary) (std : McpGuard.StandardLibrary α) (data : Bytes)

/-- The fields that a file records: it is an object of the version, with an algorithm and three
texts of octets.
-/
def Records (fields : Int × Bytes × Bytes × Bytes) : Prop :=
  ∃ obj, PyStr.decode data >>= std.loads = .ok (.dict obj)
    ∧ (obj.lookup versionKey).any equalsOne = true ∧ receiptFields std obj = .ok fields

/-- Where the file verifies, it records the body of a well-formed receipt. -/
def VerifiesReceipt : Prop :=
  verifyReceiptBytes lib std data = .ok true
    → ∃ alg pubkey body sig, Records std data (alg, pubkey, body, sig)
      ∧ ∃ r : EffectReceipt, WellFormed r ∧ r.bytes = .ok body

/-- No signature that the file records verifies over a body outside the grammar. -/
def SignsGrammar : Prop :=
  ∀ alg pubkey body sig, Records std data (alg, pubkey, body, sig)
    → coseVerify1Raw lib alg pubkey body sig = .ok true → ReceiptBody body

variable {lib std data}

/-- A file verifies exactly when it records an alg, a key, a body and a signature, and the
signature verifies over the body.
Witness: each step of the reading either yields the next part or makes the outcome false.
-/
theorem verifyReceiptBytes_eq_true : verifyReceiptBytes lib std data = .ok true
    ↔ ∃ alg pubkey body sig, Records std data (alg, pubkey, body, sig)
      ∧ coseVerify1Raw lib alg pubkey body sig = .ok true := by
  have handled : ∀ {caught : Prop} [Decidable caught] {err : Exc},
      (if caught then return false else throw err : Py Bool) ≠ .ok true := by
    intro caught _ err same
    split at same <;> cases same
  unfold verifyReceiptBytes Records
  cases PyStr.decode data >>= std.loads with
  | error err => cases err <;> simp [pure_eq_ok]
  | ok value =>
      cases value with
      | dict obj =>
          simp only [Except.ok.injEq, Json.dict.injEq, exists_eq_left']
          cases versioned : (obj.lookup versionKey).any equalsOne with
          | false => simp [pure_eq_ok]
          | true =>
              cases read : receiptFields std obj with
              | error err => simpa using handled
              | ok fields =>
                  obtain ⟨alg, pubkey, body, sig⟩ := fields
                  cases signed : coseVerify1Raw lib alg pubkey body sig with
                  | error err =>
                      refine iff_of_false (by simpa [signed] using handled) ?_
                      rintro ⟨_, _, _, _, ⟨-, same⟩, verified⟩
                      cases same
                      cases signed.symm.trans verified
                  | ok verdict =>
                      simp only [signed]
                      constructor
                      · rintro verified
                        exact ⟨alg, pubkey, body, sig, ⟨trivial, rfl⟩, signed.trans verified⟩
                      · rintro ⟨_, _, _, _, ⟨-, same⟩, verified⟩
                        cases same
                        exact signed.symm.trans verified
      | _ => simp [pure_eq_ok]

theorem Records.unique {fields fields' : Int × Bytes × Bytes × Bytes}
    (records : Records std data fields) (again : Records std data fields') : fields = fields' := by
  obtain ⟨obj, parsed, -, read⟩ := records
  obtain ⟨obj', parsed', -, read'⟩ := again
  obtain rfl := Json.dict.inj (Except.ok.inj (parsed.symm.trans parsed'))
  exact Except.ok.inj (read.symm.trans read')

/-- A file that verifies records a receipt exactly when it signs nothing outside the grammar. -/
theorem verifiesReceipt_iff : VerifiesReceipt lib std data ↔ SignsGrammar lib std data := by
  constructor
  · intro verifies alg pubkey body sig records signed
    obtain ⟨_, _, body', _, again, receipt⟩ :=
      verifies (verifyReceiptBytes_eq_true.mpr ⟨alg, pubkey, body, sig, records, signed⟩)
    have same := records.unique again
    simp only [Prod.mk.injEq] at same
    obtain ⟨-, -, rfl, -⟩ := same
    exact receiptBody_iff.mpr receipt
  · intro grammar verified
    obtain ⟨alg, pubkey, body, sig, records, signed⟩ := verifyReceiptBytes_eq_true.mp verified
    exact ⟨alg, pubkey, body, sig, records,
      receiptBody_iff.mp (grammar alg pubkey body sig records signed)⟩

end Verifying

-----------------------------------------------------------------------------------------
-- Files that are written
-----------------------------------------------------------------------------------------

section Files

variable {α : Type} (std : McpGuard.StandardLibrary α)

theorem hexValue_hexDigit {n : Nat} (small : n < 16)
    : hexValue (.scalar (hexDigit n)) = some n := by
  revert n
  decide

theorem isBlank_hexDigit {n : Nat} (small : n < 16) : isBlank (.scalar (hexDigit n)) = false := by
  revert n
  decide

theorem fromHex_pair {high low : PyChar} {h l : Nat} {rest : PyStr} (digit : isBlank high = false)
    (upper : hexValue high = some h) (lower : hexValue low = some l)
    : fromHex (high :: low :: rest) = (fromHex rest).map (UInt8.ofNat (16 * h + l) :: ·) := by
  rw [fromHex.eq_def]
  simp only [digit, upper, lower, Bool.false_eq_true, if_false]
  cases fromHex rest <;> rfl

/-- The digits of octets are read back as the octets. -/
theorem fromHex_hex (octets : Bytes) : fromHex (.lit (hex octets)) = .ok octets := by
  induction octets with
  | nil => rfl
  | cons octet rest ih =>
      have high : octet.toNat / 16 < 16 := by
        have := octet.toNat_lt
        omega
      have low : octet.toNat % 16 < 16 := Nat.mod_lt _ (by decide)
      have digits : PyStr.lit (hex (octet :: rest))
          = .scalar (hexDigit (octet.toNat / 16)) :: .scalar (hexDigit (octet.toNat % 16))
            :: PyStr.lit (hex rest) := rfl
      have joined : UInt8.ofNat (16 * (octet.toNat / 16) + octet.toNat % 16) = octet := by
        rw [Nat.div_add_mod, UInt8.ofNat_toNat]
      rw [digits, fromHex_pair (isBlank_hexDigit high) (hexValue_hexDigit high)
        (hexValue_hexDigit low), ih, joined]
      rfl

/-- An integer, or a text of characters. -/
def Plain : Json → Prop
  | .int _ => True
  | .str text => ∃ chars, text = PyStr.lit chars
  | _ => False

/-- What is known of the JSON functions: an object of plain values that is written, with a line end
after it, is read back as an object with the same fields.
-/
def ReadsFiles (dumpsIndented : Json → Py PyStr) : Prop :=
  ∀ entries text, (entries.map Prod.fst).Nodup
    → (∀ entry ∈ entries, (∃ chars, entry.1 = PyStr.lit chars) ∧ Plain entry.2)
    → dumpsIndented (.dict entries) = .ok text
    → ∃ read, std.loads (text ++ PyStr.lit ['\n']) = .ok (.dict read)
      ∧ ∀ key, read.lookup key = entries.lookup key

/-- What is written of a receipt with that body. -/
def fileEntries (alg : Int) (pubkey body sig : Bytes) : List (PyStr × Json) :=
  [(versionKey, .int 1), (algKey, .int alg), (pubkeyKey, hexText pubkey), (bodyKey, hexText body),
    (sigKey, hexText sig)]

theorem fileEntries_plain {alg : Int} {pubkey body sig : Bytes}
    : ∀ entry ∈ fileEntries alg pubkey body sig,
      (∃ chars, entry.1 = PyStr.lit chars) ∧ Plain entry.2 := by
  intro entry member
  simp only [fileEntries, List.mem_cons, List.not_mem_nil, or_false] at member
  rcases member with rfl | rfl | rfl | rfl | rfl
  · exact ⟨⟨_, rfl⟩, trivial⟩
  · exact ⟨⟨_, rfl⟩, trivial⟩
  all_goals exact ⟨⟨_, rfl⟩, _, rfl⟩

variable {std} {dumpsIndented : Json → Py PyStr}

theorem receiptFileBytes_eq_ok {r : EffectReceipt} {alg : Int} {pubkey body sig data : Bytes}
    (encoded : r.bytes = .ok body)
    : receiptFileBytes dumpsIndented r alg pubkey sig = .ok data
      ↔ ∃ text, dumpsIndented (.dict (fileEntries alg pubkey body sig)) = .ok text
        ∧ (text ++ PyStr.lit ['\n']).encode = .ok data := by
  have file : receiptFileDict r alg pubkey sig = .ok (.dict (fileEntries alg pubkey body sig)) := by
    rw [receiptFileDict, encoded]
    rfl
  rw [receiptFileBytes, file, ok_bind, bind_eq_ok]

/-- An object with the fields of a file is read as what the file was written from. -/
theorem receiptFields_of_lookup {read : List (PyStr × Json)} {alg : Int} {pubkey body sig : Bytes}
    (same : ∀ key, read.lookup key = (fileEntries alg pubkey body sig).lookup key)
    : receiptFields std read = .ok (alg, pubkey, body, sig) := by
  have number : item read algKey = .ok (.int alg) := by
    rw [item, same]
    rfl
  have octets : ∀ {key : PyStr} {value : Bytes},
      (fileEntries alg pubkey body sig).lookup key = some (hexText value)
      → hexItem read key = .ok value := by
    intro key value named
    rw [hexItem, item, same, named]
    exact fromHex_hex value
  rw [receiptFields, number, octets rfl, octets rfl, octets rfl]
  rfl

/-- The file of a receipt records what it was written from. -/
theorem records_of_written (reads : ReadsFiles std dumpsIndented) {r : EffectReceipt} {alg : Int}
    {pubkey body sig data : Bytes} (encoded : r.bytes = .ok body)
    (written : receiptFileBytes dumpsIndented r alg pubkey sig = .ok data)
    : Records std data (alg, pubkey, body, sig) := by
  have distinct : [versionKey, algKey, pubkeyKey, bodyKey, sigKey].Nodup := by decide
  obtain ⟨text, dumped, octets⟩ := (receiptFileBytes_eq_ok encoded).mp written
  obtain ⟨read, loaded, same⟩ :=
    reads (fileEntries alg pubkey body sig) text distinct fileEntries_plain dumped
  refine ⟨read, ?_, ?_, receiptFields_of_lookup same⟩
  · rw [PyStr.decode_of_encode octets]
    exact loaded
  · rw [same]
    rfl

/-- Where the JSON functions read back what they write: a file that verifies records the body of a
well-formed receipt exactly when no signature that it records verifies over octets outside the
grammar; the octets of an approval or a refusal record are outside it, and a file of them verifies
with their signature; and the file written for a well-formed receipt verifies with a valid
signature.
-/
theorem receipt_files_verify (lib : SignatureLibrary) (std : McpGuard.StandardLibrary α)
    (dumpsIndented : Json → Py PyStr) (reads : ReadsFiles std dumpsIndented)
    : (∀ data, VerifiesReceipt lib std data ↔ SignsGrammar lib std data)
      ∧ (∀ data alg pubkey body sig, Records std data (alg, pubkey, body, sig)
        → (∃ a : ApprovalRecord, a.bytes = .ok body)
          ∨ (∃ rec : RefusalDecisionRecord, rec.bytes = .ok body)
        → coseVerify1Raw lib alg pubkey body sig = .ok true
        → verifyReceiptBytes lib std data = .ok true ∧ ¬ VerifiesReceipt lib std data)
      ∧ ∀ (r : EffectReceipt) alg pubkey body sig data, r.bytes = .ok body
        → coseVerify1Raw lib alg pubkey body sig = .ok true
        → receiptFileBytes dumpsIndented r alg pubkey sig = .ok data
        → verifyReceiptBytes lib std data = .ok true := by
  refine ⟨fun data => verifiesReceipt_iff, ?_, ?_⟩
  · intro data alg pubkey body sig records other signed
    have outside : ¬ ReceiptBody body := by
      rcases other with ⟨a, encoded⟩ | ⟨rec, encoded⟩
      · exact not_receiptBody_of_approval encoded
      · exact not_receiptBody_of_refusal encoded
    refine ⟨verifyReceiptBytes_eq_true.mpr ⟨alg, pubkey, body, sig, records, signed⟩, ?_⟩
    rw [verifiesReceipt_iff]
    exact fun grammar => outside (grammar alg pubkey body sig records signed)
  · intro r alg pubkey body sig data encoded signed written
    exact verifyReceiptBytes_eq_true.mpr
      ⟨alg, pubkey, body, sig, records_of_written reads encoded written, signed⟩

end Files

-----------------------------------------------------------------------------------------
-- Sample files
-----------------------------------------------------------------------------------------

/-- What the indented writer makes of a file, with its keys in order. -/
def fileText (pubkey body sig : Bytes) : List Char :=
  "\x7b\n  \"alg\": -49,\n  \"body\": \"".toList ++ hex body
    ++ "\",\n  \"naalp_mcp_guard_receipt\": 1,\n  \"pubkey\": \"".toList ++ hex pubkey
    ++ "\",\n  \"sig\": \"".toList ++ hex sig ++ "\"\n\x7d".toList

/-- The octets of the file, with a line end after the text. -/
def fileOctets (pubkey body sig : Bytes) : Bytes :=
  (fileText pubkey body sig ++ ['\n']).flatMap String.utf8EncodeChar

/-- What the parser makes of that text. -/
def fileRead (pubkey body sig : Bytes) : List (PyStr × Json) :=
  [(algKey, .int algMldsa65), (bodyKey, hexText body), (versionKey, .int 1),
    (pubkeyKey, hexText pubkey), (sigKey, hexText sig)]

/-- Functions that read and write that file. -/
def fileStd (pubkey body sig : Bytes) : McpGuard.StandardLibrary Unit :=
  { sampleStd with
    loads := fun text =>
      if text = PyStr.lit (fileText pubkey body sig ++ ['\n'])
        then .ok (.dict (fileRead pubkey body sig))
      else throw (.jsonDecodeError "Expecting value: line 1 column 1 (char 0)") }

def fileDumps (pubkey body sig : Bytes) : Json → Py PyStr
  | .dict [(versionName, .int version), (algName, .int alg), (pubkeyName, .str pubkeyText),
      (bodyName, .str bodyText), (sigName, .str sigText)] =>
      if [versionName, algName, pubkeyName, bodyName, sigName]
            = [versionKey, algKey, pubkeyKey, bodyKey, sigKey]
          ∧ [version, alg] = [1, algMldsa65]
          ∧ [pubkeyText, bodyText, sigText]
            = [PyStr.lit (hex pubkey), PyStr.lit (hex body), PyStr.lit (hex sig)]
        then .ok (PyStr.lit (fileText pubkey body sig))
      else throw .recursionError
  | _ => throw .recursionError

/-- The sample parser reads the text of the file, with its line end. -/
theorem fileStd_loads (pubkey body sig : Bytes)
    : (fileStd pubkey body sig).loads (PyStr.lit (fileText pubkey body sig ++ ['\n']))
      = .ok (.dict (fileRead pubkey body sig)) := by
  simp only [fileStd, if_true]

theorem lookup_fileRead (pubkey body sig : Bytes) (key : PyStr)
    : (fileRead pubkey body sig).lookup key
      = (fileEntries algMldsa65 pubkey body sig).lookup key := by
  by_cases known : key ∈ [versionKey, algKey, pubkeyKey, bodyKey, sigKey]
  · simp only [List.mem_cons, List.not_mem_nil, or_false] at known
    rcases known with rfl | rfl | rfl | rfl | rfl <;> rfl
  · simp only [List.mem_cons, List.not_mem_nil, or_false, not_or] at known
    obtain ⟨version, alg, pub, body, sig⟩ := known
    simp [fileRead, fileEntries, List.lookup_cons, List.lookup_nil, beq_false_of_ne, version, alg,
      pub, body, sig]

/-- The sample JSON functions read a written file back with the same entries. -/
theorem fileStd_reads (pubkey body sig : Bytes)
    : ReadsFiles (fileStd pubkey body sig) (fileDumps pubkey body sig) := by
  intro entries text distinct plain dumped
  unfold fileDumps at dumped
  split at dumped
  · rename_i same
    cases same
    split at dumped
    · rename_i named
      simp only [List.cons.injEq, and_true] at named
      obtain ⟨⟨rfl, rfl, rfl, rfl, rfl⟩, ⟨rfl, rfl⟩, rfl, rfl, rfl⟩ := named
      obtain rfl := Except.ok.inj dumped
      have text : PyStr.lit (fileText pubkey body sig) ++ PyStr.lit ['\n']
          = PyStr.lit (fileText pubkey body sig ++ ['\n']) :=
        List.map_append.symm
      refine ⟨fileRead pubkey body sig, ?_, lookup_fileRead pubkey body sig⟩
      rw [text]
      exact fileStd_loads pubkey body sig
    · cases dumped
  · cases dumped

theorem written_fileOctets {r : EffectReceipt} {pubkey body sig : Bytes}
    (encoded : r.bytes = .ok body)
    : receiptFileBytes (fileDumps pubkey body sig) r algMldsa65 pubkey sig
      = .ok (fileOctets pubkey body sig) := by
  refine (receiptFileBytes_eq_ok encoded).mpr ⟨PyStr.lit (fileText pubkey body sig), ?_, ?_⟩
  · exact if_pos ⟨rfl, rfl, rfl⟩
  · exact PyStr.encode_eq_ok.mpr ⟨_, List.map_append.symm, rfl⟩

/-- A file of that text records what the text does. -/
theorem records_fileOctets (pubkey body sig : Bytes)
    : Records (fileStd pubkey body sig) (fileOctets pubkey body sig)
      (algMldsa65, pubkey, body, sig) := by
  have written : (PyStr.lit (fileText pubkey body sig ++ ['\n'])).encode
      = .ok (fileOctets pubkey body sig) :=
    PyStr.encode_eq_ok.mpr ⟨_, rfl, rfl⟩
  refine ⟨fileRead pubkey body sig, ?_, rfl,
    receiptFields_of_lookup (lookup_fileRead pubkey body sig)⟩
  rw [PyStr.decode_of_encode written, ok_bind]
  exact fileStd_loads pubkey body sig

def executedReceipt : EffectReceipt where
  toolId := []
  argsId := []
  callId := []
  effect := 0
  decision := decisionExecuted
  reason := []
  resultHash := []
  principal := []
  toolName := []
  guardIdentity := []
  createdMs := 1

def executedBody : Bytes := encoding (.m (numbered 1 (receiptTerms executedReceipt)))

/-- The octets of the sample receipt. -/
theorem bytes_executedReceipt : executedReceipt.bytes = .ok executedBody := by
  have fits : ∀ v ∈ receiptTerms executedReceipt, Encodable v := by
    have empty : Encodable (.t []) := rfl
    have executed : Encodable (.t decisionExecuted) := rfl
    simp only [receiptTerms, executedReceipt, List.forall_mem_cons, encodable_u, encodable_b]
    exact ⟨by
      decide, by decide, by decide, by decide, executed, empty, by decide, empty, empty, empty,
      by decide, nofun⟩
  exact bytes_eq_ok.mpr ⟨⟨.inl rfl, by decide, by decide⟩,
    (encodable_numbered (by simp [receiptTerms])).mpr fits⟩

/-- The file of a receipt verifies. -/
theorem receipt_files_verify_executed
    : let sig := digestSignature executedBody
      verifyReceiptBytes digestLibrary (fileStd objectKey.pubKey executedBody sig)
        (fileOctets objectKey.pubKey executedBody sig) = .ok true := by
  intro sig
  refine (receipt_files_verify digestLibrary _ _
    (fileStd_reads objectKey.pubKey executedBody sig)).2.2
    executedReceipt algMldsa65 objectKey.pubKey executedBody sig _ bytes_executedReceipt
    (digestSignature_verifies _) (written_fileOctets bytes_executedReceipt)

/-- So does a file of an approval's octets and their signature, which no receipt has. -/
theorem approval_verifies_as_receipt
    : let body := approvalBody []
      let sig := digestSignature body
      let data := fileOctets objectKey.pubKey body sig
      (sampleApproval []).bytes = .ok body
        ∧ verifyReceiptBytes digestLibrary (fileStd objectKey.pubKey body sig) data = .ok true
        ∧ Records (fileStd objectKey.pubKey body sig) data (algMldsa65, objectKey.pubKey, body, sig)
        ∧ ¬ ∃ r : EffectReceipt, r.bytes = .ok body := by
  intro body sig data
  have encoded : (sampleApproval []).bytes = .ok body := bytes_sampleApproval (by decide)
  have records := records_fileOctets objectKey.pubKey body sig
  refine ⟨encoded, verifyReceiptBytes_eq_true.mpr ⟨_, _, _, _, records, digestSignature_verifies _⟩,
    records, ?_⟩
  rintro ⟨r, written⟩
  exact not_receiptBody_of_approval encoded
    (receiptBody_iff.mpr ⟨r, (bytes_eq_ok.mp written).1, written⟩)

end Naalp.Authorization
