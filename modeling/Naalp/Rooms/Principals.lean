import Naalp.CanonicalEncoding.Decoding
import Naalp.Foundation.HashChain
import Naalp.Python.Rooms
import Naalp.Signatures.RawRecords

/-! The principal registry: every handle of a principal was reached from the one before by a
rotation that both keys signed.
-/

namespace Naalp.Rooms

open Naalp.Foundation
open Naalp.Python
open Naalp.Python.Audit
open Naalp.Python.Cbor
open Naalp.Python.Cose
open Naalp.Python.Rooms

-----------------------------------------------------------------------------------------
-- What a call does
-----------------------------------------------------------------------------------------

inductive RegistryCall where
  | bind (principal handle : PyStr)
  | rebind (principal newHandle : PyStr) (r : Rotation)

def RegistryCall.principal : RegistryCall → PyStr
  | .bind principal _ => principal
  | .rebind principal _ _ => principal

section Calls

variable (nfc : PyStr → PyStr) (lib : SignatureLibrary)

def RegistryCall.method : RegistryCall → EStateM Exc PrincipalRegistry Binding
  | .bind principal handle => PrincipalRegistry.bind nfc principal handle
  | .rebind principal newHandle r => PrincipalRegistry.rebind nfc lib principal newHandle r

/-- The call passes its checks and appends the binding to the earlier ones of its principal. -/
inductive Makes (reg : PrincipalRegistry) : RegistryCall → List Binding → Binding → Prop where
  | bind {principal handle} (passed : reg.checkBind nfc principal handle = .ok ())
    : Makes reg (.bind principal handle) []
        { principal, handle, epoch := 0, prev := genesisHead }
  | rebind {principal newHandle r epoch prev earlier}
    (passed : reg.checkRebind nfc lib principal newHandle r = .ok ())
    (atEpoch : reg.epoch.lookup principal = some epoch)
    (atHead : reg.head.lookup principal = some prev)
    (chained : reg.chain.lookup principal = some earlier)
    : Makes reg (.rebind principal newHandle r) earlier
        { principal, handle := newHandle, epoch := epoch + 1, prev }

/-- The registry after a binding was added to the four dictionaries. -/
def assign (reg : PrincipalRegistry) (earlier : List Binding) (b : Binding) (head : Bytes)
    : PrincipalRegistry where
  chain := reg.chain.insert b.principal (earlier ++ [b])
  head := reg.head.insert b.principal head
  current := reg.current.insert b.principal b.handle
  epoch := reg.epoch.insert b.principal b.epoch

/-- What a call can do: it is refused before anything changes, or the binding that it makes is
appended to the chain and has no head, or else is assigned everywhere.
-/
inductive Answered (reg : PrincipalRegistry) (call : RegistryCall)
    : Py Binding → PrincipalRegistry → Prop where
  | refused (err : Exc) : Answered reg call (.error err) reg
  | headless {earlier b err} (makes : Makes nfc lib reg call earlier b)
      (failed : b.head = .error err)
    : Answered reg call (.error err)
        { reg with chain := reg.chain.insert b.principal (earlier ++ [b]) }
  | assigned {earlier b head} (makes : Makes nfc lib reg call earlier b)
      (hashed : b.head = .ok head)
    : Answered reg call (.ok b) (assign reg earlier b head)

variable {nfc lib} {reg after : PrincipalRegistry} {call : RegistryCall} {b : Binding}

/-- What both methods do after their checks. -/
def writeBinding (earlier : List Binding) (b : Binding)
    : EStateM Exc PrincipalRegistry Binding := do
  modify fun reg => { reg with chain := reg.chain.insert b.principal (earlier ++ [b]) }
  let head ← check b.head
  modify fun reg => { reg with head := reg.head.insert b.principal head }
  modify fun reg => { reg with current := reg.current.insert b.principal b.handle }
  modify fun reg => { reg with epoch := reg.epoch.insert b.principal b.epoch }
  return b

/-- A binding whose head can be computed is added. -/
theorem writeBinding_of_head {earlier : List Binding} {head : Bytes} (hashed : b.head = .ok head)
    : writeBinding earlier b reg = .ok b (assign reg earlier b head) := by
  rw [writeBinding, modify_bind, check_bind_of_ok hashed]
  rfl

/-- What writing a binding answers: the binding is added when its head can be computed. -/
theorem answered_writeBinding {earlier : List Binding} (makes : Makes nfc lib reg call earlier b)
    : Answered nfc lib reg call (settle (writeBinding earlier b reg)).1
        (settle (writeBinding earlier b reg)).2 := by
  cases hashed : b.head with
  | error err =>
      have raised : writeBinding earlier b reg = .error err
          { reg with chain := reg.chain.insert b.principal (earlier ++ [b]) } := by
        rw [writeBinding, modify_bind, check_bind_of_error hashed]
      rw [raised]
      exact .headless makes hashed
  | ok head =>
      rw [writeBinding_of_head hashed]
      exact .assigned makes hashed

theorem entry_eq_ok {β : Type} {d : AList fun _ : PyStr => β} {principal : PyStr} {value : β}
    : entry d principal = .ok value ↔ d.lookup principal = some value := by
  unfold entry
  split <;> simp_all

/-- A call that makes a binding with a head assigns it. -/
theorem respond_of_makes {earlier : List Binding} {head : Bytes}
    (makes : Makes nfc lib reg call earlier b) (hashed : b.head = .ok head)
    : respond (RegistryCall.method nfc lib) reg call = (.ok b, assign reg earlier b head) := by
  have written := congrArg settle (@writeBinding_of_head reg b earlier head hashed)
  cases makes with
  | bind passed =>
      rw [respond, RegistryCall.method, PrincipalRegistry.bind, get_bind, passed]
      exact written
  | rebind passed atEpoch atHead chained =>
      rw [respond, RegistryCall.method, PrincipalRegistry.rebind, get_bind, passed,
        bind_of_ok (check_eq_ok.mpr ⟨rfl, rfl⟩), entry_eq_ok.mpr atEpoch,
        bind_of_ok (check_eq_ok.mpr ⟨rfl, rfl⟩), entry_eq_ok.mpr atHead,
        bind_of_ok (check_eq_ok.mpr ⟨rfl, rfl⟩), entry_eq_ok.mpr chained]
      exact written

/-- A call does one of three things. -/
theorem answered (reg : PrincipalRegistry) (call : RegistryCall)
    : Answered nfc lib reg call (respond (RegistryCall.method nfc lib) reg call).1
        (respond (RegistryCall.method nfc lib) reg call).2 := by
  cases call with
  | bind principal handle =>
      rw [respond, RegistryCall.method, PrincipalRegistry.bind, get_bind]
      cases checked : reg.checkBind nfc principal handle with
      | error err => exact .refused err
      | ok done => exact answered_writeBinding (.bind checked)
  | rebind principal newHandle r =>
      rw [respond, RegistryCall.method, PrincipalRegistry.rebind, get_bind]
      cases checked : reg.checkRebind nfc lib principal newHandle r with
      | error err => exact .refused err
      | ok done =>
          rw [bind_of_ok (check_eq_ok.mpr ⟨rfl, rfl⟩)]
          cases atEpoch : entry reg.epoch principal with
          | error err => exact .refused err
          | ok epoch =>
              rw [bind_of_ok (check_eq_ok.mpr ⟨rfl, rfl⟩)]
              cases atHead : entry reg.head principal with
              | error err => exact .refused err
              | ok prev =>
                  rw [bind_of_ok (check_eq_ok.mpr ⟨rfl, rfl⟩)]
                  cases chained : entry reg.chain principal with
                  | error err => exact .refused err
                  | ok earlier =>
                      exact answered_writeBinding (.rebind checked (entry_eq_ok.mp atEpoch)
                        (entry_eq_ok.mp atHead) (entry_eq_ok.mp chained))

-----------------------------------------------------------------------------------------
-- What the checks establish
-----------------------------------------------------------------------------------------

/-- The rotation names exactly the two handles, its keys derive them, and both sign it. -/
structure Rotates (lib : SignatureLibrary) (r : Rotation) (old new : PyStr) : Prop where
  names : r.rot.old = old ∧ r.rot.new = new
  oldKey : Identity.signerId r.oldAlg r.oldPub = .ok old
  newKey : Identity.signerId r.newAlg r.newPub = .ok new
  signed : ∃ m, r.rot.bytes = .ok m ∧ coseVerify1Raw lib r.oldAlg r.oldPub m r.oldSig = .ok true
    ∧ coseVerify1Raw lib r.newAlg r.newPub m r.newSig = .ok true

/-- A rotation that passes its check rotates the current id to the new one. -/
theorem rotates_of_checkRotation {cur new : PyStr} {r : Rotation}
    (checked : checkRotation lib cur new r = .ok ())
    : Rotates lib r cur new := by
  rw [checkRotation, raiseIf_bind_eq_ok, not_or, not_not, not_not] at checked
  obtain ⟨⟨rfl, rfl⟩, verified⟩ := checked
  split at verified
  · cases verified
  · obtain ⟨_, ids, -⟩ := bind_eq_ok.mp verified
    obtain ⟨oldKey, newKey⟩ := Signatures.checkRotationIds_eq_ok.mp ids
    exact ⟨⟨rfl, rfl⟩, oldKey, newKey, Signatures.verifyRotation_signed verified⟩

theorem rotates_of_checkRebind {principal new : PyStr} {r : Rotation}
    (checked : reg.checkRebind nfc lib principal new r = .ok ())
    : ∃ cur, reg.current.lookup principal = some cur ∧ Rotates lib r cur new := by
  simp only [PrincipalRegistry.checkRebind, bind_eq_ok, raiseIf_eq_ok, exists_const] at checked
  obtain ⟨cur, resolved, -, _, -, checked⟩ := checked
  refine ⟨cur, ?_, rotates_of_checkRotation checked⟩
  unfold PrincipalRegistry.resolve at resolved
  split at resolved <;> simp_all

-----------------------------------------------------------------------------------------
-- What a run keeps
-----------------------------------------------------------------------------------------

def bindingChain : ChainHash Binding Bytes Bytes Exc where
  encode := Binding.bytes
  hash := Sha2.sha384
  prev := Binding.prev
  position := Binding.epoch

/-- The chain of a principal: its bindings count up from epoch zero and link from the genesis head,
and each handle was reached from the one before by a rotation that one of the calls presented.
-/
structure ProvenChain (lib : SignatureLibrary) (calls : List RegistryCall) (principal : PyStr)
    (bindings : List Binding) (head : Bytes) : Prop where
  linked : bindingChain.Linked 0 genesisHead bindings head
  named : ∀ b ∈ bindings, b.principal = principal
  rotated : bindings.IsChain fun a b =>
    ∃ r, .rebind principal b.handle r ∈ calls ∧ Rotates lib r a.handle b.handle

/-- What the four dictionaries hold for a bound principal. -/
structure BoundTo (lib : SignatureLibrary) (calls : List RegistryCall) (reg : PrincipalRegistry)
    (principal : PyStr) (earlier : List Binding) (last : Binding) (head : Bytes) : Prop where
  chained : reg.chain.lookup principal = some (earlier ++ [last])
  atHead : reg.head.lookup principal = some head
  bound : reg.current.lookup principal = some last.handle
  atEpoch : reg.epoch.lookup principal = some last.epoch
  proven : ProvenChain lib calls principal (earlier ++ [last]) head

def Kept (lib : SignatureLibrary) (calls : List RegistryCall) (reg : PrincipalRegistry) : Prop :=
  ∀ principal ∈ reg.current, ∃ earlier last head, BoundTo lib calls reg principal earlier last head

/-- The condition on a call in a registry: a binding of a new principal is of text that can be
encoded, and an epoch to come is still a `uint`.
-/
def Writes (nfc : PyStr → PyStr) (lib : SignatureLibrary) (reg : PrincipalRegistry)
    : RegistryCall → Prop
  | .bind principal handle => reg.checkBind nfc principal handle = .ok ()
      → Encodable (.t principal) ∧ Encodable (.t handle)
  | .rebind principal newHandle r => reg.checkRebind nfc lib principal newHandle r = .ok ()
      → ∀ epoch, reg.epoch.lookup principal = some epoch → epoch + 1 < 2 ^ 64

variable {calls more : List RegistryCall} {principal : PyStr} {bindings earlier : List Binding}
  {last : Binding} {head : Bytes}

theorem ProvenChain.mono (proven : ProvenChain lib calls principal bindings head)
    (call : RegistryCall) : ProvenChain lib (calls ++ [call]) principal bindings head := by
  refine ⟨proven.linked, proven.named, proven.rotated.imp ?_⟩
  intro a b rotated
  obtain ⟨r, presented, rotates⟩ := rotated
  exact ⟨r, List.mem_append_left _ presented, rotates⟩

/-- A binding has octets exactly when its fields can be encoded. -/
theorem binding_encodable
    : (∃ body, b.bytes = .ok body)
      ↔ Encodable (.t b.principal) ∧ Encodable (.t b.handle) ∧ Encodable (.u b.epoch)
        ∧ Encodable (.b b.prev) := by
  have members : Encodable (.m (numbered 1 [.t b.principal, .t b.handle, .u b.epoch, .b b.prev]))
      ↔ _ := encodable_numbered (by simp)
  have whole : (∃ body, b.bytes = .ok body) ↔ _ := encodable_iff.symm.trans members
  rw [whole]
  constructor
  · intro each
    exact ⟨each _ (by simp), each _ (by simp), each _ (by simp), each _ (by simp)⟩
  · intro each
    obtain ⟨principal, handle, epoch, prev⟩ := each
    intro v member
    simp only [List.mem_cons, List.not_mem_nil, or_false] at member
    rcases member with rfl | rfl | rfl | rfl
    · exact principal
    · exact handle
    · exact epoch
    · exact prev

theorem rotation_encodable {rot : Identity.RotationRecord} {m : Bytes} (written : rot.bytes = .ok m)
    : ∀ v ∈ [.t rot.old, .t rot.new, .u rot.notBefore], Cbor.Encodable v := by
  have members : Encodable (.m (numbered 1 [.t rot.old, .t rot.new, .u rot.notBefore])) ↔ _ :=
    encodable_numbered (by simp)
  exact members.mp (encode_eq_ok.mp written).1

/-- Under the condition, whatever binding a call makes can be encoded.
Witness: a first binding has the strings that are presented; a later one has the principal of
the binding before it.
-/
theorem encoded_of_makes (kept : Kept lib calls reg) (writes : Writes nfc lib reg call)
    (makes : Makes nfc lib reg call earlier b)
    : ∃ body, b.bytes = .ok body := by
  refine binding_encodable.mpr ?_
  cases makes with
  | bind passed =>
      obtain ⟨principal, handle⟩ := writes passed
      refine ⟨principal, handle, encodable_u.mpr (by simp), encodable_b.mpr ?_⟩
      simp [genesisHead, headSize]
  | @rebind principal newHandle r epoch prev _ passed atEpoch atHead chained =>
      obtain ⟨cur, bound, rotates⟩ := rotates_of_checkRebind passed
      obtain ⟨before, last, head, boundTo⟩ :=
        kept principal (AList.lookup_isSome.mp (Option.isSome_of_eq_some bound))
      obtain ⟨body, -, position, encoded, same⟩ := boundTo.proven.linked.exists_snoc
      have named : last.principal = principal := boundTo.proven.named last (by simp)
      have named' : Encodable (.t principal) := named ▸ (binding_encodable.mp ⟨body, encoded⟩).1
      obtain rfl : last.epoch = epoch := Option.some.inj (boundTo.atEpoch.symm.trans atEpoch)
      obtain rfl : head = prev := Option.some.inj (boundTo.atHead.symm.trans atHead)
      obtain ⟨m, written, -⟩ := rotates.signed
      have new : Encodable (.t newHandle) := by
        rw [← rotates.names.2]
        exact rotation_encodable written (.t r.rot.new) (by simp)
      refine ⟨named', new, encodable_u.mpr ⟨?_, writes passed _ atEpoch⟩, encodable_b.mpr ?_⟩
      · have counted : last.epoch = 0 + (before.length : Int) := position
        show 0 ≤ last.epoch + 1
        omega
      · rw [same]
        show (Sha2.sha384 body).length < 2 ^ 64
        rw [Sha2.length_sha384]
        omega

-----------------------------------------------------------------------------------------
-- One call
-----------------------------------------------------------------------------------------

theorem BoundTo.mono (boundTo : BoundTo lib calls reg principal earlier last head)
    (call : RegistryCall) : BoundTo lib (calls ++ [call]) reg principal earlier last head :=
  { boundTo with proven := boundTo.proven.mono call }

/-- A binding that was made and encoded extends the proven chain of its principal.
Witness: the rebinding is checked against the last binding, which the new one names as its
predecessor.
-/
theorem provenChain_of_makes {body : Bytes} (kept : Kept lib calls reg)
    (makes : Makes nfc lib reg call earlier b) (encoded : b.bytes = .ok body)
    : ProvenChain lib (calls ++ [call]) b.principal (earlier ++ [b]) (Sha2.sha384 body) := by
  cases makes with
  | bind passed =>
      refine ⟨.cons rfl rfl encoded (.nil _ _), by simp, ?_⟩
      exact List.isChain_singleton _
  | @rebind principal newHandle r epoch prev _ passed atEpoch atHead chained =>
      obtain ⟨cur, bound, rotates⟩ := rotates_of_checkRebind passed
      obtain ⟨before, last, head, boundTo⟩ :=
        kept principal (AList.lookup_isSome.mp (Option.isSome_of_eq_some bound))
      obtain rfl : before ++ [last] = earlier :=
        Option.some.inj (boundTo.chained.symm.trans chained)
      obtain rfl : last.epoch = epoch := Option.some.inj (boundTo.atEpoch.symm.trans atEpoch)
      obtain rfl : head = prev := Option.some.inj (boundTo.atHead.symm.trans atHead)
      obtain rfl : last.handle = cur := Option.some.inj (boundTo.bound.symm.trans bound)
      obtain ⟨linked, named, rotated⟩ := boundTo.proven.mono (.rebind principal newHandle r)
      obtain ⟨-, -, position, -⟩ := linked.exists_snoc
      refine ⟨linked.snoc ?_ encoded, ?_, ?_⟩
      · have counted : last.epoch = 0 + (before.length : Int) := position
        show last.epoch + 1 = 0 + ((before ++ [last]).length : Int)
        rw [counted, List.length_append, List.length_singleton]
        omega
      · rw [List.forall_mem_append, List.forall_mem_singleton]
        exact ⟨named, rfl⟩
      · refine List.isChain_append.mpr ⟨rotated, List.isChain_singleton _, ?_⟩
        intro a lastOf b' firstOf
        obtain rfl : last = a := by simpa using lastOf
        obtain rfl := Option.some.inj firstOf
        exact ⟨r, by simp, rotates⟩

/-- What a call leaves of the entries of a principal. -/
def SameAt (reg after : PrincipalRegistry) (principal : PyStr) : Prop :=
  after.chain.lookup principal = reg.chain.lookup principal
    ∧ after.head.lookup principal = reg.head.lookup principal
    ∧ after.current.lookup principal = reg.current.lookup principal
    ∧ after.epoch.lookup principal = reg.epoch.lookup principal

theorem sameAt_assign (other : principal ≠ b.principal)
    : SameAt reg (assign reg earlier b head) principal := by
  have apart : ∀ {β : Type} (d : AList fun _ : PyStr => β) (value : β),
      (d.insert b.principal value).lookup principal = d.lookup principal :=
    fun d value => AList.lookup_insert_ne other
  exact ⟨apart _ _, apart _ _, apart _ _, apart _ _⟩

theorem BoundTo.same (boundTo : BoundTo lib calls reg principal earlier last head)
    (same : SameAt reg after principal) : BoundTo lib calls after principal earlier last head := by
  obtain ⟨chain, atHead, current, epoch⟩ := same
  exact ⟨chain.trans boundTo.chained, atHead.trans boundTo.atHead, current.trans boundTo.bound,
    epoch.trans boundTo.atEpoch, boundTo.proven⟩

theorem boundTo_assign (proven : ProvenChain lib calls b.principal (earlier ++ [b]) head)
    : BoundTo lib calls (assign reg earlier b head) b.principal earlier b head := by
  have read : ∀ {β : Type} (d : AList fun _ : PyStr => β) (value : β),
      (d.insert b.principal value).lookup b.principal = some value :=
    fun d value => AList.lookup_insert d
  exact ⟨read _ _, read _ _, read _ _, read _ _, proven⟩

theorem makes_principal (makes : Makes nfc lib reg call earlier b)
    : b.principal = call.principal := by
  cases makes <;> rfl

/-- A call under the condition is refused and changes nothing, or assigns a binding. -/
theorem refused_or_assigned (kept : Kept lib calls reg) (writes : Writes nfc lib reg call)
    {outcome : Py Binding} (answered : Answered nfc lib reg call outcome after)
    : ((∃ err, outcome = .error err) ∧ after = reg)
      ∨ ∃ earlier b body, Makes nfc lib reg call earlier b ∧ b.bytes = .ok body
        ∧ outcome = .ok b ∧ after = assign reg earlier b (Sha2.sha384 body) := by
  cases answered with
  | refused err => exact .inl ⟨⟨err, rfl⟩, rfl⟩
  | @headless earlier b err makes failed =>
      obtain ⟨body, encoded⟩ := encoded_of_makes kept writes makes
      simp [Binding.head, encoded, pure, Except.pure, bind, Except.bind] at failed
  | @assigned earlier b head makes hashed =>
      obtain ⟨body, encoded⟩ := encoded_of_makes kept writes makes
      have digest : head = Sha2.sha384 body := by
        rw [Binding.head, encoded] at hashed
        exact (Except.ok.inj hashed).symm
      exact .inr ⟨earlier, b, body, makes, encoded, rfl, by rw [digest]⟩

/-- A call under the condition keeps what the registry holds. -/
theorem kept_respond (kept : Kept lib calls reg) (writes : Writes nfc lib reg call)
    : Kept lib (calls ++ [call]) (respond (RegistryCall.method nfc lib) reg call).2 := by
  intro principal bound
  rcases refused_or_assigned kept writes (answered reg call) with
    ⟨-, same⟩ | ⟨earlier, b, body, makes, encoded, -, same⟩
  · rw [same] at bound ⊢
    obtain ⟨earlier, last, head, boundTo⟩ := kept principal bound
    exact ⟨earlier, last, head, boundTo.mono call⟩
  · rw [same] at bound ⊢
    by_cases here : principal = b.principal
    · subst here
      exact ⟨earlier, b, _, boundTo_assign (provenChain_of_makes kept makes encoded)⟩
    · have before : principal ∈ reg.current :=
        ((AList.mem_insert _).mp bound).resolve_left here
      obtain ⟨earlier', last, head, boundTo⟩ := kept principal before
      exact ⟨earlier', last, head, (boundTo.mono call).same (sameAt_assign here)⟩

theorem kept_empty : Kept lib [] {} := by
  intro principal bound
  exact absurd bound (AList.notMem_empty principal)

-----------------------------------------------------------------------------------------
-- Every run
-----------------------------------------------------------------------------------------

/-- What a call must do: it touches its own principal only, binds it when it returns, and changes
nothing when it raises.
-/
structure Proper (event : Event PrincipalRegistry RegistryCall (Py Binding)) : Prop where
  others : ∀ principal, principal ≠ event.call.principal
    → SameAt event.before event.after principal
  stays : ∀ principal ∈ event.before.current, principal ∈ event.after.current
  binds : ∀ b, event.outcome = .ok b → event.call.principal ∈ event.after.current
  unchanged : ∀ err, event.outcome = .error err → event.after = event.before

/-- A call that writes keeps what is kept: it continues a thread, by the case of the call. -/
theorem proper_answer (kept : Kept lib calls reg) (writes : Writes nfc lib reg call)
    : Proper (answer (respond (RegistryCall.method nfc lib)) reg call) := by
  rcases refused_or_assigned kept writes (answered reg call) with
    ⟨⟨err, failed⟩, same⟩ | ⟨earlier, b, body, makes, encoded, made, same⟩
  · constructor
    · intro principal _
      simp only [answer, same]
      exact ⟨rfl, rfl, rfl, rfl⟩
    · intro principal bound
      simp only [answer, same]
      exact bound
    · intro b made
      cases failed.symm.trans made
    · exact fun _ _ => same
  · constructor
    · intro principal other
      simp only [answer, same]
      exact sameAt_assign (makes_principal makes ▸ other)
    · intro principal bound
      simp only [answer, same]
      exact (AList.mem_insert _).mpr (.inr bound)
    · intro _ _
      simp only [answer, same]
      exact (AList.mem_insert _).mpr (.inl (makes_principal makes).symm)
    · intro err failed
      cases made.symm.trans failed

/-- In a run whose bindings are of text that can be encoded, the registry follows proven rotations:
a bound principal resolves to the last handle of its proven chain, and every call is proper.
-/
theorem registry_follows_rotations (nfc : PyStr → PyStr) (lib : SignatureLibrary)
    (calls : List RegistryCall)
    (writes : ∀ event ∈ trace (respond (RegistryCall.method nfc lib)) {} calls,
      Writes nfc lib event.before event.call)
    : (∀ principal ∈ (finalState (respond (RegistryCall.method nfc lib)) {} calls).current,
        ∃ earlier last head,
          (finalState (respond (RegistryCall.method nfc lib)) {} calls).chain.lookup principal
            = some (earlier ++ [last])
          ∧ ProvenChain lib calls principal (earlier ++ [last]) head
          ∧ (finalState (respond (RegistryCall.method nfc lib)) {} calls).resolve principal
            = .ok last.handle)
      ∧ ∀ event ∈ trace (respond (RegistryCall.method nfc lib)) {} calls, Proper event := by
  have keeps : ∀ before reg call, Kept lib before reg → Writes nfc lib reg call
      → Kept lib (before ++ [call]) (respond (RegistryCall.method nfc lib) reg call).2 :=
    fun _ _ _ kept writes => kept_respond kept writes
  constructor
  · intro principal bound
    obtain ⟨earlier, last, head, boundTo⟩ :=
      finalState_history_of_good kept_empty keeps writes principal bound
    refine ⟨earlier, last, head, boundTo.chained, boundTo.proven, ?_⟩
    rw [PrincipalRegistry.resolve, boundTo.bound]
    rfl
  · intro event member
    obtain ⟨before, kept, same⟩ := mem_trace_history_of_good kept_empty keeps writes member
    rw [same]
    exact proper_answer kept (writes event member)

end Calls

-----------------------------------------------------------------------------------------
-- Sample runs
-----------------------------------------------------------------------------------------

/-- A principal that is bound to the old handle of a rotation and then follows it. -/
def sampleCalls (r : Identity.RotationRecord) (oldSig newSig : Bytes) : List RegistryCall :=
  [.bind (PyStr.lit ['p']) r.old,
    .rebind (PyStr.lit ['p']) r.new ⟨r, algEd25519, Signatures.sampleKey 1, algEd25519,
      Signatures.sampleKey 2, oldSig, newSig⟩]

theorem signerId_ne_nil {alg : Int} {pubkey : Bytes} {signer : PyStr}
    (derived : Identity.signerId alg pubkey = .ok signer)
    : signer ≠ [] := by
  unfold Identity.signerId at derived
  split at derived
  · rename_i mc _
    obtain rfl := Except.ok.inj derived
    obtain ⟨rest, letters⟩ := multihashId_eq (uvarint mc ++ pubkey)
    rw [letters]
    exact List.cons_ne_nil _ _
  · cases derived

theorem requireNormal_id (s : PyStr) : requireNormal id s = .ok () := by
  have normal : ¬ (id s ≠ s) := not_not.mpr rfl
  rw [requireNormal, Identity.requireNfc, raiseIf_neg normal]

/-- A binding of text has a head. -/
theorem head_of_encodable {b : Binding} (principal : Encodable (.t b.principal))
    (handle : Encodable (.t b.handle)) (epoch : 0 ≤ b.epoch ∧ b.epoch < 2 ^ 64)
    (prev : b.prev.length = headSize)
    : ∃ head, b.head = .ok head ∧ head.length = headSize := by
  obtain ⟨body, encoded⟩ := binding_encodable.mpr
    ⟨principal, handle, encodable_u.mpr epoch, encodable_b.mpr (prev.trans_lt (by decide))⟩
  exact ⟨Sha2.sha384 body, by rw [Binding.head, encoded, ok_bind, pure_eq_ok],
    Sha2.length_sha384 body⟩

/-- After a registration and a rotation the principal resolves to the new id.
Witness: the rotation is accepted, so both calls pass their checks, and each binding is assigned.
-/
theorem sampleCalls_resolve
    : ∃ r oldSig newSig, Signatures.sampleRotation = .ok (r, oldSig, newSig)
      ∧ (finalState (respond (RegistryCall.method id digestLibrary)) {}
        (sampleCalls r oldSig newSig)).resolve (PyStr.lit ['p']) = .ok r.new := by
  obtain ⟨r, oldSig, newSig, made, -, accepted⟩ := Signatures.sampleRotation_accepted
  obtain ⟨m, written, -, -⟩ := Signatures.verifyRotation_signed accepted
  obtain ⟨_, ids, -⟩ := bind_eq_ok.mp accepted
  obtain ⟨oldKey, newKey⟩ := Signatures.checkRotationIds_eq_ok.mp ids
  have named : Encodable (.t (PyStr.lit ['p'])) := rfl
  have bound : ({} : PrincipalRegistry).checkBind id (PyStr.lit ['p']) r.old = .ok () := by
    have filled : ¬ (PyStr.lit ['p'] = [] ∨ r.old = []) :=
      not_or.mpr ⟨List.cons_ne_nil _ _, signerId_ne_nil oldKey⟩
    rw [PrincipalRegistry.checkBind, raiseIf_neg filled, ok_bind, requireNormal_id, ok_bind,
      requireNormal_id, ok_bind]
    exact raiseIf_neg (AList.notMem_empty _)
  have epochs : ((0 : Int) ≤ 0 ∧ (0 : Int) < 2 ^ 64) ∧ (0 : Int) ≤ 1 ∧ (1 : Int) < 2 ^ 64 := by
    decide
  obtain ⟨head, hashed, size⟩ := @head_of_encodable ⟨PyStr.lit ['p'], r.old, 0, genesisHead⟩ named
    (rotation_encodable written (.t r.old) (by simp)) epochs.1 List.length_replicate
  have first := respond_of_makes (@Makes.bind id digestLibrary {} _ _ bound) hashed
  obtain ⟨_, hashed', -⟩ := @head_of_encodable ⟨PyStr.lit ['p'], r.new, 1, head⟩ named
    (rotation_encodable written (.t r.new) (by simp)) epochs.2 size
  have rebound : (assign {} [] ⟨PyStr.lit ['p'], r.old, 0, genesisHead⟩ head).checkRebind id
      digestLibrary (PyStr.lit ['p']) r.new ⟨r, algEd25519, Signatures.sampleKey 1, algEd25519,
        Signatures.sampleKey 2, oldSig, newSig⟩ = .ok () := by
    have current : (assign {} [] ⟨PyStr.lit ['p'], r.old, 0, genesisHead⟩ head).resolve
        (PyStr.lit ['p']) = .ok r.old := by
      rw [PrincipalRegistry.resolve, assign, AList.lookup_insert]
      rfl
    have names : ¬ (r.old ≠ r.old ∨ r.new ≠ r.new) := by simp
    rw [PrincipalRegistry.checkRebind, current, ok_bind, raiseIf_neg (signerId_ne_nil newKey),
      ok_bind, requireNormal_id, ok_bind, checkRotation, raiseIf_neg names, ok_bind, accepted]
  have second := respond_of_makes (.rebind rebound (AList.lookup_insert _) (AList.lookup_insert _)
    (AList.lookup_insert _)) hashed'
  refine ⟨r, oldSig, newSig, made, ?_⟩
  rw [sampleCalls, finalState, List.foldl_cons, first, List.foldl_cons, second, List.foldl_nil,
    PrincipalRegistry.resolve, assign, AList.lookup_insert]
  rfl

/-- The bindings of the sample run have octets. -/
theorem sampleCalls_writes {r : Identity.RotationRecord} {oldSig newSig m : Bytes}
    (written : r.bytes = .ok m)
    : ∀ event ∈ trace (respond (RegistryCall.method id digestLibrary)) {}
        (sampleCalls r oldSig newSig),
      Writes id digestLibrary event.before event.call := by
  have binds : Writes id digestLibrary {} (.bind (PyStr.lit ['p']) r.old) := by
    intro _
    exact ⟨rfl, rotation_encodable written (.t r.old) (by simp)⟩
  refine List.forall_mem_cons.mpr ⟨binds, List.forall_mem_singleton.mpr ?_⟩
  intro _ epoch atEpoch
  rcases refused_or_assigned kept_empty binds (answered {} _) with
    ⟨-, same⟩ | ⟨earlier, b, body, makes, -, -, same⟩
  · simp only [answer, same] at atEpoch
    cases atEpoch
  · simp only [answer, same] at atEpoch
    cases makes
    obtain rfl : 0 = epoch := Option.some.inj ((AList.lookup_insert _).symm.trans atEpoch)
    decide

/-- The sample principal follows the rotation. -/
theorem registry_follows_rotations_sample
    : ∃ r oldSig newSig, Signatures.sampleRotation = .ok (r, oldSig, newSig)
      ∧ ∃ earlier last head, last.handle = r.new
        ∧ ProvenChain digestLibrary (sampleCalls r oldSig newSig) (PyStr.lit ['p'])
          (earlier ++ [last]) head := by
  obtain ⟨r, oldSig, newSig, made, resolved⟩ := sampleCalls_resolve
  obtain ⟨r', oldSig', newSig', made', -, accepted⟩ := Signatures.sampleRotation_accepted
  obtain ⟨rfl, rfl, rfl⟩ : r = r' ∧ oldSig = oldSig' ∧ newSig = newSig' := by
    simpa using made.symm.trans made'
  obtain ⟨m, written, -, -⟩ := Signatures.verifyRotation_signed accepted
  obtain ⟨bound, -⟩ := registry_follows_rotations id digestLibrary
    (sampleCalls r oldSig newSig) (sampleCalls_writes written)
  obtain ⟨earlier, last, head, -, proven, last'⟩ := bound (PyStr.lit ['p']) (by
    unfold PrincipalRegistry.resolve at resolved
    split at resolved
    · exact AList.lookup_isSome.mp (Option.isSome_of_eq_some ‹_›)
    · cases resolved)
  exact ⟨r, oldSig, newSig, made, earlier, last, head,
    Except.ok.inj (last'.symm.trans resolved), proven⟩

/-- A binding of a lone surrogate is refused, but its chain has begun. -/
theorem refused_bind_extends_chain
    : ∃ event ∈ trace (respond (RegistryCall.method id digestLibrary)) {}
        [.bind [.surrogate 0] (PyStr.lit ['h'])],
      event.outcome = .error .unicodeEncodeError
        ∧ event.before.chain.lookup [.surrogate 0] = none
        ∧ event.after.chain.lookup [.surrogate 0]
          = some [⟨[.surrogate 0], PyStr.lit ['h'], 0, genesisHead⟩] := by
  refine ⟨_, List.mem_singleton_self _, ?_⟩
  decide +kernel

end Naalp.Rooms
