import Naalp.ConsumeLedger.Runs
import Naalp.Native.NamedLedgers

/-! The one authority that consumes a use-once object.
Named ledgers are called in any order; an object is consumed where its audience is the name of
the ledger, which in Rust is a lossy decoding of the ledger's id.
-/

namespace Naalp.ConsumeLedger

open Naalp.Foundation
open Naalp.Python
open Naalp.Python.Approval
open Naalp.Rust.Channels (asBytes fromUtf8Lossy fromUtf8Lossy_asBytes)

-----------------------------------------------------------------------------------------
-- Calls on named ledgers
-----------------------------------------------------------------------------------------

/-- A consume on a named ledger of Go or Rust, by a consumer of `α`. -/
inductive NativeCall (α : Type) where
  | consume (approvalId : Bytes) (consumer : α)
  | consumeObject (o : Go.Envelope.Object) (approvalId : Bytes) (consumer : α)

def goStep (l : Go.Approval.NamedLedger)
    : NativeCall PyStr → Except Go.Approval.Failure LedgerEntry × Go.Approval.NamedLedger
  | .consume approvalID consumer => l.consume approvalID consumer
  | .consumeObject o approvalID consumer => l.consumeObject o approvalID consumer

def rustStep (l : Rust.Approval.NamedLedger)
    : NativeCall (List Char) → Except Rust.Failure LedgerEntry × Rust.Approval.NamedLedger
  | .consume approvalId consumer => l.consume approvalId consumer
  | .consumeObject o approvalId consumer => l.consumeObject o approvalId consumer

/-- The object that a call consumes. -/
def NativeCall.object {α : Type} : NativeCall α → Option Go.Envelope.Object
  | .consume _ _ => none
  | .consumeObject o _ _ => some o

def consumedObject : Call → Option Envelope.Object
  | .consumeObject _ o _ _ => some o
  | _ => none

/-- The ledger at `i` consumed the object in the run. -/
def ConsumedAt {μ L C O ε α : Type} (object : C → Option O)
    (events : List (Event (μ → L) (μ × C) (Except ε α))) (o : O) (i : μ) : Prop :=
  ∃ event ∈ events, event.call.1 = i ∧ object event.call.2 = some o
    ∧ ∃ result, event.outcome = .ok result

/-- What every accepted consume of an object had at its own ledger holds, in a run of any
ledgers, of the ledgers that the run started with, when it is about what no call changes.
-/
theorem consumedAt_start {μ L C O ε α ν : Type} [DecidableEq μ] {step : L → C → Except ε α × L}
    {object : C → Option O} {name : L → ν} (allowed : C → Prop) (names : O → ν → Prop)
    (keeps : ∀ l call, allowed call → name (step l call).2 = name l)
    (accepts : ∀ l call o result, object call = some o → (step l call).1 = .ok result
      → names o (name l))
    {ledgers : μ → L} {calls : List (μ × C)} (all : ∀ call ∈ calls, allowed call.2) {o : O} {i : μ}
    (consumed : ConsumedAt object (trace (answerAt step) ledgers calls) o i)
    : names o (name (ledgers i)) := by
  obtain ⟨event, member, rfl, isObject, result, succeeded⟩ := consumed
  obtain ⟨same, -, answered⟩ := mem_trace_answerAt keeps all member
  rw [← same]
  exact accepts _ _ _ result isObject (answered.symm.trans succeeded)

-----------------------------------------------------------------------------------------
-- The audience of an accepted consume
-----------------------------------------------------------------------------------------

theorem nativeCheckAudience_eq_ok {α : Type} [DecidableEq α] {audience selfAuthority : List α}
    {done : Unit} (checked : Native.checkAudience audience selfAuthority true = .ok done)
    : audience = selfAuthority := by
  unfold Native.checkAudience at checked
  split at checked
  · cases checked
  · exact not_not.mp (raiseIf_eq_ok.mp checked)

theorem checkAudience_eq_ok {o : Envelope.Object} {selfAuthority : PyStr} {done : Unit}
    (checked : Envelope.checkAudience o selfAuthority true = .ok done)
    : o.audience = selfAuthority := by
  unfold Envelope.checkAudience at checked
  split at checked
  · cases checked
  · exact not_not.mp (raiseIf_eq_ok.mp checked)

/-- A call leaves the name of the Go ledger. -/
theorem goStep_keeps (l : Go.Approval.NamedLedger) (call : NativeCall PyStr)
    : (goStep l call).2.ledgerID = l.ledgerID := by
  cases call with
  | consume approvalID consumer => rfl
  | consumeObject o approvalID consumer =>
      simp only [goStep, Go.Approval.NamedLedger.consumeObject]
      split
      · rfl
      · split
        · rfl
        · rfl

/-- A Go ledger takes an object only when the object's audience is the name of the ledger. -/
theorem goStep_accepts {l : Go.Approval.NamedLedger} {call : NativeCall PyStr}
    {o : Go.Envelope.Object} {e : LedgerEntry} (isObject : call.object = some o)
    (accepted : (goStep l call).1 = .ok e)
    : o.audience.octets = l.ledgerID := by
  cases call with
  | consume approvalID consumer => cases isObject
  | consumeObject o' approvalID consumer =>
      obtain rfl := Option.some.inj isObject
      simp only [goStep, Go.Approval.NamedLedger.consumeObject] at accepted
      split at accepted
      · cases accepted
      · split at accepted
        · cases accepted
        · rename_i checked
          exact nativeCheckAudience_eq_ok checked

/-- A call leaves the name of the Rust ledger. -/
theorem rustStep_keeps (l : Rust.Approval.NamedLedger) (call : NativeCall (List Char))
    : (rustStep l call).2.ledgerId = l.ledgerId := by
  cases call with
  | consume approvalId consumer => rfl
  | consumeObject o approvalId consumer =>
      simp only [rustStep, Rust.Approval.NamedLedger.consumeObject]
      split
      · rfl
      · split
        · rfl
        · rfl

/-- A Rust ledger takes an object only when the audience is the text that the name is decoded
to, with every invalid octet replaced.
-/
theorem rustStep_accepts {l : Rust.Approval.NamedLedger} {call : NativeCall (List Char)}
    {o : Go.Envelope.Object} {e : LedgerEntry} (isObject : call.object = some o)
    (accepted : (rustStep l call).1 = .ok e)
    : o.audience.chars = fromUtf8Lossy l.ledgerId := by
  cases call with
  | consume approvalId consumer => cases isObject
  | consumeObject o' approvalId consumer =>
      obtain rfl := Option.some.inj isObject
      simp only [rustStep, Rust.Approval.NamedLedger.consumeObject] at accepted
      split at accepted
      · cases accepted
      · split at accepted
        · cases accepted
        · rename_i checked
          exact nativeCheckAudience_eq_ok checked

theorem persist_ledgerId {α : Type} (led : Ledger) (fault : Option Fault)
    (prepared : Py (Prepared α))
    : (led.persist fault prepared).2.ledgerId = led.ledgerId := by
  unfold Ledger.persist
  split
  · rfl
  · split
    · rfl
    · rfl

/-- A consume keeps the name of the ledger; only opening it again sets one. -/
theorem step_keeps (lib : Cose.SignatureLibrary) (led : Ledger) (call : Call)
    (consumes : call.aid.isSome)
    : (step lib led call).2.ledgerId = led.ledgerId := by
  cases call with
  | consume fault aid consumer => exact persist_ledgerId led fault _
  | consumeWithReceipt fault aid consumer => exact persist_ledgerId led fault _
  | consumeObject fault o aid consumer =>
      simp only [step, Ledger.consumeObject]
      split
      · rfl
      · split
        · rfl
        · exact persist_ledgerId led fault _
  | reopen authority => cases consumes
  | reopenSigned ledgerId alg seed => cases consumes

/-- A Python ledger takes an object only when the object's audience is the name of the ledger.
-/
theorem step_accepts {lib : Cose.SignatureLibrary} {led : Ledger} {call : Call}
    {o : Envelope.Object} {e : Option LedgerEntry} (isObject : consumedObject call = some o)
    (accepted : (step lib led call).1 = .ok e)
    : o.audience = led.ledgerId := by
  cases call with
  | consumeObject fault o' aid consumer =>
      obtain rfl := Option.some.inj isObject
      simp only [step, Ledger.consumeObject] at accepted
      split at accepted
      · cases accepted
      · split at accepted
        · cases accepted
        · rename_i checked
          exact checkAudience_eq_ok checked
  | _ => cases isObject

-----------------------------------------------------------------------------------------
-- The lossy comparison
-----------------------------------------------------------------------------------------

/-- The octets of an id are the UTF-8 encoding of a text. -/
def IsUtf8 (id : Bytes) : Prop := ∃ text, asBytes text = id

/-- A text that is compared with the lossy decoding of an id has the octets of the id exactly when
the id is the encoding of a text.
-/
theorem lossy_octets_iff {audience : PyStr} {id : Bytes}
    (decoded : audience.chars = fromUtf8Lossy id)
    : audience.octets = id ↔ IsUtf8 id := by
  constructor
  · intro same
    exact ⟨audience.chars, same⟩
  · intro encodes
    obtain ⟨text, rfl⟩ := encodes
    rw [fromUtf8Lossy_asBytes] at decoded
    rw [PyStr.octets, decoded]
    rfl

-----------------------------------------------------------------------------------------
-- One authority
-----------------------------------------------------------------------------------------

/-- In every run of consumes at named ledgers, a ledger that consumes an object is the one that
the audience names: in Python and Go always, so that two ledgers that consume one object have the
same id, and in Rust exactly when the id of the ledger is UTF-8.
Witness: a consume compares the audience with the id of the ledger; only Rust converts the id
to a text first, which loses octets that are no UTF-8.
-/
theorem one_authority_iff {μ : Type} [DecidableEq μ] (lib : Cose.SignatureLibrary)
    : (∀ (ledgers : μ → Ledger) (calls : List (μ × Call)), (∀ call ∈ calls, call.2.aid.isSome)
        → ∀ o i, ConsumedAt consumedObject (trace (answerAt (step lib)) ledgers calls) o i
          → o.audience = (ledgers i).ledgerId
            ∧ ∀ j, ConsumedAt consumedObject (trace (answerAt (step lib)) ledgers calls) o j
              → (ledgers i).ledgerId = (ledgers j).ledgerId)
      ∧ (∀ (ledgers : μ → Go.Approval.NamedLedger) (calls : List (μ × NativeCall PyStr)),
          ∀ o i, ConsumedAt NativeCall.object (trace (answerAt goStep) ledgers calls) o i
            → o.audience.octets = (ledgers i).ledgerID
              ∧ ∀ j, ConsumedAt NativeCall.object (trace (answerAt goStep) ledgers calls) o j
                → (ledgers i).ledgerID = (ledgers j).ledgerID)
      ∧ ∀ (ledgers : μ → Rust.Approval.NamedLedger) (calls : List (μ × NativeCall (List Char))),
          ∀ o i, ConsumedAt NativeCall.object (trace (answerAt rustStep) ledgers calls) o i
            → (o.audience.octets = (ledgers i).ledgerId ↔ IsUtf8 (ledgers i).ledgerId)
              ∧ ∀ j, ConsumedAt NativeCall.object (trace (answerAt rustStep) ledgers calls) o j
                → IsUtf8 (ledgers i).ledgerId → IsUtf8 (ledgers j).ledgerId
                → (ledgers i).ledgerId = (ledgers j).ledgerId := by
  refine ⟨?_, ?_, ?_⟩
  · intro ledgers calls all o i consumed
    have named : ∀ {k}, ConsumedAt consumedObject (trace (answerAt (step lib)) ledgers calls) o k
        → o.audience = (ledgers k).ledgerId :=
      consumedAt_start (fun call : Call => call.aid.isSome)
        (fun (o : Envelope.Object) id => o.audience = id)
        (step_keeps lib) (fun _ _ _ _ => step_accepts) all
    exact ⟨named consumed, fun j again => (named consumed).symm.trans (named again)⟩
  · intro ledgers calls o i consumed
    have named : ∀ {k}, ConsumedAt NativeCall.object (trace (answerAt goStep) ledgers calls) o k
        → o.audience.octets = (ledgers k).ledgerID :=
      consumedAt_start (fun _ => True) (fun (o : Go.Envelope.Object) id => o.audience.octets = id)
        (fun l call _ => goStep_keeps l call) (fun _ _ _ _ => goStep_accepts)
        (fun _ _ => trivial)
    exact ⟨named consumed, fun j again => (named consumed).symm.trans (named again)⟩
  · intro ledgers calls o i consumed
    have named : ∀ {k}, ConsumedAt NativeCall.object (trace (answerAt rustStep) ledgers calls) o k
        → o.audience.chars = fromUtf8Lossy (ledgers k).ledgerId :=
      consumedAt_start (fun _ => True)
        (fun (o : Go.Envelope.Object) id => o.audience.chars = fromUtf8Lossy id)
        (fun l call _ => rustStep_keeps l call) (fun _ _ _ _ => rustStep_accepts)
        (fun _ _ => trivial)
    refine ⟨lossy_octets_iff (named consumed), ?_⟩
    intro j again utf8 utf8'
    rw [← (lossy_octets_iff (named consumed)).mpr utf8,
      ← (lossy_octets_iff (named again)).mpr utf8']

-----------------------------------------------------------------------------------------
-- An object consumed twice
-----------------------------------------------------------------------------------------

/-- A named ledger of Rust without entries. -/
def freshRustLedger (id : Bytes) : Rust.Approval.NamedLedger :=
  { disk := [], memory := .genesis, ledgerId := id }

def freshGoLedger (id : Bytes) : Go.Approval.NamedLedger :=
  { disk := [], memory := .genesis, ledgerID := id }

def freshLedger (authority : PyStr) : Ledger :=
  { file := { disk := [] }, memory := .genesis, ledgerId := authority }

/-- An object of the native implementations that is addressed to the given audience. -/
def addressedTo (audience : PyStr) : Go.Envelope.Object where
  id := []
  kind := 1
  channel := 7
  tier := 0
  signer := [7]
  created := 5
  effect := 2
  causes := []
  profile := 1
  body := .m []
  ext := none
  cext := none
  audience := audience
  suite := 0

def pythonAddressedTo (audience : PyStr) : Envelope.Object where
  id := none
  kind := 1
  channel := 7
  tier := 0
  signer := [7]
  created := 5
  effect := 2
  causes := []
  profile := 1
  body := .m []
  ext := none
  cext := none
  audience := audience
  suite := 0

/-- An octet that starts no sequence is decoded to the replacement character. -/
theorem fromUtf8Lossy_invalid
    : fromUtf8Lossy [0xFF] = [Char.ofNat 0xFFFD] ∧ fromUtf8Lossy [0xFE] = [Char.ofNat 0xFFFD] := by
  have bad : [(0xFF : UInt8)].toByteArray.utf8Decode? = none
      ∧ [(0xFE : UInt8)].toByteArray.utf8Decode? = none := by
    decide +kernel
  constructor
  · simp [fromUtf8Lossy, bad.1, Rust.Channels.replaceInvalid, Rust.Channels.following]
  · simp [fromUtf8Lossy, bad.2, Rust.Channels.replaceInvalid, Rust.Channels.following]

theorem consumedAt_once {μ L C O ε α : Type} [DecidableEq μ] (step : L → C → Except ε α × L)
    (object : C → Option O) (ledgers : μ → L) (i : μ) {call : C} {o : O}
    (isObject : object call = some o) (accepts : ∃ result, (step (ledgers i) call).1 = .ok result)
    : ConsumedAt object (trace (answerAt step) ledgers [(i, call)]) o i :=
  ⟨_, List.mem_cons_self, rfl, isObject, accepts⟩

/-- The calls of a run that presents one object to a ledger and then to another. -/
def presentTwice {C : Type} (call : C) : List (Bool × C) := [(false, call), (true, call)]

/-- When both ledgers accept the object, both consume it in that run: the second is as it was
when its call comes.
-/
theorem consumedAt_twice {L C O ε α : Type} (step : L → C → Except ε α × L)
    (object : C → Option O) (ledgers : Bool → L) {call : C} {o : O}
    (isObject : object call = some o)
    (accepts : ∀ i, ∃ result, (step (ledgers i) call).1 = .ok result)
    : ∀ i, ConsumedAt object (trace (answerAt step) ledgers (presentTwice call)) o i := by
  intro i
  cases i with
  | false => exact ⟨_, List.mem_cons_self, rfl, isObject, accepts false⟩
  | true =>
      refine ⟨_, List.mem_cons_of_mem _ List.mem_cons_self, rfl, isObject, ?_⟩
      obtain ⟨result, accepted⟩ := accepts true
      exact ⟨result, by simpa [answer, answerAt] using accepted⟩

theorem nativeCheckAudience_ok {α : Type} [DecidableEq α] {audience : List α}
    (nonempty : audience ≠ []) : Native.checkAudience audience audience true = .ok () := by
  simp [Native.checkAudience, nonempty]

/-- A fresh Rust ledger takes an object whose audience its name decodes to, whatever the octets
of the name are.
-/
theorem freshRustLedger_accepts {audience : PyStr} {id : Bytes} (nonempty : audience.chars ≠ [])
    (named : id ≠ []) (decoded : audience.chars = fromUtf8Lossy id)
    : ∃ e, (rustStep (freshRustLedger id)
        (.consumeObject (addressedTo audience) [1] ['b'])).1 = .ok e := by
  have computed : (Rust.Approval.entryBytes
      ⟨0, List.replicate headSize 0, [1], PyStr.lit ['b']⟩).toOption.isSome := by
    decide +kernel
  obtain ⟨record, found⟩ := Option.isSome_iff_exists.mp computed
  have encoded := toOption_eq_some.mp found
  refine ⟨⟨0, List.replicate headSize 0, [1], PyStr.lit ['b']⟩, ?_⟩
  rw [decoded] at nonempty
  simp only [rustStep, Rust.Approval.NamedLedger.consumeObject, freshRustLedger, named, if_false,
    addressedTo, decoded, nativeCheckAudience_ok nonempty, Rust.Approval.NamedLedger.consume,
    Rust.Approval.Ledger.consume]
  simp only [LedgerMemory.genesis, AList.notMem_empty, if_false, Rust.Approval.Ledger.nextEntry,
    encoded]

theorem freshGoLedger_accepts {audience : PyStr} (nonempty : audience.octets ≠ [])
    : ∃ e, (goStep (freshGoLedger audience.octets)
        (.consumeObject (addressedTo audience) [1] (.lit ['b']))).1 = .ok e := by
  have unspent : [1] ∉ LedgerMemory.genesis.consumed := by decide
  simp [goStep, Go.Approval.NamedLedger.consumeObject, freshGoLedger, nonempty, addressedTo,
    nativeCheckAudience_ok nonempty, Go.Approval.NamedLedger.consume, Go.Approval.Ledger.consume,
    unspent]

/-- The audience of an object that is consumed at a ledger of the same name. -/
def sampleAudience : PyStr := .lit ['a']

/-- A fresh Python ledger takes an object that is addressed to it. -/
theorem freshLedger_accepts (lib : Cose.SignatureLibrary)
    : ∃ e, (step lib (freshLedger sampleAudience)
        (.consumeObject none (pythonAddressedTo sampleAudience) [1] (.lit ['b']))).1 = .ok e := by
  have computed : ((freshLedger sampleAudience).consumeObject none
      (pythonAddressedTo sampleAudience) [1] (.lit ['b'])).1.toOption.isSome := by
    decide +kernel
  obtain ⟨e, found⟩ := Option.isSome_iff_exists.mp computed
  refine ⟨some e, ?_⟩
  simp only [step, toOption_eq_some.mp found]
  rfl

/-- An object that names its ledger is consumed there, in each implementation. -/
theorem one_authority_iff_sample
    : ∃ (o : Envelope.Object) (g : Go.Envelope.Object) (led : Ledger)
        (goLed : Go.Approval.NamedLedger) (rustLed : Rust.Approval.NamedLedger)
        (calls : List (Unit × Call)) (goCalls : List (Unit × NativeCall PyStr))
        (rustCalls : List (Unit × NativeCall (List Char))),
      (ConsumedAt consumedObject (trace (answerAt (step Cose.digestLibrary)) (fun _ => led) calls)
          o ()
        ∧ o.audience = led.ledgerId)
      ∧ (ConsumedAt NativeCall.object (trace (answerAt goStep) (fun _ => goLed) goCalls) g ()
        ∧ g.audience.octets = goLed.ledgerID)
      ∧ ConsumedAt NativeCall.object (trace (answerAt rustStep) (fun _ => rustLed) rustCalls) g ()
      ∧ (g.audience.octets = rustLed.ledgerId ↔ IsUtf8 rustLed.ledgerId) := by
  obtain ⟨python, go, rust⟩ := @one_authority_iff Unit _ Cose.digestLibrary
  have consumed := consumedAt_once (step Cose.digestLibrary) consumedObject
    (fun _ : Unit => freshLedger sampleAudience) () rfl (freshLedger_accepts _)
  have goConsumed := consumedAt_once goStep NativeCall.object
    (fun _ : Unit => freshGoLedger sampleAudience.octets) () rfl
    (freshGoLedger_accepts (by decide))
  have rustConsumed := consumedAt_once rustStep NativeCall.object
    (fun _ : Unit => freshRustLedger (asBytes ['a'])) () rfl
    (@freshRustLedger_accepts sampleAudience _ (by decide) (by decide)
      (fromUtf8Lossy_asBytes ['a']).symm)
  have named := (python _ _ (by simp [Call.aid]) _ _ consumed).1
  exact ⟨_, _, _, _, _, _, _, _, ⟨consumed, named⟩, ⟨goConsumed, (go _ _ _ _ goConsumed).1⟩,
    rustConsumed, (rust _ _ _ _ rustConsumed).1⟩

/-- Two Rust ledgers whose ids are no UTF-8 consume one object, although their ids differ and
neither is the audience of the object.
-/
theorem object_consumed_twice
    : ∃ (ledgers : Bool → Rust.Approval.NamedLedger) (calls : List (Bool × NativeCall (List Char)))
        (o : Go.Envelope.Object),
      (ledgers false).ledgerId = [0xFF] ∧ (ledgers true).ledgerId = [0xFE]
      ∧ (∀ i, ConsumedAt NativeCall.object (trace (answerAt rustStep) ledgers calls) o i)
      ∧ o.audience.octets ≠ [0xFF] ∧ o.audience.octets ≠ [0xFE] := by
  let replacement : PyStr := .lit [Char.ofNat 0xFFFD]
  let ledgers (i : Bool) := freshRustLedger (if i then [0xFE] else [0xFF])
  refine ⟨ledgers, presentTwice (.consumeObject (addressedTo replacement) [1] ['b']),
    addressedTo replacement, rfl, rfl, ?_, by decide, by decide⟩
  refine consumedAt_twice rustStep NativeCall.object ledgers rfl ?_
  intro i
  obtain ⟨first, second⟩ := fromUtf8Lossy_invalid
  cases i with
  | false => exact freshRustLedger_accepts (by simp [replacement]) (by decide) (by
      rw [PyStr.chars_lit]; exact first.symm)
  | true => exact freshRustLedger_accepts (by simp [replacement]) (by decide) (by
      rw [PyStr.chars_lit]; exact second.symm)

end Naalp.ConsumeLedger
