import Naalp.Python.Hitl
import Naalp.Python.Mcp
import Naalp.Python.MixedMode

/-! The MCP guard of `ecosystem/naalp-mcp-guard`: its receipts, its effect gate and its proxy, with
the carriage of tool calls in `ecosystem/naalp-mcp-bridge/naalp_mcp_bridge/mcp_bridge.py`.
-/

namespace Naalp.Python.McpGuard

open Naalp.Foundation
open Naalp.Python.Approval
open Naalp.Python.Cbor
open Naalp.Python.Cose
open Naalp.Python.Hitl
open Naalp.Python.Mcp
open Naalp.Python.MixedMode (Json PyFloat)

/-- The functions of the standard library that the guard calls: those of the mixed-mode endpoint,
the compact `json.dumps` of a JSON value and of what a tool returns, the `repr` of a JSON value and
of a text, and the writing of a JSON file in a directory.
-/
structure StandardLibrary (α : Type) extends MixedMode.StandardLibrary where
  dumps : Json → Py PyStr
  dumpsResult : α → Py PyStr
  repr : Json → Py String
  reprStr : PyStr → String
  write : (dir name : PyStr) → Json → Py Unit

variable {α : Type}

def nameKey : PyStr := .lit ['n', 'a', 'm', 'e']

def paramsKey : PyStr := .lit ['p', 'a', 'r', 'a', 'm', 's']

def argumentsKey : PyStr := .lit ['a', 'r', 'g', 'u', 'm', 'e', 'n', 't', 's']

def annotationsKey : PyStr := .lit ['a', 'n', 'n', 'o', 't', 'a', 't', 'i', 'o', 'n', 's']

/-- The value of a key of an object, when the value is an object that has it. -/
def field (key : PyStr) : Json → Option Json
  | .dict entries => entries.lookup key
  | _ => none

-----------------------------------------------------------------------------------------
-- The bridge
-----------------------------------------------------------------------------------------

def bridgeError (kind : Kind) (msg : String) : Exc := .mcpError kind msg

/-- One round of the loop over the hints; an absent hint stays `none`. -/
def hintOf (entries : List (PyStr × Json)) (key : List Char) : Py (Option Bool) :=
  match entries.lookup (.lit key) with
  | none => return none
  | some (.bool hint) => return some hint
  | some _ =>
      throw (bridgeError .foreignToolNotJson (String.ofList key ++ " is not a JSON boolean"))

def annotationsFromMcpDict : Option Json → Py Annotations
  | none | some .null => return {}
  | some (.dict entries) => do
      let readOnly ← hintOf entries ['r', 'e', 'a', 'd', 'O', 'n', 'l', 'y', 'H', 'i', 'n', 't']
      let destructive ← hintOf entries
        ['d', 'e', 's', 't', 'r', 'u', 'c', 't', 'i', 'v', 'e', 'H', 'i', 'n', 't']
      let idempotent ← hintOf entries
        ['i', 'd', 'e', 'm', 'p', 'o', 't', 'e', 'n', 't', 'H', 'i', 'n', 't']
      let openWorld ← hintOf entries
        ['o', 'p', 'e', 'n', 'W', 'o', 'r', 'l', 'd', 'H', 'i', 'n', 't']
      return { readOnly, destructive, idempotent, openWorld }
  | some _ => throw (bridgeError .foreignToolNotJson "MCP annotations is not a JSON object")

/-- `_mldsa_param_name` of the bridge, by the parameter set that the name selects. -/
def mldsaParam (alg : Int) : Py MlDsa :=
  if alg = algMldsa87 then return .mlDsa87
  else if alg = algMldsa65 then return .mlDsa65
  else throw (bridgeError .foreignToolNotJson
    ("alg " ++ toString alg ++ " is not a registered ML-DSA algorithm"))

/-- `canonical_json_bytes`, by the `json.dumps` for the values at hand. -/
def canonicalJsonBytes {β : Type} (dumps : β → Py PyStr) (obj : β) : Py Bytes := do
  (← dumps obj).encode

/-- A tool definition as the proxy caches it: a JSON object with a text for its name. -/
structure ToolDefinition where
  entries : List (PyStr × Json)
  name : PyStr
  named : entries.lookup nameKey = some (.str name)

/-- The definition without annotations that stands for a tool that is not known. -/
def unknownTool (name : PyStr) : ToolDefinition where
  entries := [(nameKey, .str name)]
  name := name
  named := by simp

/-- `params["name"] == tool_definition["name"]`. -/
def ToolDefinition.isNamed (definition : ToolDefinition) : Json → Bool
  | .str name => name = definition.name
  | _ => false

structure CarriedCall where
  signedObject : Bytes
  toolBytes : Bytes
  argsBytes : Bytes
  annotationMappedEffect : Int
  declaredEffect : Int
  callBindingContentId : Bytes

structure BridgedCall where
  signer : Bytes
  contentId : Option Bytes
  toolBytes : Bytes
  argsBytes : Bytes
  toolDefinition : List (PyStr × Json)
  arguments : Json
  annotationMappedEffect : Int
  declaredEffect : Int
  enforcedEffect : Int
  mismatch : Bool
  callBindingContentId : Bytes
  resolved : ResolvedCall

section Bridge

variable (lib : SignatureLibrary) (std : StandardLibrary α)

def decodeJson (raw : Bytes) (what : String) (kind : Kind) : Py Json :=
  match PyStr.decode raw >>= std.loads with
  | .error .unicodeDecodeError =>
      throw (bridgeError kind (what ++ " is not valid UTF-8: " ++ std.excText .unicodeDecodeError))
  | .error (.jsonDecodeError msg) =>
      throw (bridgeError kind (what ++ " is not valid JSON: " ++ msg))
  | read => read

def parseToolDefinition (toolBytes : Bytes) : Py (List (PyStr × Json)) := do
  let .dict entries ← decodeJson std toolBytes "tool definition" .foreignToolNotJson
    | throw (bridgeError .foreignToolNotJson "tool definition JSON is not an object")
  return entries

/-- The annotations that a tool definition's octets transcribe to. -/
def toolAnnotations (toolBytes : Bytes) : Py Annotations := do
  let toolDef ← parseToolDefinition std toolBytes
  annotationsFromMcpDict (toolDef.lookup annotationsKey)

def carryToolCall (toolBytes argsBytes signerSeed : Bytes) (alg created : Int)
    (causes : List Bytes) (profile : Int) (declaredEffect : Option Int) : Py CarriedCall := do
  let annotations ← toolAnnotations std toolBytes
  let mapped := mapAnnotationsToEffect annotations
  let declared := declaredEffect.getD mapped
  let tc : ToolCallBody := { tool := toolBytes, args := argsBytes, annotations }
  let set ← mldsaParam alg
  let signerPk ← lib.mldsaPublic set signerSeed
  let obj ← tc.envelopeObject signerPk created profile declared causes
  let signed ← Envelope.sign lib obj alg signerSeed
  let bindingId ← tc.callBinding.contentId
  return {
    signedObject := signed, toolBytes, argsBytes, annotationMappedEffect := mapped
    declaredEffect := declared, callBindingContentId := bindingId
  }

def carryToolCallFromObjects (toolDefinition : ToolDefinition) (callRequest : Json)
    (signerSeed : Bytes) (alg created : Int) (causes : List Bytes) (profile : Int)
    (declaredEffect : Option Int) : Py CarriedCall := do
  let some (.dict params) := field paramsKey callRequest
    | throw (bridgeError .foreignCallMalformed "call request must carry a JSON-RPC params object")
  let some name := params.lookup nameKey
    | throw (bridgeError .foreignCallMalformed "call request params must carry a tool name")
  if toolDefinition.isNamed name = false then
    throw (bridgeError .toolNameMismatch ("call request names " ++ (← std.repr name)
      ++ " but the supplied tool definition is " ++ std.reprStr toolDefinition.name))
  else
    let toolBytes ← canonicalJsonBytes std.dumps (.dict toolDefinition.entries)
    let argsBytes ← canonicalJsonBytes std.dumps ((params.lookup argumentsKey).getD (.dict []))
    carryToolCall lib std toolBytes argsBytes signerSeed alg created causes profile declaredEffect

def receiveToolCall (signedObject : Bytes) (profile alg : Int) (pubkey : Bytes)
    : Py BridgedCall := do
  let resolved ← verifyToolCall lib profile alg pubkey signedObject
  let toolDefinition ← parseToolDefinition std resolved.toolCall.tool
  let arguments ← decodeJson std resolved.toolCall.args "call arguments" .foreignBodyNotJson
  let bindingId ← resolved.toolCall.callBinding.contentId
  return {
    signer := resolved.signer, contentId := resolved.contentId
    toolBytes := resolved.toolCall.tool, argsBytes := resolved.toolCall.args
    toolDefinition, arguments, annotationMappedEffect := resolved.annotationMapped
    declaredEffect := resolved.declared, enforcedEffect := resolved.enforced
    mismatch := resolved.mismatch, callBindingContentId := bindingId, resolved
  }

end Bridge

-----------------------------------------------------------------------------------------
-- Receipts
-----------------------------------------------------------------------------------------

def decisionExecuted : PyStr := .lit ['e', 'x', 'e', 'c', 'u', 't', 'e', 'd']

def decisionDenied : PyStr := .lit ['d', 'e', 'n', 'i', 'e', 'd']

structure EffectReceipt where
  toolId : Bytes
  argsId : Bytes
  callId : Bytes
  effect : Int
  decision : PyStr
  reason : PyStr
  resultHash : Bytes
  principal : PyStr
  toolName : PyStr
  guardIdentity : PyStr
  createdMs : Int
  deriving DecidableEq

def EffectReceipt.value (r : EffectReceipt) : Value :=
  .m [(.u 1, .b r.toolId), (.u 2, .b r.argsId), (.u 3, .b r.callId), (.u 4, .u r.effect),
    (.u 5, .t r.decision), (.u 6, .t r.reason), (.u 7, .b r.resultHash), (.u 8, .t r.principal),
    (.u 9, .t r.toolName), (.u 10, .t r.guardIdentity), (.u 11, .u r.createdMs)]

def EffectReceipt.toMap (r : EffectReceipt) : Py Value := do
  raiseIf (r.decision ≠ decisionExecuted ∧ r.decision ≠ decisionDenied)
    (.receiptError .malformedReceipt "decision must be 'executed' or 'denied'")
  raiseIf (¬ (0 ≤ r.effect ∧ r.effect ≤ 3))
    (.receiptError .malformedReceipt "effect is outside the closed 0..3 lattice")
  return r.value

def EffectReceipt.bytes (r : EffectReceipt) : Py Bytes := do
  encode (← r.toMap)

def EffectReceipt.contentId (r : EffectReceipt) : Py Bytes := return contentIdBytes (← r.bytes)

def signEffectReceipt (lib : SignatureLibrary) (r : EffectReceipt) (alg : Int) (seed : Bytes)
    : Py Bytes := do
  mldsaSign lib alg seed (← r.bytes)

def versionKey : PyStr :=
  .lit ['n', 'a', 'a', 'l', 'p', '_', 'm', 'c', 'p', '_', 'g', 'u', 'a', 'r', 'd', '_', 'r', 'e',
    'c', 'e', 'i', 'p', 't']

def algKey : PyStr := .lit ['a', 'l', 'g']

def pubkeyKey : PyStr := .lit ['p', 'u', 'b', 'k', 'e', 'y']

def bodyKey : PyStr := .lit ['b', 'o', 'd', 'y']

def sigKey : PyStr := .lit ['s', 'i', 'g']

def hexText (data : Bytes) : Json := .str (.lit (hex data))

def receiptFileDict (r : EffectReceipt) (alg : Int) (pubkey sig : Bytes) : Py Json := do
  let body ← r.bytes
  return .dict [(versionKey, .int 1), (algKey, .int alg), (pubkeyKey, hexText pubkey),
    (bodyKey, hexText body), (sigKey, hexText sig)]

/-- The octets that `write_receipt_file` writes, by the indented `json.dumps`. -/
def receiptFileBytes (dumpsIndented : Json → Py PyStr) (r : EffectReceipt) (alg : Int)
    (pubkey sig : Bytes) : Py Bytes := do
  let text ← dumpsIndented (← receiptFileDict r alg pubkey sig)
  PyStr.encode (text ++ PyStr.lit ['\n'])

/-- `value == 1`, which a true boolean and a float satisfy too. -/
def equalsOne : Json → Bool
  | .int n => n = 1
  | .bool b => b
  | .float (.finite numerator scale) => numerator = 2 ^ scale
  | _ => false

def isBlank : PyChar → Bool
  | .scalar c => c ∈ [' ', '\t', '\n', '\r', '\x0b', '\x0c']
  | .surrogate _ => false

def hexValue : PyChar → Option Nat
  | .scalar c =>
      if '0' ≤ c ∧ c ≤ '9' then some (c.toNat - '0'.toNat)
      else if 'a' ≤ c ∧ c ≤ 'f' then some (c.toNat - 'a'.toNat + 10)
      else if 'A' ≤ c ∧ c ≤ 'F' then some (c.toNat - 'A'.toNat + 10)
      else none
  | .surrogate _ => none

/-- `bytes.fromhex` of a text, which passes over blanks between the octets. -/
def fromHex : PyStr → Py Bytes
  | [] => return []
  | high :: rest =>
      if isBlank high then fromHex rest
      else
        match hexValue high, rest with
        | some h, low :: rest =>
            match hexValue low with
            | some l => return UInt8.ofNat (16 * h + l) :: (← fromHex rest)
            | none => throw (.valueError "non-hexadecimal number found in fromhex() arg")
        | _, _ => throw (.valueError "non-hexadecimal number found in fromhex() arg")

/-- `obj[key]`. -/
def item (obj : List (PyStr × Json)) (key : PyStr) : Py Json :=
  match obj.lookup key with
  | some value => return value
  | none => throw .keyError

def hexItem (obj : List (PyStr × Json)) (key : PyStr) : Py Bytes := do
  match ← item obj key with
  | .str text => fromHex text
  | _ => throw .typeError

section Verifying

variable (lib : SignatureLibrary) (std : StandardLibrary α)

/-- The alg, public key, body and signature of a receipt file. -/
def receiptFields (obj : List (PyStr × Json)) : Py (Int × Bytes × Bytes × Bytes) := do
  let alg ← std.intOf (← item obj algKey)
  let pubkey ← hexItem obj pubkeyKey
  let body ← hexItem obj bodyKey
  let sig ← hexItem obj sigKey
  return (alg, pubkey, body, sig)

/-- What `except (KeyError, ValueError, TypeError)` catches. -/
def isFieldError (err : Exc) : Bool := err = .keyError ∨ err.isValueError ∨ err = .typeError

def verifyReceiptBytes (data : Bytes) : Py Bool :=
  match PyStr.decode data >>= std.loads with
  | .error .unicodeDecodeError | .error (.jsonDecodeError _) => return false
  | .error err => throw err
  | .ok (.dict obj) =>
      if (obj.lookup versionKey).any equalsOne = false then return false
      else
        match receiptFields std obj with
        | .error err => if isFieldError err then return false else throw err
        | .ok (alg, pubkey, body, sig) =>
            match coseVerify1Raw lib alg pubkey body sig with
            | .error err => if err.isValueError ∨ err = .typeError then return false else throw err
            | verdict => verdict
  | .ok _ => return false

end Verifying

-----------------------------------------------------------------------------------------
-- The effect gate
-----------------------------------------------------------------------------------------

/-- A gate, whose two keys were derived when it was built. -/
structure EffectGate (lib : SignatureLibrary) where
  guardSeed : Bytes
  guardAlg : Int := algMldsa65
  guardSet : MlDsa
  guardPubkey : Bytes
  guardIdentity : PyStr
  audience : PyStr
  approverAlg : Int
  approverPubkey : Bytes
  profile : Int := 1
  approvalThreshold : Int := Policy.nonIdempotentWrite
  nonRepudiationThreshold : Int := Policy.destructive
  receiptAlg : Int
  receiptSet : MlDsa
  receiptSeed : Bytes
  receiptPubkey : Bytes
  guardRegistered : mldsa guardAlg = .ok guardSet
  guardDerived : lib.mldsaPublic guardSet guardSeed = .ok guardPubkey
  receiptRegistered : mldsa receiptAlg = .ok receiptSet
  receiptDerived : lib.mldsaPublic receiptSet receiptSeed = .ok receiptPubkey

structure GateDecision where
  carried : CarriedCall
  bridged : BridgedCall
  callBinding : CallBinding
  requiresApproval : Bool
  toolName : PyStr

/-- What `authorize_and_execute` raises, with the attributes that a denial is given. -/
structure Escaped where
  err : Exc
  receipt : Option (EffectReceipt × Bytes) := none

/-- The readings of the clock: when a call is classified, its approval verified or refused, and its
receipt minted.
-/
structure GateClock extends Clock where
  classified : Int
  minted : Int

/-- `call_request["params"]["name"]`, which is null when it cannot be read. -/
def requestName (callRequest : Json) : Json :=
  match field paramsKey callRequest with
  | some params => (field nameKey params).getD .null
  | none => .null

/-- The definition that a call is classified by: the one given if the call names it, else one
without annotations.
-/
def definitionFor (toolDefinition : Option ToolDefinition) (name : Json) : ToolDefinition :=
  match toolDefinition.filter fun definition => definition.isNamed name, name with
  | some definition, _ => definition
  | none, .str name => unknownTool name
  | none, _ => unknownTool []

/-- The handler of `classify`. -/
def guardRefusal (std : StandardLibrary α) : Exc → Exc
  | .mcpError kind msg => .guardError kind (std.excText (.mcpError kind msg))
  | .envelopeError kind msg => .guardError kind (std.excText (.envelopeError kind msg))
  | err => err

namespace EffectGate

variable {lib : SignatureLibrary} (gate : EffectGate lib)

def interceptor : HITLInterceptor where
  approverAlg := gate.approverAlg
  approverPubkey := gate.approverPubkey
  audience := gate.audience
  identity := gate.guardIdentity
  approvalThreshold := gate.approvalThreshold
  nonRepudiationThreshold := gate.nonRepudiationThreshold

def mintReceipt (cb : CallBinding) (effect : Int) (decision reason : PyStr) (resultHash : Bytes)
    (principal toolName : PyStr) (createdMs : Int) : Py EffectReceipt := do
  let callId ← cb.contentId
  return {
    toolId := cb.toolId, argsId := cb.argsId, callId, effect, decision, reason, resultHash
    principal, toolName, guardIdentity := gate.guardIdentity, createdMs
  }

/-- The receipt of an outcome, with its signature. -/
def signedReceipt (decision : GateDecision) (principal verdict reason : PyStr)
    (resultHash : Bytes) (createdMs : Int) : Py (EffectReceipt × Bytes) := do
  let receipt ← gate.mintReceipt decision.callBinding decision.bridged.enforcedEffect verdict reason
    resultHash principal decision.toolName createdMs
  let sig ← signEffectReceipt lib receipt gate.receiptAlg gate.receiptSeed
  return (receipt, sig)

variable (std : StandardLibrary α)

def classify (toolDefinition : Option ToolDefinition) (callRequest : Json) (now : Int)
    : Py GateDecision := do
  let definition := definitionFor toolDefinition (requestName callRequest)
  let (carried, bridged) ← (do
      let carried ← carryToolCallFromObjects lib std definition callRequest gate.guardSeed
        gate.guardAlg now [] gate.profile none
      let bridged ← receiveToolCall lib std carried.signedObject gate.profile gate.guardAlg
        gate.guardPubkey
      return (carried, bridged)).mapError (guardRefusal std)
  return {
    carried, bridged, callBinding := bridged.resolved.toolCall.callBinding
    requiresApproval := gate.approvalThreshold ≤ bridged.enforcedEffect
    toolName := definition.name
  }

/-- The paused action of a decision; its arguments are the call binding. -/
def pendingAction (decision : GateDecision) (forward : Py (Option α)) (principal : PyStr)
    : PendingAction (Option α) where
  kind := .lit ['m', 'c', 'p', ':', 't', 'o', 'o', 'l', 's', '/', 'c', 'a', 'l', 'l', ':']
    ++ decision.toolName
  effect := decision.bridged.enforcedEffect
  args := decision.callBinding.toMap
  execute := forward
  argsSummary := .lit ['t', 'o', 'o', 'l', '='] ++ decision.toolName
    ++ .lit [' ', 'e', 'n', 'f', 'o', 'r', 'c', 'e', 'd', '_', 'e', 'f', 'f', 'e', 'c', 't', '=']
    ++ Policy.safetyLabelName decision.bridged.enforcedEffect
    ++ .lit [' ', 'm', 'i', 's', 'm', 'a', 't', 'c', 'h', '=']
    ++ .lit (if decision.bridged.mismatch then ['T', 'r', 'u', 'e'] else ['F', 'a', 'l', 's', 'e'])
  principal := principal

/-- The human's answer to a request, and the clock, of one call. -/
structure Surroundings where
  human : ApprovalRequest → Py (Option (ApprovalRecord × Bytes))
  clock : GateClock

def interception (decision : GateDecision) (forward : Py (Option α)) (principal : PyStr)
    (around : Surroundings) : Interception (Option α) where
  self := gate.interceptor
  action := pendingAction decision forward principal
  human := around.human
  clock := around.clock.toClock

/-- The content id of what the tool returned, empty for None. -/
def resultHash : Option α → Py Bytes
  | none => return []
  | some result => return contentIdBytes (← canonicalJsonBytes std.dumpsResult result)

/-- What `authorize_and_execute` makes of the outcome of the interceptor. -/
def concluded (decision : GateDecision) (principal : PyStr) (createdMs : Int)
    : Except Raised (Option α) → Except Escaped (Option α × EffectReceipt × Bytes)
  | .error ⟨.approvalError kind msg, _⟩ => do
      let receipt ← (gate.signedReceipt decision principal decisionDenied
        (.lit kind.name.toList) [] createdMs).mapError fun err => { err }
      throw { err := .guardError kind (std.excText (.approvalError kind msg)), receipt }
  | .error raised => throw { err := raised.err }
  | .ok result =>
      (do
        let hash ← resultHash std result
        let (receipt, sig) ← gate.signedReceipt decision principal decisionExecuted
          [] hash createdMs
        return (result, receipt, sig)).mapError fun err => { err }

def authorizeAndExecute (decision : GateDecision) (forward : Py (Option α)) (principal : PyStr)
    (around : Surroundings)
    : EStateM Escaped (World (Option α)) (Option α × EffectReceipt × Bytes) := do
  let outcome ← tried (intercept lib std.reprStr
    (gate.interception decision forward principal around))
  check (gate.concluded std decision principal around.clock.minted outcome)

end EffectGate

-----------------------------------------------------------------------------------------
-- The proxy
-----------------------------------------------------------------------------------------

/-- The tool definitions that were listed, by name. -/
abbrev Tools := AList (fun _ : PyStr => ToolDefinition)

structure GuardProxy (lib : SignatureLibrary) where
  gate : EffectGate lib
  receiptsDir : Option PyStr := none
  principalOf : Option (Json → Py PyStr) := none

/-- What the calls change: the cached definitions, the interceptor's world and the receipt files. -/
structure GuardState (α : Type) where
  tools : Tools := ∅
  world : World (Option α)
  receipts : List (PyStr × Json) := []

/-- The response to a `tools/call`: a refusal for the request's id, or what the tool returned. -/
inductive Answer (α : Type) where
  | denied (reqId : Json) (text : String)
  | forwarded (result : Option α)

/-- One `tools/call`, with the downstream call that it is bound to. -/
structure ToolsCall (α : Type) where
  request : Json
  forward : Py (Option α)
  around : EffectGate.Surroundings

def definitionOf : Json → Option ToolDefinition
  | .dict entries =>
      match named : entries.lookup nameKey with
      | some (.str name) => some { entries, name, named }
      | _ => none
  | _ => none

def listedTools (response : Json) : List ToolDefinition :=
  match (field (.lit ['r', 'e', 's', 'u', 'l', 't']) response).bind
      (field (.lit ['t', 'o', 'o', 'l', 's'])) with
  | some (.list tools) => tools.filterMap definitionOf
  | _ => []

/-- `_denied_result`. -/
def deniedResult (std : StandardLibrary α) (reqId : Json) (kind : Kind) (msg : String) : Answer α :=
  .denied reqId ("naalp_guard_denied: " ++ kind.name ++ ": " ++ std.excText (.guardError kind msg))

def requestId (request : Json) : Json := (field (.lit ['i', 'd']) request).getD .null

/-- `self._tools.get(tool_name)`, which cannot hash a list or an object. -/
def Tools.get (tools : Tools) : Json → Py (Option ToolDefinition)
  | .str name => return tools.lookup name
  | .list _ | .dict _ => throw .typeError
  | _ => return none

namespace GuardProxy

variable {lib : SignatureLibrary} (proxy : GuardProxy lib) (std : StandardLibrary α)

def noteToolsListResponse (response : Json) : EStateM Exc (GuardState α) Unit :=
  modify fun state =>
    { state with
      tools := (listedTools response).foldl (fun tools t => tools.insert t.name t) state.tools }

/-- `"receipt-%s-%s.json" % …`. -/
def receiptName (r : EffectReceipt) (contentId : Bytes) : PyStr :=
  .lit (['r', 'e', 'c', 'e', 'i', 'p', 't', '-'] ++ (toString r.createdMs).toList ++ ['-']
    ++ (hex contentId).take 24 ++ ['.', 'j', 's', 'o', 'n'])

/-- The file of a receipt: the directory and name it is written under, and what is written. -/
def receiptFile (dir : PyStr) (r : EffectReceipt) (sig : Bytes) : Py (PyStr × Json) := do
  let name := receiptName r (← r.contentId)
  let file ← receiptFileDict r proxy.gate.receiptAlg proxy.gate.receiptPubkey sig
  std.write dir name file
  return (name, file)

def persistReceipt (receipt : Option (EffectReceipt × Bytes))
    : EStateM Exc (GuardState α) Unit := do
  match proxy.receiptsDir, receipt with
  | some dir, some (r, sig) => do
      let file ← check (proxy.receiptFile std dir r sig)
      modify fun state => { state with receipts := state.receipts ++ [file] }
  | _, _ => return

def principal (request : Json) : Py PyStr :=
  match proxy.principalOf with
  | some principalOf => principalOf request
  | none => return []

def gateCall (call : ToolsCall α) (tools : Tools) : Py GateDecision := do
  let definition ← tools.get (requestName call.request)
  proxy.gate.classify std definition call.request call.around.clock.classified

/-- What `handle_tools_call` makes of the outcome of the gate. -/
def concluded (reqId : Json)
    : Except Escaped (Option α × EffectReceipt × Bytes) → EStateM Exc (GuardState α) (Answer α)
  | .error ⟨.guardError kind msg, receipt⟩ => do
      proxy.persistReceipt std receipt
      return deniedResult std reqId kind msg
  | .error escaped => throw escaped.err
  | .ok (result, receipt, sig) => do
      proxy.persistReceipt std (some (receipt, sig))
      return .forwarded result

def handleToolsCall (call : ToolsCall α) : EStateM Exc (GuardState α) (Answer α) := do
  let reqId := requestId call.request
  let principal ← check (proxy.principal call.request)
  let state ← get
  match proxy.gateCall std call state.tools with
  | .error (.guardError kind msg) => return deniedResult std reqId kind msg
  | .error err => throw err
  | .ok decision =>
      let method := proxy.gate.authorizeAndExecute std decision call.forward principal call.around
      let outcome ← tried (within GuardState.world (fun state world => { state with world }) method)
      proxy.concluded std reqId outcome

end GuardProxy

end Naalp.Python.McpGuard
