import Naalp.Authorization.GateAgreement
import Naalp.Authorization.HumanApproval
import Naalp.Bodies.ToolCalls
import Naalp.Envelope.Resigning
import Naalp.Python.McpGuard

/-! The calls of the MCP guard's proxy. A call is classified by what the listed definition of its
tool transcribes to, and is forwarded only below the threshold or when an approval that is bound to
its definition and arguments is spent for it.
-/

namespace Naalp.Authorization

open Naalp.Bodies
open Naalp.Foundation
open Naalp.ConsumeLedger
open Naalp.Python
open Naalp.Python.Approval
open Naalp.Python.Cbor
open Naalp.Python.Cose
open Naalp.Python.Hitl
open Naalp.Python.Mcp
open Naalp.Python.McpGuard
open Naalp.Python.MixedMode (Json)

-----------------------------------------------------------------------------------------
-- What a classified call carries
-----------------------------------------------------------------------------------------

section Carrying

variable {lib : SignatureLibrary} {tc : ToolCallBody} {o : Envelope.Object} {signer : Bytes}
  {created profile declared : Int}

/-- A tool call that is verified from the octets that were signed for it is the one that was signed,
and is enforced at the declared effect.
-/
theorem verified_toolCall {alg profile' anyAlg : Int} {seed pubkey data : Bytes}
    {resolved : ResolvedCall}
    (composed : tc.envelopeObject signer created profile declared [] = .ok o)
    (returned : Envelope.sign lib o alg seed = .ok data)
    (verified : verifyToolCall lib profile' anyAlg pubkey data = .ok resolved)
    : resolved.toolCall = tc.toToolCall ∧ resolved.enforced = declared := by
  obtain ⟨-, same⟩ := raiseIf_bind_eq_ok.mp composed
  obtain rfl := Except.ok.inj same
  simp only [verifyToolCall, bind_eq_ok, raiseIf_eq_ok, exists_const, resolveEnforcedEffect]
    at verified
  obtain ⟨o, accepted, -, read, parsed, effects, ⟨-, -, effect⟩, same⟩ := verified
  obtain rfl := Except.ok.inj same
  obtain rfl := Except.ok.inj effect
  obtain ⟨-, id, rfl⟩ := Envelope.eq_of_verified returned accepted
  have body : sortMaps tc.toMap = tc.toMap := (toolCall_inOrder tc).ascending.sortMaps_eq
  have again : toolCallFromBody tc.toMap = .ok tc := toolCall_inverse.read trivial
  have recovered : toolCallFromBody (sortMaps tc.toMap) = .ok read := parsed
  rw [body, again] at recovered
  obtain rfl := Except.ok.inj recovered
  exact ⟨rfl, rfl⟩

end Carrying

section Classifying

variable {α : Type} {lib : SignatureLibrary} {std : StandardLibrary α}

/-- The tool call that a request is carried as: the canonical octets of the definition that it names
and of its arguments, and the annotations that those of the definition transcribe to.
-/
structure Carries (std : StandardLibrary α) (definition : ToolDefinition) (callRequest : Json)
    (tc : ToolCallBody) : Prop where
  named : definition.isNamed (requestName callRequest) = true
  tool : canonicalJsonBytes std.dumps (.dict definition.entries) = .ok tc.tool
  args : ∃ params, field paramsKey callRequest = some (.dict params)
    ∧ canonicalJsonBytes std.dumps ((params.lookup argumentsKey).getD (.dict [])) = .ok tc.args
  annotated : toolAnnotations std tc.tool = .ok tc.annotations

theorem requestName_eq {callRequest name : Json} {params : List (PyStr × Json)}
    (present : field paramsKey callRequest = some (.dict params))
    (named : params.lookup nameKey = some name) : requestName callRequest = name := by
  rw [requestName, present]
  simp only [field, named, Option.getD_some]

/-- What a request is carried as: a tool call that carries it, in an object that was signed for
that call.
Witness: each step of the carrying is read off in the order in which it is made.
-/
theorem carryToolCallFromObjects_eq_ok {definition : ToolDefinition} {callRequest : Json}
    {seed : Bytes} {alg created profile : Int} {carried : CarriedCall}
    (returned : carryToolCallFromObjects lib std definition callRequest seed alg created
      [] profile none
      = .ok carried)
    : ∃ tc signer o, Carries std definition callRequest tc
      ∧ tc.envelopeObject signer created profile (mapAnnotationsToEffect tc.annotations) [] = .ok o
      ∧ Envelope.sign lib o alg seed = .ok carried.signedObject := by
  unfold carryToolCallFromObjects at returned
  split at returned
  · rename_i params present
    split at returned
    · rename_i name found
      split at returned
      · simp only [bind_eq_ok, throw_eq_error, reduceCtorEq, and_false, exists_false] at returned
      · rename_i named
        rw [Bool.not_eq_false] at named
        simp only [bind_eq_ok, carryToolCall, pure_eq_ok, Option.getD_none] at returned
        obtain ⟨tool, toolOctets, args, argsOctets, annotations, annotated, set, -, signer, -, o,
          composed, signed, signing, _, -, same⟩ := returned
        obtain rfl := Except.ok.inj same
        refine ⟨⟨⟨tool, args⟩, annotations⟩, signer, o, ?_, composed, signing⟩
        exact ⟨(requestName_eq present found).symm ▸ named, toolOctets,
          ⟨params, present, argsOctets⟩, annotated⟩
    · cases returned
  · cases returned

theorem receiveToolCall_eq_ok {signedObject pubkey : Bytes} {profile alg : Int}
    {bridged : BridgedCall} (returned : receiveToolCall lib std signedObject profile alg pubkey
      = .ok bridged)
    : verifyToolCall lib profile alg pubkey signedObject = .ok bridged.resolved
      ∧ bridged.enforcedEffect = bridged.resolved.enforced := by
  simp only [receiveToolCall, bind_eq_ok, pure_eq_ok] at returned
  obtain ⟨resolved, verified, _, -, _, -, _, -, same⟩ := returned
  obtain rfl := Except.ok.inj same
  exact ⟨verified, rfl⟩

/-- A classified call is bound to the octets that it carries, and enforced at what its annotations
map to.
-/
theorem classify_eq_ok {gate : EffectGate lib} {toolDefinition : Option ToolDefinition}
    {callRequest : Json} {now : Int} {decision : GateDecision}
    (returned : gate.classify std toolDefinition callRequest now = .ok decision)
    : ∃ tc, Carries std (definitionFor toolDefinition (requestName callRequest)) callRequest tc
      ∧ decision.callBinding = tc.callBinding
      ∧ decision.bridged.enforcedEffect = mapAnnotationsToEffect tc.annotations := by
  simp only [EffectGate.classify, bind_eq_ok, Prod.exists, pure_eq_ok, mapError_eq_ok] at returned
  obtain ⟨_, bridged, ⟨carried, carrying, _, receiving, same⟩, settled⟩ := returned
  obtain ⟨rfl, rfl⟩ := Prod.mk.inj (Except.ok.inj same)
  obtain rfl := Except.ok.inj settled
  obtain ⟨tc, signer, o, carries, composed, signed⟩ := carryToolCallFromObjects_eq_ok carrying
  obtain ⟨verified, enforced⟩ := receiveToolCall_eq_ok receiving
  obtain ⟨recovered, effect⟩ := verified_toolCall composed signed verified
  refine ⟨tc, carries, ?_, enforced.trans effect⟩
  exact congrArg ToolCall.callBinding recovered

/-- Reading back what was written of the definition without annotations for a name, as a JSON parser
does.
-/
def ReadsBack (std : StandardLibrary α) (name : PyStr) : Prop :=
  ∀ text, std.dumps (.dict (unknownTool name).entries) = .ok text
    → std.loads text = .ok (.dict (unknownTool name).entries)

/-- The definition that stands in for an unknown tool has no annotations. -/
theorem toolAnnotations_unknownTool {name : PyStr} (reads : ReadsBack std name) {octets : Bytes}
    (written : canonicalJsonBytes std.dumps (.dict (unknownTool name).entries) = .ok octets)
    : toolAnnotations std octets = .ok {} := by
  simp only [canonicalJsonBytes, bind_eq_ok] at written
  obtain ⟨text, dumped, encoded⟩ := written
  have parsed : PyStr.decode octets >>= std.loads = .ok (.dict (unknownTool name).entries) := by
    rw [PyStr.decode_of_encode encoded, ok_bind, reads text dumped]
  have read : parseToolDefinition std octets = .ok (unknownTool name).entries := by
    rw [parseToolDefinition, decodeJson, parsed]
    rfl
  rw [toolAnnotations, read]
  rfl

/-- A call that its definition does not name is classified as destructive.
Witness: without a definition of that name the annotations are those of the unknown tool, which
are absent.
-/
theorem enforced_unknown {gate : EffectGate lib} {toolDefinition : Option ToolDefinition}
    {callRequest : Json} {now : Int} {decision : GateDecision}
    (reads : ∀ name, requestName callRequest = .str name → ReadsBack std name)
    (unnamed : ∀ definition ∈ toolDefinition, definition.isNamed (requestName callRequest) = false)
    (returned : gate.classify std toolDefinition callRequest now = .ok decision)
    : decision.bridged.enforcedEffect = Policy.destructive := by
  obtain ⟨tc, carries, -, enforced⟩ := classify_eq_ok returned
  have absent
      : (toolDefinition.filter fun definition => definition.isNamed (requestName callRequest))
      = none := by
    cases toolDefinition with
    | none => rfl
    | some definition => simp [Option.filter, unnamed definition rfl]
  have named := carries.named
  have tool := carries.tool
  unfold definitionFor at named tool
  rw [absent] at named tool
  cases requested : requestName callRequest with
  | str name =>
      rw [requested] at tool
      have plain := toolAnnotations_unknownTool (reads name requested) tool
      have absentHints := Except.ok.inj (plain.symm.trans carries.annotated)
      rw [enforced, ← absentHints]
      rfl
  | _ =>
      rw [requested] at named
      cases named

end Classifying

-----------------------------------------------------------------------------------------
-- One call of the proxy
-----------------------------------------------------------------------------------------

section Calls

variable {α : Type} {lib : SignatureLibrary}

/-- What reaches the proxy: the response to a listing of tools, or a call of one. -/
inductive ProxyCall (α : Type) where
  | listed (response : Json)
  | toolsCall (call : ToolsCall α)

variable (proxy : GuardProxy lib) (std : StandardLibrary α)

def handle : ProxyCall α → EStateM Exc (GuardState α) (Option (Answer α))
  | .listed response => do
      GuardProxy.noteToolsListResponse response
      return none
  | .toolsCall call => do return some (← proxy.handleToolsCall std call)

/-- The interception that a call makes, if it is classified. -/
def interceptionOf (tools : Tools) (call : ToolsCall α) : Option (Interception (Option α)) :=
  match proxy.principal call.request, proxy.gateCall std call tools with
  | .ok principal, .ok decision =>
      some (proxy.gate.interception decision call.forward principal call.around)
  | _, _ => none

variable {proxy std}

/-- Persisting a receipt changes neither the cache nor the interceptor's world. -/
theorem persistReceipt_keeps {receipt : Option (EffectReceipt × Bytes)} {state : GuardState α}
    : (settle (proxy.persistReceipt std receipt state)).2.tools = state.tools
      ∧ (settle (proxy.persistReceipt std receipt state)).2.world = state.world := by
  unfold GuardProxy.persistReceipt
  rcases proxy.receiptsDir with _ | dir
  · exact ⟨rfl, rfl⟩
  rcases receipt with _ | ⟨r, sig⟩
  · exact ⟨rfl, rfl⟩
  cases written : proxy.receiptFile std dir r sig with
  | error err =>
      simp only [written]
      exact ⟨rfl, rfl⟩
  | ok file =>
      simp only [written]
      exact ⟨rfl, rfl⟩

/-- What follows the persisting of a receipt keeps them too. -/
theorem persistReceipt_then_keeps {β : Type} {receipt : Option (EffectReceipt × Bytes)}
    {state : GuardState α} {value : β}
    : (settle ((do proxy.persistReceipt std receipt; return value : EStateM Exc (GuardState α) β)
          state)).2
      = (settle (proxy.persistReceipt std receipt state)).2 := by
  cases persisted : proxy.persistReceipt std receipt state with
  | ok done after =>
      rw [bind_of_ok persisted]
      rfl
  | error err after =>
      rw [bind_of_error persisted]
      rfl

/-- Concluding a call changes neither the cache nor the world; only an answer is recorded. -/
theorem concluded_keeps {reqId : Json} {outcome : Except Escaped (Option α × EffectReceipt × Bytes)}
    {state : GuardState α}
    : (settle (proxy.concluded std reqId outcome state)).2.tools = state.tools
      ∧ (settle (proxy.concluded std reqId outcome state)).2.world = state.world := by
  rcases outcome with ⟨err, receipt⟩ | ⟨result, receipt, sig⟩
  · cases err with
    | guardError kind msg =>
        rw [GuardProxy.concluded, persistReceipt_then_keeps]
        exact persistReceipt_keeps
    | _ => exact ⟨rfl, rfl⟩
  · rw [GuardProxy.concluded, persistReceipt_then_keeps]
    exact persistReceipt_keeps

theorem authorizeAndExecute_eq {gate : EffectGate lib} {decision : GateDecision}
    {forward : Py (Option α)} {principal : PyStr} {around : EffectGate.Surroundings}
    {world : World (Option α)}
    : settle (gate.authorizeAndExecute std decision forward principal around world)
      = (gate.concluded std decision principal around.clock.minted
          (respond (intercept lib std.reprStr) world
            (gate.interception decision forward principal around)).1,
        (respond (intercept lib std.reprStr) world
          (gate.interception decision forward principal around)).2) := by
  rw [EffectGate.authorizeAndExecute, tried_bind]
  unfold respond check
  split <;> simp_all [settle]

/-- A call leaves the cache, and the world too unless it makes an interception, which then changes
the world alone.
-/
theorem handleToolsCall_keeps {state : GuardState α} {call : ToolsCall α}
    : (settle (proxy.handleToolsCall std call state)).2.tools = state.tools
      ∧ (settle (proxy.handleToolsCall std call state)).2.world
        = match interceptionOf proxy std state.tools call with
          | none => state.world
          | some i => (respond (intercept lib std.reprStr) state.world i).2 := by
  unfold GuardProxy.handleToolsCall interceptionOf
  cases named : proxy.principal call.request with
  | error err =>
      rw [check_bind_of_error rfl]
      exact ⟨rfl, rfl⟩
  | ok principal =>
      rw [check_bind_of_ok rfl, get_bind]
      cases gated : proxy.gateCall std call state.tools with
      | error err => cases err <;> exact ⟨rfl, rfl⟩
      | ok decision =>
          simp only
          rw [tried_bind, settle_within, authorizeAndExecute_eq]
          exact concluded_keeps

theorem interceptionOf_eq_some {tools : Tools} {call : ToolsCall α} {i : Interception (Option α)}
    (intercepts : interceptionOf proxy std tools call = some i)
    : ∃ principal decision, proxy.gateCall std call tools = .ok decision
      ∧ i = proxy.gate.interception decision call.forward principal call.around := by
  unfold interceptionOf at intercepts
  split at intercepts
  · rename_i principal decision _ gated
    exact ⟨principal, decision, gated, (Option.some.inj intercepts).symm⟩
  · cases intercepts

theorem gateCall_eq_ok {tools : Tools} {call : ToolsCall α} {decision : GateDecision}
    (gated : proxy.gateCall std call tools = .ok decision)
    : ∃ definition, tools.get (requestName call.request) = .ok definition
      ∧ proxy.gate.classify std definition call.request call.around.clock.classified
        = .ok decision :=
  bind_eq_ok.mp gated

/-- An approval that is bound to the call is spent between two ledgers; the human answered with it.
-/
def SpendsBound (lib : SignatureLibrary) (gate : EffectGate lib) (before after : Ledger)
    (call : ToolsCall α) (binding : CallBinding) (effect : Int) : Prop :=
  ∃ bindingId request record sig body, binding.contentId = .ok bindingId
    ∧ request.contentId = bindingId ∧ request.effect = effect
    ∧ call.around.human request = .ok (some (record, sig))
    ∧ Authorizes lib gate.interceptor call.around.clock.verified record sig bindingId effect body
    ∧ contentIdBytes body ∉ spentIds before ∧ contentIdBytes body ∈ spentIds after

/-- What is promised of a call: it forwards at most once, and only when its effect is below the
threshold or an approval that is bound to what the request is carried as is spent for it.
-/
structure GatedCall (proxy : GuardProxy lib) (std : StandardLibrary α) (before : GuardState α)
    (call : ToolsCall α) (after : GuardState α) : Prop where
  once : after.world.executed = before.world.executed
    ∨ ∃ action, action.execute = call.forward
      ∧ after.world.executed = before.world.executed ++ [action]
  admitted : after.world.executed ≠ before.world.executed
    → ∃ decision definition tc, proxy.gateCall std call before.tools = .ok decision
      ∧ Carries std definition call.request tc
      ∧ (decision.bridged.enforcedEffect < proxy.gate.approvalThreshold
        ∨ SpendsBound lib proxy.gate before.world.ledger after.world.ledger call tc.callBinding
          decision.bridged.enforcedEffect)

/-- What is promised of an event: a listing forwards nothing, and a call is gated. -/
def GatedEvent (proxy : GuardProxy lib) (std : StandardLibrary α)
    (event : Event (GuardState α) (ProxyCall α) (Except Exc (Option (Answer α)))) : Prop :=
  match event.call with
  | .listed _ => event.after.world = event.before.world
  | .toolsCall call => GatedCall proxy std event.before call event.after

/-- Every call is gated as promised.
Witness: the method is taken apart at each of its awaits; only the interception changes the
world, and what it is asked comes from the classification.
-/
theorem gatedCall {state : GuardState α} {call : ToolsCall α}
    : GatedCall proxy std state call (settle (proxy.handleToolsCall std call state)).2 := by
  have world := (@handleToolsCall_keeps _ _ proxy std state call).2
  cases intercepts : interceptionOf proxy std state.tools call with
  | none =>
      rw [intercepts] at world
      constructor
      · exact .inl (by rw [world])
      · intro changed
        exact absurd (by rw [world]) changed
  | some i =>
      rw [intercepts] at world
      simp only at world
      obtain ⟨principal, decision, gated, rfl⟩ := interceptionOf_eq_some intercepts
      have guarded := (@intercepted _ lib std.reprStr state.world
        (proxy.gate.interception decision call.forward principal call.around)).guarded
      rw [← world] at guarded
      constructor
      · exact guarded.once.imp_right fun ran => ⟨_, rfl, ran⟩
      · intro changed
        have ran := guarded.once.resolve_left changed
        obtain ⟨definition, -, classified⟩ := gateCall_eq_ok gated
        obtain ⟨tc, carries, binding, -⟩ := classify_eq_ok classified
        refine ⟨decision, _, tc, gated, carries, ?_⟩
        rcases guarded.exactly.mp ran with below | spends
        · exact .inl below
        · right
          obtain ⟨aid, ⟨bindingId, record, sig, body, answer, authorizes, rfl⟩, unspent, spent⟩ :=
            spends
          simp only [asked, bind_eq_ok, pure_eq_ok] at answer
          obtain ⟨argsId, computed, _, answered, same⟩ := answer
          obtain ⟨rfl, rfl⟩ := Prod.mk.inj (Except.ok.inj same)
          have bound : tc.callBinding.contentId = .ok argsId := binding ▸ computed
          refine ⟨argsId, _, record, sig, body, bound, rfl, rfl, answered, authorizes, unspent, ?_⟩
          simp only at spent
          rw [spent]
          exact (AList.mem_insert _).mpr (.inl rfl)

-----------------------------------------------------------------------------------------
-- Runs of the proxy
-----------------------------------------------------------------------------------------

/-- Every cached definition was listed, by induction over the definitions of a response. -/
theorem lookup_listed {listed : List ToolDefinition} {tools : Tools} {name : PyStr}
    {t : ToolDefinition}
    (cached : (listed.foldl (fun tools t => tools.insert t.name t) tools).lookup name = some t)
    : t ∈ listed ∨ tools.lookup name = some t := by
  induction listed generalizing tools with
  | nil => exact .inr cached
  | cons first rest ih =>
      rcases ih cached with later | before
      · exact .inl (List.mem_cons_of_mem _ later)
      · by_cases same : name = first.name
        · subst same
          rw [AList.lookup_insert] at before
          exact .inl (Option.some.inj before ▸ List.mem_cons_self)
        · rw [AList.lookup_insert_ne same] at before
          exact .inr before

def CachesListed (calls : List (ProxyCall α)) (state : GuardState α) : Prop :=
  ∀ name t, state.tools.lookup name = some t
    → ∃ response, .listed response ∈ calls ∧ t ∈ listedTools response

/-- A call leaves the proxy in the state in which its method settles. -/
theorem respond_toolsCall {state : GuardState α} {call : ToolsCall α}
    : (respond (handle proxy std) state (.toolsCall call)).2
      = (settle (proxy.handleToolsCall std call state)).2 := by
  unfold respond handle
  cases called : proxy.handleToolsCall std call state with
  | ok value after =>
      simp only
      rw [bind_of_ok called]
      rfl
  | error err after =>
      simp only
      rw [bind_of_error called]
      rfl

/-- After a request the cache still holds the last listing and nothing else. -/
theorem cachesListed_step {calls : List (ProxyCall α)} {state : GuardState α} {call : ProxyCall α}
    (caches : CachesListed calls state)
    : CachesListed (calls ++ [call]) (respond (handle proxy std) state call).2 := by
  intro name t cached
  cases call with
  | listed response =>
      rcases lookup_listed cached with new | old
      · exact ⟨response, List.mem_append_right _ List.mem_cons_self, new⟩
      · obtain ⟨response', earlier, member⟩ := caches name t old
        exact ⟨response', List.mem_append_left _ earlier, member⟩
  | toolsCall call =>
      rw [respond_toolsCall, handleToolsCall_keeps.1] at cached
      obtain ⟨response, earlier, member⟩ := caches name t cached
      exact ⟨response, List.mem_append_left _ earlier, member⟩

theorem cachesListed (world : World (Option α)) (calls : List (ProxyCall α))
    : CachesListed calls (finalState (respond (handle proxy std)) { world } calls) := by
  apply finalState_history
  · intro name t cached
    cases cached
  · intro before state call caches
    exact cachesListed_step caches

/-- The id of the approval that lets a call forward, if it needed one. -/
def approvalOf (proxy : GuardProxy lib) (std : StandardLibrary α)
    (event : Event (GuardState α) (ProxyCall α) (Except Exc (Option (Answer α)))) : Option Bytes :=
  match event.call with
  | .listed _ => none
  | .toolsCall call =>
      (interceptionOf proxy std event.before.tools call).bind fun i =>
        approvalUsed (answer (respond (intercept lib std.reprStr)) event.before.world i)

/-- No request takes an id off the ledger. -/
theorem world_grows {state : GuardState α} {call : ProxyCall α}
    : spentIds state.world.ledger
      ⊆ spentIds (respond (handle proxy std) state call).2.world.ledger := by
  cases call with
  | listed response => exact fun _ spent => spent
  | toolsCall call =>
      rw [respond_toolsCall, handleToolsCall_keeps.2]
      split
      · exact fun _ spent => spent
      · exact intercepted.grows

/-- The approval of a call that forwarded was fresh before the call, and is spent after it. -/
theorem approval_spent {state : GuardState α} {call : ProxyCall α} {aid : Bytes}
    (used : approvalOf proxy std (answer (respond (handle proxy std)) state call) = some aid)
    : aid ∉ spentIds state.world.ledger
      ∧ aid ∈ spentIds (respond (handle proxy std) state call).2.world.ledger := by
  cases call with
  | listed response => cases used
  | toolsCall call =>
      obtain ⟨i, intercepts, used⟩ := Option.bind_eq_some_iff.mp used
      have world := (@handleToolsCall_keeps _ _ proxy std state call).2
      rw [show interceptionOf proxy std state.tools call = some i from intercepts] at world
      rw [respond_toolsCall, world]
      exact intercepted.spends used

/-- The request's tool is named by no definition that was listed. -/
def Unlisted (calls : List (ProxyCall α)) (request : Json) : Prop :=
  ∀ response, .listed response ∈ calls → ∀ t ∈ listedTools response,
    t.isNamed (requestName request) = false

/-- A tool that was never listed is enforced as destructive.
Witness: the cache has no entry under its name, so its definition is the one that stands in for
an unknown tool.
-/
theorem enforced_unlisted (reads : ∀ name, ReadsBack std name) {calls : List (ProxyCall α)}
    {state : GuardState α} {call : ToolsCall α} {decision : GateDecision}
    (caches : CachesListed calls state) (unlisted : Unlisted calls call.request)
    (gated : proxy.gateCall std call state.tools = .ok decision)
    : decision.bridged.enforcedEffect = Policy.destructive := by
  obtain ⟨definition, got, classified⟩ := gateCall_eq_ok gated
  refine enforced_unknown (fun name _ => reads name) ?_ classified
  intro t given
  obtain rfl := Option.mem_def.mp given
  unfold Tools.get at got
  split at got
  · rename_i name requested
    obtain ⟨response, member, listed⟩ := caches name t (Except.ok.inj got)
    exact unlisted response member t listed
  · cases got
  · cases got
  · cases Except.ok.inj got

end Calls

def sampleName : PyStr := .lit ['r', 'm']

/-- What the compact writer makes of the definition of an unknown tool with that name. -/
def sampleText : PyStr :=
  .lit ['\x7b', '"', 'n', 'a', 'm', 'e', '"', ':', '"', 'r', 'm', '"', '\x7d']

def emptyText : PyStr := .lit ['\x7b', '\x7d']

/-- A library that writes and reads that definition and the empty arguments. -/
def sampleStd : McpGuard.StandardLibrary Unit where
  loads text :=
    if text = sampleText then .ok (.dict (unknownTool sampleName).entries)
    else if text = emptyText then .ok (.dict [])
    else throw (.jsonDecodeError "Expecting value: line 1 column 1 (char 0)")
  intOfStr _ := throw (.valueError "invalid literal for int() with base 10")
  strOf _ := []
  excText _ := ""
  httpDate _ := throw .overflowError
  dumps
    | .dict [(key, .str name)] =>
        if key = nameKey ∧ name = sampleName then .ok sampleText else throw .recursionError
    | .dict [] => .ok emptyText
    | _ => throw .recursionError
  dumpsResult _ := throw .typeError
  repr _ := .ok ""
  reprStr _ := ""
  write _ _ _ := .ok ()

/-- The sample JSON functions read back what they write, for the one name that they know. -/
theorem sampleStd_reads (name : PyStr) : ReadsBack sampleStd name := by
  intro text dumped
  simp only [sampleStd, unknownTool] at dumped
  split at dumped
  · rename_i same
    obtain rfl := Except.ok.inj dumped
    rw [same.2]
    rfl
  · cases dumped

def sampleGate : EffectGate digestLibrary where
  guardSeed := [9]
  guardSet := .mlDsa65
  guardPubkey := fitTo mldsa65PubSize [9]
  guardIdentity := .lit ['g']
  audience := .lit ['g']
  approverAlg := algMldsa65
  approverPubkey := fitTo mldsa65PubSize [7]
  receiptAlg := algMldsa65
  receiptSet := .mlDsa65
  receiptSeed := [9]
  receiptPubkey := fitTo mldsa65PubSize [9]
  guardRegistered := rfl
  guardDerived := rfl
  receiptRegistered := rfl
  receiptDerived := rfl

/-- A call of a tool that nobody listed, which the human declines. -/
def sampleCall : ToolsCall Unit where
  request := .dict [(paramsKey, .dict [(nameKey, .str sampleName)])]
  forward := .ok none
  around := { human := fun _ => .ok none, clock := ⟨⟨1, 2⟩, 0, 3⟩ }

def sampleProxy : GuardProxy digestLibrary where
  gate := sampleGate

end Naalp.Authorization
