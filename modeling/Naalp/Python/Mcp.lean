import Naalp.Python.Channels
import Naalp.Python.Gates

/-! The tool calls of `impl/python/naalp/mcp.py`: their annotations and bodies, and the effect that
a verified call is enforced at.
-/

namespace Naalp.Python.Mcp

open Naalp.Foundation
open Naalp.Python.Cbor
open Naalp.Python.Cose

def channelBridge : Int := 13
def kindMcpToolCall : Int := 1
def tier : Int := 1

def keyReadOnly : Int := 1
def keyDestructive : Int := 2
def keyIdempotent : Int := 3
def keyOpenWorld : Int := 4

/-- The transcribed hints; an absent hint is `none`. -/
structure Annotations where
  readOnly : Option Bool := none
  destructive : Option Bool := none
  idempotent : Option Bool := none
  openWorld : Option Bool := none
  deriving DecidableEq

/-- The pair of a hint that is present. -/
def hintPair (key : Int) (hint : Option Bool) : List (Value × Value) :=
  (hint.map fun flag => (.u key, .u (if flag then 1 else 0))).toList

def Annotations.pairs (a : Annotations) : List (Value × Value) :=
  hintPair keyReadOnly a.readOnly ++ hintPair keyDestructive a.destructive
  ++ hintPair keyIdempotent a.idempotent ++ hintPair keyOpenWorld a.openWorld

def Annotations.toValue (a : Annotations) : Value := .m a.pairs

/-- `CallBinding.to_map`. -/
def CallBinding.toMap (b : CallBinding) : Value := .m [(.u 1, .b b.toolId), (.u 2, .b b.argsId)]

def annotationMalformed (msg : String) : Exc := .mcpError .annotationMalformed msg

/-- The loop variables of `annotations_from_value`. -/
structure AnnotationsRead where
  a : Annotations := {}
  seen : List Int := []

/-- The assignment to the hint of a key. -/
def Annotations.set (a : Annotations) (key : Int) (flag : Bool) : Py Annotations :=
  if key = keyReadOnly then return { a with readOnly := some flag }
  else if key = keyDestructive then return { a with destructive := some flag }
  else if key = keyIdempotent then return { a with idempotent := some flag }
  else if key = keyOpenWorld then return { a with openWorld := some flag }
  else throw (annotationMalformed "annotation key outside the closed mapping")

def readAnnotationPair (state : AnnotationsRead) : Value × Value → Py AnnotationsRead
  | (.u key, .u hint) => do
      raiseIf (hint > 1) (annotationMalformed "annotation hint value is outside \x7b0,1\x7d")
      raiseIf (key ∈ state.seen) (annotationMalformed "duplicate annotation key")
      let a ← state.a.set key (hint = 1)
      return { a, seen := key :: state.seen }
  | (.u _, _) => throw (annotationMalformed "annotation hint value is outside \x7b0,1\x7d")
  | _ => throw (annotationMalformed "non-uint annotation key")

def annotationsFromValue : Value → Py Annotations
  | .m pairs => return (← pairs.foldlM readAnnotationPair {}).a
  | _ => throw (annotationMalformed "annotation set is not a map")

/-- The body of a tool call, whose octets the gate of `Mcp.ToolCall` binds. -/
structure ToolCallBody extends ToolCall where
  annotations : Annotations

def ToolCallBody.toMap (tc : ToolCallBody) : Value :=
  .m [(.u 1, .b tc.tool), (.u 2, .b tc.args), (.u 3, tc.annotations.toValue)]

def ToolCallBody.bytes (tc : ToolCallBody) : Py Bytes := encode tc.toMap

def toolCallMalformed (msg : String) : Exc := .mcpError .toolCallMalformed msg

/-- The fields seen so far by `tool_call_from_body`. -/
structure ToolCallFields where
  tool : Option Bytes := none
  args : Option Bytes := none
  ann : Option Annotations := none

def readToolCallField (fields : ToolCallFields) : Value × Value → Py ToolCallFields
  | (.u 1, .b tool) => return { fields with tool := some tool }
  | (.u 1, _) => throw (toolCallMalformed "tool is not a bstr")
  | (.u 2, .b args) => return { fields with args := some args }
  | (.u 2, _) => throw (toolCallMalformed "args is not a bstr")
  | (.u 3, val) => return { fields with ann := some (← annotationsFromValue val) }
  | (.u k, _) => throw (toolCallMalformed ("unknown tool-call body field " ++ toString k))
  | _ => throw (toolCallMalformed "non-uint tool-call body key")

def toolCallFromBody : Value → Py ToolCallBody
  | .m pairs => do
      match ← pairs.foldlM readToolCallField {} with
      | ⟨some tool, some args, some annotations⟩ => return { tool, args, annotations }
      | _ => throw (toolCallMalformed "tool-call body missing a mandatory field")
  | _ => throw (toolCallMalformed "tool-call body is not a map")

-----------------------------------------------------------------------------------------
-- Effects
-----------------------------------------------------------------------------------------

/-- The published table; an absent hint takes its default, which for `destructive` is true. -/
def mapAnnotationsToEffect (a : Annotations) : Int :=
  if a.readOnly.getD false then Policy.readOnly
  else if a.destructive.getD true then Policy.destructive
  else if a.idempotent.getD false then Policy.idempotentWrite
  else Policy.nonIdempotentWrite

def outsideLattice (msg : String) : Exc := .mcpError .effectOutsideLattice msg

/-- The enforced effect, and whether the declared one differs from the annotations'. -/
def resolveEnforcedEffect (annotationMapped declared : Int) : Py (Int × Bool) := do
  raiseIf (declared > Policy.destructive)
    (outsideLattice "declared effect outside the closed four-effect lattice")
  raiseIf (declared < annotationMapped) (.mcpError .effectUnderDeclared
    "declared effect is below the annotation-mapped effect")
  return (declared, declared ≠ annotationMapped)

-----------------------------------------------------------------------------------------
-- Signed tool calls
-----------------------------------------------------------------------------------------

/-- `envelope_object`: the unsigned object that carries a tool call. -/
def ToolCallBody.envelopeObject (tc : ToolCallBody) (signer : Bytes)
    (created profile declared : Int) (causes : List Bytes) : Py Envelope.Object := do
  raiseIf (declared > Policy.destructive)
    (outsideLattice "declared effect outside the closed lattice")
  return {
    id := none, kind := kindMcpToolCall, channel := channelBridge, tier, signer, created
    effect := declared, causes, profile, body := tc.toMap, ext := none, cext := none
    audience := [], suite := 0
  }

def kindValidator (channel kind : Int) : Bool := channel = channelBridge ∧ kind = kindMcpToolCall

/-- `_baseline_kind_validator`. -/
def baselineKindValidator (channel kind : Int) : Bool := (Channels.lookup channel kind).isOk

def composedKindValidator (channel kind : Int) : Bool :=
  baselineKindValidator channel kind || kindValidator channel kind

/-- A verified tool call with its effects. -/
structure ResolvedCall extends Resolved where
  contentId : Option Bytes
  signer : Bytes
  annotations : Annotations
  annotationMapped : Int
  declared : Int
  mismatch : Bool

def verifyToolCall (lib : SignatureLibrary) (profile alg : Int) (pubkey signedObj : Bytes)
    : Py ResolvedCall := do
  let o ← Envelope.verify lib profile alg pubkey (some composedKindValidator) signedObj []
  raiseIf (o.channel ≠ channelBridge ∨ o.kind ≠ kindMcpToolCall ∨ o.tier ≠ tier)
    (toolCallMalformed "not a tier-1 Bridge McpToolCall")
  let tc ← toolCallFromBody o.body
  let annotationMapped := mapAnnotationsToEffect tc.annotations
  let (enforced, mismatch) ← resolveEnforcedEffect annotationMapped o.effect
  return {
    toolCall := tc.toToolCall, enforced, contentId := o.id, signer := o.signer
    annotations := tc.annotations, annotationMapped, declared := o.effect, mismatch
  }

end Naalp.Python.Mcp
