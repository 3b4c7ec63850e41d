import Mathlib.Data.List.AList
import Naalp.Foundation.CycleCheck
import Naalp.Python.Policy

/-! The channel registry of `impl/python/naalp/channels.py`, and its check of coordinate frames. The
Go registry lists the same kinds, and its walk over the frames is the same on other names.
-/

namespace Naalp.Python.Channels

open Naalp.Foundation

/-- An object kind of a channel: its code, its name, its declared effect, and whether the effect
is set by the object instead.
-/
structure KindSpec where
  code : Int
  name : String
  effect : Int
  variable_ : Bool
  deriving DecidableEq, Repr

private def ro : Int := Policy.readOnly
private def iw : Int := Policy.idempotentWrite
private def niw : Int := Policy.nonIdempotentWrite
private def de : Int := Policy.destructive

/-- `TABLE`: the kinds of each channel, by channel id. -/
def table : List (Int × List KindSpec) :=
  [
    -- Control
    (0x0000, [⟨0, "Hello", ro, false⟩, ⟨1, "Bye", iw, false⟩, ⟨2, "Ack", ro, false⟩,
      ⟨3, "Error", ro, false⟩]),
    -- Memory
    (0x0001, [⟨0, "MemoryOffer", iw, false⟩, ⟨1, "MemoryAccept", iw, false⟩,
      ⟨2, "MemoryWrite", niw, false⟩, ⟨3, "MemoryRead", ro, false⟩,
      ⟨4, "MemoryExpire", de, false⟩, ⟨5, "MemoryRevoke", de, false⟩]),
    -- Capability
    (0x0002, [⟨0, "CapIssue", niw, false⟩, ⟨1, "CapDelegate", niw, false⟩,
      ⟨2, "CapRevoke", de, false⟩, ⟨3, "CapLookup", ro, false⟩]),
    -- Identity
    (0x0003, [⟨0, "Rotation", niw, false⟩, ⟨1, "Revocation", de, false⟩,
      ⟨2, "ForeignLink", iw, false⟩, ⟨3, "KeyAnnounce", ro, false⟩]),
    -- Governance
    (0x0004, [⟨0, "PolicyPublish", niw, false⟩, ⟨1, "Approval", niw, false⟩,
      ⟨2, "ApprovalHeld", ro, false⟩, ⟨3, "Consume", niw, false⟩,
      ⟨4, "GatewayDecision", niw, false⟩, ⟨5, "DecisionRecord", niw, false⟩,
      ⟨6, "EgressAttestation", niw, false⟩, ⟨7, "HazardAuthorization", niw, false⟩]),
    -- Immune
    (0x0005, [⟨0, "AnomalyReport", ro, false⟩, ⟨1, "Quarantine", de, false⟩,
      ⟨2, "QuarantineLift", niw, false⟩]),
    -- Federation
    (0x0006, [⟨0, "AuthorityAnnounce", ro, false⟩, ⟨1, "ScopeReceipt", niw, false⟩]),
    -- Settlement
    (0x0007, [⟨0, "SettleIntent", niw, false⟩, ⟨1, "SettleReceipt", niw, false⟩,
      ⟨2, "SettleReject", iw, false⟩, ⟨3, "PaymentImport", niw, false⟩,
      ⟨4, "PaymentChargeBinding", niw, false⟩]),
    -- Compliance
    (0x0008, [⟨0, "ComplianceRecord", niw, false⟩, ⟨1, "ComplianceQuery", ro, false⟩,
      ⟨2, "ComplianceReport", ro, false⟩]),
    -- Sensory
    (0x0009, [⟨0, "Observation", ro, false⟩, ⟨1, "Subscribe", iw, false⟩,
      ⟨2, "Unsubscribe", iw, false⟩]),
    -- Telemetry
    (0x000A, [⟨0, "Metric", ro, false⟩, ⟨1, "HealthReport", ro, false⟩]),
    -- Audit
    (0x000B, [⟨0, "Receipt", niw, false⟩, ⟨1, "AuditQuery", ro, false⟩,
      ⟨2, "ForkProof", ro, false⟩, ⟨3, "CheckpointRoot", niw, false⟩,
      ⟨4, "WitnessCosign", niw, false⟩, ⟨5, "InclusionProof", ro, false⟩]),
    -- Stream
    (0x000C, [⟨0, "StreamOpen", ro, true⟩, ⟨1, "StreamCommit", ro, false⟩,
      ⟨2, "StreamCheckpoint", ro, false⟩]),
    -- Bridge
    (0x000D, [⟨0, "Carriage", ro, true⟩]),
    -- Commerce
    (0x000E, [⟨0, "Offer", ro, false⟩, ⟨1, "Order", niw, false⟩, ⟨2, "Fulfil", niw, false⟩,
      ⟨3, "Cancel", de, false⟩]),
    -- Interaction
    (0x000F, [⟨0, "Elicit", ro, false⟩, ⟨1, "Respond", iw, false⟩, ⟨2, "Confirm", niw, false⟩,
      ⟨3, "UiEvent", niw, false⟩]),
    -- Discovery
    (0x0010, [⟨0, "DiscoveryRecord", ro, false⟩, ⟨1, "DiscoveryQuery", ro, false⟩]),
    -- Workflow
    (0x0011, [⟨0, "TaskCreate", niw, false⟩, ⟨1, "TaskInput", niw, false⟩,
      ⟨2, "TaskCancel", de, false⟩, ⟨3, "TaskResult", niw, false⟩]),
    -- Knowledge
    (0x0012, [⟨0, "Assert", niw, false⟩, ⟨1, "Retract", de, false⟩,
      ⟨2, "KnowledgeQuery", ro, false⟩]),
    -- Spatial
    (0x0013, [⟨0, "FrameDefine", iw, false⟩, ⟨1, "Pose", ro, false⟩,
      ⟨2, "StateUpdate", ro, false⟩, ⟨3, "SnapshotQuery", ro, false⟩])
  ]

/-- `"%04x" % n`. -/
def hexWord (n : Int) : String :=
  let digits := Nat.toDigits 16 n.natAbs
  String.ofList (if n < 0 then '-' :: digits.leftpad 3 '0' else digits.leftpad 4 '0')

/-- `lookup`, with the channel id in hexadecimal in its errors. -/
def lookup (channel kind : Int) : Py KindSpec := do
  let some kinds := table.lookup channel
    | throw (.channelsError .unknownKind ("channel 0x" ++ hexWord channel ++ " not registered"))
  let some spec := kinds.find? (fun spec => spec.code = kind)
    | throw (.channelsError .unknownKind
        ("kind " ++ toString kind ++ " not in channel 0x" ++ hexWord channel))
  return spec

/-- `check_effect`: a fixed kind carries its declared effect, a variable one any of the set. -/
def checkEffect (channel kind effect : Int) : Py Unit := do
  let spec ← lookup channel kind
  if spec.variable_ then
    raiseIf (effect > Policy.destructive) (.channelsError .effectDeclarationMismatch
      ("effect " ++ toString effect ++ " out of range"))
  else
    raiseIf (effect ≠ spec.effect) (.channelsError .effectDeclarationMismatch
      ("object effect " ++ toString effect ++ " != declared " ++ toString spec.effect))

-----------------------------------------------------------------------------------------
-- Coordinate frames
-----------------------------------------------------------------------------------------

section Frames

variable {χ : Type} [DecidableEq χ] (parent : AList fun _ : List χ => List χ)

/-- Where the walk goes from a frame: to its parent, unless that is absent or the empty name. -/
def parentLinks (f : List χ) : List (List χ) :=
  match parent.lookup f with
  | some p => if p ≠ [] then [p] else []
  | none => []

/-- The frames and their parents. -/
def frameNames : Finset (List χ) :=
  (parent.keys ++ parent.entries.map (·.2)).toFinset

variable {parent}

/-- Links lead to frames that are named. -/
theorem parentLinks_inside (f : List χ) : ∀ p ∈ parentLinks parent f, p ∈ frameNames parent := by
  intro p member
  unfold parentLinks at member
  split at member
  · rename_i p' found
    split at member
    · obtain rfl := List.mem_singleton.mp member
      have entry := AList.mem_lookup_iff.mp found
      exact List.mem_toFinset.mpr (List.mem_append_right _ (List.mem_map.mpr ⟨_, entry, rfl⟩))
    · cases member
  · cases member

theorem frameNames_card : (frameNames parent).card ≤ 2 * parent.keys.length := by
  refine (List.toFinset_card_le _).trans ?_
  rw [List.length_append, List.length_map, AList.keys, List.keys, List.length_map]
  omega

/-- The walk of `check_frame_tree` from every frame that is still white, in an order of the frames;
it ends because a visit is of a white frame or parent.
-/
def frameCycle (order : List (List χ)) (listed : ∀ f ∈ order, f ∈ parent.keys) : Bool :=
  (findCycle (parentLinks parent) (2 * parent.keys.length) order (fun _ => .white)).get
    (findCycle_ends parentLinks_inside frameNames_card
      (fun f member => List.mem_toFinset.mpr (List.mem_append_left _ (listed f member))) _)

end Frames

def transformCycle : Exc :=
  .channelsError .transformCycle "coordinate frame tree contains a cycle"

/-- `check_frame_tree`, over the frames in the order of the dictionary. -/
def checkFrameTree (parent : AList fun _ : PyStr => PyStr) : Py Unit :=
  raiseIf (frameCycle parent.keys fun _ member => member) transformCycle

end Naalp.Python.Channels
