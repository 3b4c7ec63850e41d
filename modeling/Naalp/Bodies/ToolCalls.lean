import Naalp.Bodies.FlatBodies
import Naalp.Bodies.Hazards
import Naalp.Bodies.Slots
import Naalp.Python.Mcp

/-! The bodies of tool calls and the annotations inside them. -/

namespace Naalp.Bodies

open Naalp.Foundation
open Naalp.Python
open Naalp.Python.Cbor
open Naalp.Python.Mcp

-----------------------------------------------------------------------------------------
-- Annotations
-----------------------------------------------------------------------------------------

theorem hintPair_eq_slot {key : Int} {hint : Option Bool}
    : hintPair key hint = slot key (fun flag => .u (if flag then 1 else 0)) hint :=
  rfl

/-- A hint that the reader takes is zero or one, and replaces the one under its key. -/
theorem readAnnotationPair_eq_ok {state next : AnnotationsRead} {pair : Value × Value}
    (decoded : Decoded pair.2) (taken : readAnnotationPair state pair = .ok next)
    : ∃ (key : Int) (flag : Bool), pair = (.u key, .u (if flag then 1 else 0))
      ∧ state.a.set key flag = .ok next.a := by
  obtain ⟨k, v⟩ := pair
  cases k with
  | u key =>
      cases v with
      | u hint =>
          simp only [readAnnotationPair, bind_eq_ok, raiseIf_eq_ok, exists_const, pure_eq_ok]
            at taken
          obtain ⟨small, -, a, assigned, same⟩ := taken
          obtain rfl := Except.ok.inj same
          obtain ⟨levels, canonical⟩ := decoded
          have positive := (encodable_u.mp canonical.encodable).1
          have either : hint = if hint = 1 then 1 else 0 := by
            split <;> omega
          refine ⟨key, decide (hint = 1), ?_, assigned⟩
          simpa using either
      | _ => cases taken
  | _ => cases taken

/-- What an assignment to the annotations can do, by its key. -/
theorem annotations_set_eq_ok {a next : Annotations} {key : Int} {flag : Bool}
    (assigned : a.set key flag = .ok next)
    : (key = 1 ∧ next = { a with readOnly := some flag })
      ∨ (key = 2 ∧ next = { a with destructive := some flag })
      ∨ (key = 3 ∧ next = { a with idempotent := some flag })
      ∨ (key = 4 ∧ next = { a with openWorld := some flag }) := by
  unfold Annotations.set at assigned
  split at assigned
  · exact .inl ⟨‹_›, (Except.ok.inj assigned).symm⟩
  split at assigned
  · exact .inr (.inl ⟨‹_›, (Except.ok.inj assigned).symm⟩)
  split at assigned
  · exact .inr (.inr (.inl ⟨‹_›, (Except.ok.inj assigned).symm⟩))
  split at assigned
  · exact .inr (.inr (.inr ⟨‹_›, (Except.ok.inj assigned).symm⟩))
  · cases assigned

/-- The reader of the annotations fills the slot of the pair's key. -/
theorem annotations_shown
    : ShowsFields Prod.fst readAnnotationPair (fun state => state.a.pairs)
        (fun pair => Decoded pair.2) := by
  intro state next pair decoded taken other
  obtain ⟨key, flag, rfl, assigned⟩ := readAnnotationPair_eq_ok decoded taken
  rcases annotations_set_eq_ok assigned with
    ⟨rfl, same⟩ | ⟨rfl, same⟩ | ⟨rfl, same⟩ | ⟨rfl, same⟩
  all_goals
    simp only [same, Annotations.pairs, hintPair_eq_slot, keyReadOnly, keyDestructive,
      keyIdempotent, keyOpenWorld, List.mem_append, mem_slot]
    grind

theorem annotations_ordered (a : Annotations) : (a.pairs.map encodedKey).Pairwise (· < ·) :=
  @ascending_of_keys _ [.u 1, .u 2, .u 3, .u 4] (slots_keys (slots_keys (slots_keys slot_keys)))
    (by decide)

theorem read_annotations (a : Annotations)
    : ∃ seen, a.pairs.foldlM readAnnotationPair {} = .ok ⟨a, seen⟩ := by
  obtain ⟨readOnly, destructive, idempotent, openWorld⟩ := a
  rcases readOnly with _ | _ | _ <;> rcases destructive with _ | _ | _
    <;> rcases idempotent with _ | _ | _ <;> rcases openWorld with _ | _ | _ <;> exact ⟨_, rfl⟩

/-- The reader of annotations inverts their encoding. -/
theorem annotations_inverse
    : InverseOn annotationsFromValue Annotations.toValue (fun _ => True) where
  written := by
    intro v a decoded parsed
    cases v with
    | m pairs =>
        simp only [annotationsFromValue, bind_eq_ok, pure_eq_ok] at parsed
        obtain ⟨state, ran, same⟩ := parsed
        obtain rfl := Except.ok.inj same
        obtain ⟨ordered, members⟩ := decoded_m decoded
        have pairs_eq := pairs_eq_shows annotations_shown ordered (annotations_ordered state.a)
          members rfl ran
        exact ⟨congrArg Value.m pairs_eq, trivial⟩
    | _ => cases parsed
  read := by
    intro a _
    obtain ⟨seen, ran⟩ := read_annotations a
    simp [annotationsFromValue, Annotations.toValue, ran]

theorem annotations_inOrder (a : Annotations) : InOrder 2 a.toValue := by
  refine .m (annotations_ordered a) (le_refl 1) ?_
  simp only [Annotations.pairs, hintPair_eq_slot, List.mem_append, mem_slot]
  rintro pair (((⟨v, -, rfl⟩ | ⟨v, -, rfl⟩) | ⟨v, -, rfl⟩) | ⟨v, -, rfl⟩)
    <;> exact ⟨trivial, .leaf trivial (le_refl 1)⟩

-----------------------------------------------------------------------------------------
-- Tool calls
-----------------------------------------------------------------------------------------

def toolCallSlots (fields : ToolCallFields) : List (Value × Value) :=
  slot 1 .b fields.tool ++ slot 2 .b fields.args ++ slot 3 Annotations.toValue fields.ann

/-- What the loop over the pairs of a tool call can take, by the key of the pair. -/
theorem readToolCallField_eq_ok {fields next : ToolCallFields} {pair : Value × Value}
    (decoded : Decoded pair.2) (taken : readToolCallField fields pair = .ok next)
    : (∃ v, pair = (.u 1, .b v) ∧ next = { fields with tool := some v })
      ∨ (∃ v, pair = (.u 2, .b v) ∧ next = { fields with args := some v })
      ∨ (∃ a, pair = (.u 3, Annotations.toValue a) ∧ next = { fields with ann := some a }) := by
  unfold readToolCallField at taken
  split at taken
  · simp_all [eq_comm]
  · cases taken
  · simp_all [eq_comm]
  · cases taken
  · simp only [bind_eq_ok, pure_eq_ok] at taken
    obtain ⟨a, parsed, same⟩ := taken
    obtain rfl := Except.ok.inj same
    obtain ⟨rfl, -⟩ := annotations_inverse.written decoded parsed
    exact .inr (.inr ⟨a, rfl, rfl⟩)
  · cases taken
  · cases taken

theorem toolCall_shown
    : ShowsFields Prod.fst readToolCallField toolCallSlots (fun pair => Decoded pair.2) := by
  intro fields next pair decoded taken other
  rcases readToolCallField_eq_ok decoded taken with ⟨v, rfl, rfl⟩ | ⟨v, rfl, rfl⟩ | ⟨a, rfl, rfl⟩
  all_goals
    simp only [toolCallSlots, List.mem_append, mem_slot]
    grind

theorem toolCall_ordered (fields : ToolCallFields)
    : ((toolCallSlots fields).map encodedKey).Pairwise (· < ·) :=
  @ascending_of_keys _ [.u 1, .u 2, .u 3] (slots_keys (slots_keys slot_keys)) (by decide)

/-- The reader of a tool call inverts its encoding, over the annotations that it holds. -/
theorem toolCall_inverse
    : InverseOn toolCallFromBody ToolCallBody.toMap (fun _ => True) where
  written := by
    intro v tc decoded parsed
    cases v with
    | m pairs =>
        simp only [toolCallFromBody, bind_eq_ok] at parsed
        obtain ⟨fields, ran, parsed⟩ := parsed
        obtain ⟨ordered, members⟩ := decoded_m decoded
        obtain rfl := pairs_eq_shows toolCall_shown ordered (toolCall_ordered fields) members
          rfl ran
        split at parsed
        · obtain rfl := Except.ok.inj parsed
          exact ⟨rfl, trivial⟩
        · cases parsed
    | _ => cases parsed
  read := by
    intro tc _
    have annotated : annotationsFromValue tc.annotations.toValue = .ok tc.annotations :=
      annotations_inverse.read trivial
    simp [toolCallFromBody, ToolCallBody.toMap, readToolCallField, annotated]

theorem toolCall_inOrder (tc : ToolCallBody) : InOrder 3 tc.toMap := by
  refine .m (toolCall_ordered ⟨some tc.tool, some tc.args, some tc.annotations⟩) (by decide) ?_
  simp only [List.forall_mem_cons]
  exact ⟨⟨trivial, .leaf trivial (by decide)⟩, ⟨trivial, .leaf trivial (by decide)⟩,
    ⟨trivial, annotations_inOrder tc.annotations⟩, nofun⟩

theorem toolCallFromBody_eq_ok {b : Bytes} {tc : ToolCallBody}
    : (decode b >>= toolCallFromBody) = .ok tc ↔ tc.bytes = .ok b := by
  have inverse := @toolCall_inverse.parse_iff _ _ _ _ 3 (by decide) toolCall_inOrder b tc
  rw [inverse, and_true]
  rfl

end Naalp.Bodies

/-! The strict parsers together: each takes exactly the octets that its encoder makes. -/

namespace Naalp.Bodies

open Naalp.Foundation
open Naalp.Python
open Naalp.Python.Cbor

/-- For every octet string, the strict parsers return a thing exactly when the octets are what the
thing encodes to, and the thing is well formed: a refusal names a record and has a known outcome, a
hazard claim has one of the five classes and well-formed spatial bounds, and the others need
nothing.
-/
theorem strict_parsers_invert (nfc : PyStr → PyStr) (b : Bytes)
    : (∀ e, Agui.parseUiEvent b = .ok e ↔ e.bytes = .ok b)
      ∧ (∀ r, Approval.parseRefusal b = .ok r ↔ r.bytes = .ok b ∧ RefusalWellFormed r)
      ∧ (∀ e, Approval.parseEntry b = .ok e ↔ e.bytes = .ok b)
      ∧ (∀ u, Delivery.parseUpdate b = .ok u ↔ u.bytes = .ok b)
      ∧ (∀ o, (decode b >>= Rooms.roomOpFromBody) = .ok o ↔ o.bytes = .ok b)
      ∧ (∀ tc, (decode b >>= Mcp.toolCallFromBody) = .ok tc ↔ tc.bytes = .ok b)
      ∧ (∀ c, (decode b >>= Hazard.HazardClaim.fromValue nfc) = .ok c
          ↔ c.bytes = .ok b ∧ ClaimWellFormed nfc c) := by
  have entries (e : Approval.LedgerEntry) : Approval.parseEntry b = .ok e ↔ e.bytes = .ok b :=
    ConsumeLedger.parseEntry_eq_ok.trans (@encode_eq_ok (ConsumeLedger.entryValue e) b).symm
  exact ⟨fun _ => parseUiEvent_eq_ok, fun _ => parseRefusal_eq_ok, entries,
    fun _ => parseUpdate_eq_ok, fun _ => roomOpFromBody_eq_ok, fun _ => toolCallFromBody_eq_ok,
    fun _ => hazardClaim_eq_ok nfc⟩

end Naalp.Bodies
