import Naalp.Bodies.Slots
import Naalp.ConsumeLedger.EntryRecords
import Naalp.Python.Agui
import Naalp.Python.Delivery
import Naalp.Python.Approval
import Naalp.Python.Rooms

/-! The strict parsers of bodies without nested members: user-interface events, refusals, delivery
updates and membership ops. Each accepts exactly the encodings.
-/

namespace Naalp.Bodies

open Naalp.Foundation
open Naalp.Python
open Naalp.Python.Cbor

-----------------------------------------------------------------------------------------
-- User-interface events
-----------------------------------------------------------------------------------------

section Events

open Naalp.Python.Agui

def eventSlots (fields : EventFields) : List (Value × Value) :=
  slot 1 .b fields.sess ++ slot 2 .u fields.kind ++ slot 3 .b fields.action ++ slot 4 .u fields.seq
  ++ slot 5 .b fields.prev

theorem readEventField_eq_ok {fields next : EventFields} {pair : Value × Value}
    (taken : readEventField fields pair = .ok next)
    : (∃ v, pair = (.u 1, .b v) ∧ next = { fields with sess := some v })
      ∨ (∃ v, pair = (.u 2, .u v) ∧ next = { fields with kind := some v })
      ∨ (∃ v, pair = (.u 3, .b v) ∧ next = { fields with action := some v })
      ∨ (∃ v, pair = (.u 4, .u v) ∧ next = { fields with seq := some v })
      ∨ (∃ v, pair = (.u 5, .b v) ∧ next = { fields with prev := some v }) := by
  unfold readEventField at taken
  split at taken <;> simp_all [eq_comm]

/-- The reader of an event fills one slot with every pair. -/
theorem eventReader : FlatReader readEventField {} eventSlots where
  shown := by
    intro fields next pair _ taken other
    rcases readEventField_eq_ok taken with
      ⟨v, rfl, rfl⟩ | ⟨v, rfl, rfl⟩ | ⟨v, rfl, rfl⟩ | ⟨v, rfl, rfl⟩ | ⟨v, rfl, rfl⟩
    all_goals
      simp only [eventSlots, List.mem_append, mem_slot]
      grind
  empty := rfl
  ordered fields := by
    refine @ascending_of_keys _ [.u 1, .u 2, .u 3, .u 4, .u 5] ?_ (by decide)
    exact slots_keys (slots_keys (slots_keys (slots_keys slot_keys)))
  leaves fields := by
    simp only [eventSlots, List.mem_append, mem_slot]
    rintro pair ((((⟨v, -, rfl⟩ | ⟨v, -, rfl⟩) | ⟨v, -, rfl⟩) | ⟨v, -, rfl⟩) | ⟨v, -, rfl⟩)
      <;> exact ⟨trivial, trivial⟩
  replays fields := by
    obtain ⟨sess, kind, action, seq, prev⟩ := fields
    cases sess <;> cases kind <;> cases action <;> cases seq <;> cases prev <;> rfl

/-- The parser of events inverts their encoding.
Witness: a body that is read fills every slot once, in ascending order, so it is the map that
the event is written as.
-/
theorem parseUiEvent_eq_ok {b : Bytes} {e : UIEvent}
    : parseUiEvent b = .ok e ↔ e.bytes = .ok b := by
  have read := eventReader.read_iff
    ⟨some e.session, some e.kind, some e.action, some e.seq, some e.prev⟩ b
  refine Iff.trans ?_ read
  constructor
  · intro parsed
    cases decoded : decode b with
    | error err =>
        simp only [parseUiEvent, decoded] at parsed
        split at parsed
        · simp_all
        · cases parsed
        · cases parsed
    | ok v =>
        cases v with
        | m pairs =>
            simp only [parseUiEvent, decoded, ok_bind, pure_eq_ok, bind_eq_ok] at parsed
            obtain ⟨fields, ran, parsed⟩ := parsed
            split at parsed
            · obtain rfl := Except.ok.inj parsed
              exact ⟨pairs, rfl, ran⟩
            · cases parsed
        | _ => simp [parseUiEvent, decoded] at parsed
  · intro accepted
    obtain ⟨pairs, decoded, ran⟩ := accepted
    simp [parseUiEvent, decoded, ran]

end Events

-----------------------------------------------------------------------------------------
-- Refusals
-----------------------------------------------------------------------------------------

section Refusals

open Naalp.Python.Approval

def refusalSlots (fields : RefusalFields) : List (Value × Value) :=
  slot 1 .u fields.outcome ++ slot 2 .b fields.record

theorem readRefusalField_eq_ok {fields next : RefusalFields} {pair : Value × Value}
    (taken : readRefusalField fields pair = .ok next)
    : (∃ v, pair = (.u 1, .u v) ∧ next = { fields with outcome := some v })
      ∨ (∃ v, pair = (.u 2, .b v) ∧ next = { fields with record := some v }) := by
  unfold readRefusalField at taken
  split at taken <;> simp_all [eq_comm]

/-- The reader of a refusal fills one slot with every pair. -/
theorem refusalReader : FlatReader readRefusalField {} refusalSlots where
  shown := by
    intro fields next pair _ taken other
    rcases readRefusalField_eq_ok taken with ⟨v, rfl, rfl⟩ | ⟨v, rfl, rfl⟩
    all_goals
      simp only [refusalSlots, List.mem_append, mem_slot]
      grind
  empty := rfl
  ordered fields := @ascending_of_keys _ [.u 1, .u 2] (slots_keys slot_keys) (by decide)
  leaves fields := by
    simp only [refusalSlots, List.mem_append, mem_slot]
    rintro pair (⟨v, -, rfl⟩ | ⟨v, -, rfl⟩) <;> exact ⟨trivial, trivial⟩
  replays fields := by
    obtain ⟨outcome, record⟩ := fields
    cases outcome <;> cases record <;> rfl

/-- The refusals that a party may see: they name a record, and their outcome is known. -/
structure RefusalWellFormed (r : Refusal) : Prop where
  names : r.record ≠ []
  known : isKnownRefusalOutcome r.outcome = true

/-- The parser of refusals inverts the encoding of the well-formed ones. -/
theorem parseRefusal_eq_ok {b : Bytes} {r : Refusal}
    : parseRefusal b = .ok r ↔ r.bytes = .ok b ∧ RefusalWellFormed r := by
  have read := refusalReader.read_iff ⟨some r.outcome, some r.record⟩ b
  refine Iff.trans ?_ (and_congr_left' read)
  constructor
  · intro parsed
    cases decoded : decode b with
    | error err => simp [parseRefusal, decoded] at parsed
    | ok v =>
        cases v with
        | m pairs =>
            simp only [parseRefusal, decoded, ok_bind, pure_eq_ok, bind_eq_ok] at parsed
            obtain ⟨fields, ran, parsed⟩ := parsed
            split at parsed
            · simp only [raiseIf_bind_eq_ok, Bool.not_eq_false] at parsed
              obtain ⟨names, known, parsed⟩ := parsed
              obtain rfl := Except.ok.inj parsed
              exact ⟨⟨pairs, rfl, ran⟩, names, known⟩
            · cases parsed
        | _ => simp [parseRefusal, decoded] at parsed
  · intro accepted
    obtain ⟨⟨pairs, decoded, ran⟩, names, known⟩ := accepted
    simp [parseRefusal, decoded, ran, names, known]

end Refusals

-----------------------------------------------------------------------------------------
-- Delivery updates
-----------------------------------------------------------------------------------------

section Updates

open Naalp.Python.Delivery

def updateSlots (fields : UpdateFields) : List (Value × Value) :=
  slot 1 .b fields.obj ++ slot 2 .u fields.stage ++ slot 3 .u fields.time

theorem readUpdateField_eq_ok {fields next : UpdateFields} {pair : Value × Value}
    (taken : readUpdateField fields pair = .ok next)
    : (∃ v, pair = (.u 1, .b v) ∧ next = { fields with obj := some v })
      ∨ (∃ v, pair = (.u 2, .u v) ∧ next = { fields with stage := some v })
      ∨ (∃ v, pair = (.u 3, .u v) ∧ next = { fields with time := some v }) := by
  unfold readUpdateField at taken
  split at taken <;> simp_all [eq_comm]

/-- The reader of an update fills one slot with every pair. -/
theorem updateReader : FlatReader readUpdateField {} updateSlots where
  shown := by
    intro fields next pair _ taken other
    rcases readUpdateField_eq_ok taken with ⟨v, rfl, rfl⟩ | ⟨v, rfl, rfl⟩ | ⟨v, rfl, rfl⟩
    all_goals
      simp only [updateSlots, List.mem_append, mem_slot]
      grind
  empty := rfl
  ordered fields :=
    @ascending_of_keys _ [.u 1, .u 2, .u 3] (slots_keys (slots_keys slot_keys)) (by decide)
  leaves fields := by
    simp only [updateSlots, List.mem_append, mem_slot]
    rintro pair ((⟨v, -, rfl⟩ | ⟨v, -, rfl⟩) | ⟨v, -, rfl⟩) <;> exact ⟨trivial, trivial⟩
  replays fields := by
    obtain ⟨obj, stage, time⟩ := fields
    cases obj <;> cases stage <;> cases time <;> rfl

/-- The parser of updates inverts their encoding.
Witness: the general reader decides when the loop fills all slots, and the rest of the parser
asks for no more.
-/
theorem parseUpdate_eq_ok {b : Bytes} {u : DeliveryUpdate}
    : parseUpdate b = .ok u ↔ u.bytes = .ok b := by
  have read := updateReader.read_iff ⟨some u.obj, some u.stage, some u.time⟩ b
  refine Iff.trans ?_ read
  constructor
  · intro parsed
    cases decoded : decode b with
    | error err =>
        simp only [parseUpdate, decoded] at parsed
        split at parsed
        · cases parsed
        · cases parsed
    | ok v =>
        cases v with
        | m pairs =>
            simp only [parseUpdate, decoded, ok_bind, bind_eq_ok] at parsed
            obtain ⟨fields, ran, parsed⟩ := parsed
            split at parsed
            · obtain rfl := Except.ok.inj parsed
              exact ⟨pairs, rfl, ran⟩
            · cases parsed
        | _ => simp [parseUpdate, decoded] at parsed
  · intro accepted
    obtain ⟨pairs, decoded, ran⟩ := accepted
    simp [parseUpdate, decoded, ran]

end Updates

-----------------------------------------------------------------------------------------
-- Membership ops
-----------------------------------------------------------------------------------------

section Ops

open Naalp.Python.Rooms

def opSlots (fields : OpFields) : List (Value × Value) :=
  slot 1 .b fields.room ++ slot 2 .u fields.op ++ slot 3 .u fields.epoch
  ++ slot 4 .t fields.subject ++ slot 5 .u fields.role

theorem readOpField_eq_ok {fields next : OpFields} {pair : Value × Value}
    (taken : readOpField fields pair = .ok next)
    : (∃ v, pair = (.u 1, .b v) ∧ next = { fields with room := some v })
      ∨ (∃ v, pair = (.u 2, .u v) ∧ next = { fields with op := some v })
      ∨ (∃ v, pair = (.u 3, .u v) ∧ next = { fields with epoch := some v })
      ∨ (∃ v, pair = (.u 4, .t v) ∧ next = { fields with subject := some v })
      ∨ (∃ v, pair = (.u 5, .u v) ∧ next = { fields with role := some v }) := by
  unfold readOpField at taken
  split at taken <;> simp_all [eq_comm]

/-- The reader of a room op fills one slot with every pair. -/
theorem opReader : FlatReader readOpField {} opSlots where
  shown := by
    intro fields next pair _ taken other
    rcases readOpField_eq_ok taken with
      ⟨v, rfl, rfl⟩ | ⟨v, rfl, rfl⟩ | ⟨v, rfl, rfl⟩ | ⟨v, rfl, rfl⟩ | ⟨v, rfl, rfl⟩
    all_goals
      simp only [opSlots, List.mem_append, mem_slot]
      grind
  empty := rfl
  ordered fields := by
    refine @ascending_of_keys _ [.u 1, .u 2, .u 3, .u 4, .u 5] ?_ (by decide)
    exact slots_keys (slots_keys (slots_keys (slots_keys slot_keys)))
  leaves fields := by
    simp only [opSlots, List.mem_append, mem_slot]
    rintro pair ((((⟨v, -, rfl⟩ | ⟨v, -, rfl⟩) | ⟨v, -, rfl⟩) | ⟨v, -, rfl⟩) | ⟨v, -, rfl⟩)
      <;> exact ⟨trivial, trivial⟩
  replays fields := by
    obtain ⟨room, op, epoch, subject, role⟩ := fields
    cases room <;> cases op <;> cases epoch <;> cases subject <;> cases role <;> rfl

/-- The reader of room ops inverts their encoding. -/
theorem roomOpFromBody_eq_ok {b : Bytes} {o : RoomOp}
    : (decode b >>= roomOpFromBody) = .ok o ↔ o.bytes = .ok b := by
  have read := opReader.read_iff
    ⟨some o.room, some o.op, some o.epoch, some o.subject, some o.role⟩ b
  refine Iff.trans ?_ read
  constructor
  · intro parsed
    obtain ⟨v, decoded, parsed⟩ := bind_eq_ok.mp parsed
    cases v with
    | m pairs =>
        simp only [roomOpFromBody, bind_eq_ok] at parsed
        obtain ⟨fields, ran, parsed⟩ := parsed
        split at parsed
        · obtain rfl := Except.ok.inj parsed
          exact ⟨pairs, decoded, ran⟩
        · cases parsed
    | _ => cases parsed
  · intro accepted
    obtain ⟨pairs, decoded, ran⟩ := accepted
    simp [roomOpFromBody, decoded, ran]

end Ops

end Naalp.Bodies
