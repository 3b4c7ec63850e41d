import Mathlib.Data.Int.ConditionallyCompleteOrder
import Naalp.Bodies.Hazards
import Naalp.Foundation.Intervals

/-! Containment of hazard envelopes as inclusion of the behaviours that they admit. -/

namespace Naalp.Authorization

open Naalp.Foundation
open Naalp.Python
open Naalp.Python.Hazard

-----------------------------------------------------------------------------------------
-- Behaviours
-----------------------------------------------------------------------------------------

/-- A point in a coordinate frame, with a speed, at a time. -/
structure Behaviour where
  frame : PyStr
  point : List Int
  speed : Int
  time : Int

/-- The behaviour stays inside the envelope. -/
structure Admits (e : HazardEnvelope) (b : Behaviour) : Prop where
  frame : b.frame = e.spatial.frame
  point : InBox e.spatial.axes b.point
  speed : 0 ≤ b.speed ∧ b.speed ≤ e.speedBound
  time : e.window.notBefore ≤ b.time ∧ b.time ≤ e.window.notAfter

/-- The parser's rules for the spatial bounds, and the unsigned speed bound of the wire. -/
structure WellFormedEnvelope (nfc : PyStr → PyStr) (e : HazardEnvelope) : Prop where
  spatial : Bodies.EnvelopeWellFormed nfc e
  speed : 0 ≤ e.speedBound

-----------------------------------------------------------------------------------------
-- Containment
-----------------------------------------------------------------------------------------

theorem spatialContained_iff {claim grant : SpatialBounds}
    : spatialContained claim grant = true
      ↔ claim.frame = grant.frame ∧ Nested claim.axes grant.axes := by
  simp [spatialContained, Nested, List.forall₂_iff_zip]

theorem envelopeContained_iff {claim grant : HazardEnvelope}
    : envelopeContained claim grant = true
      ↔ claim.spatial.frame = grant.spatial.frame
        ∧ Nested claim.spatial.axes grant.spatial.axes ∧ claim.speedBound ≤ grant.speedBound
        ∧ grant.window.notBefore ≤ claim.window.notBefore
        ∧ claim.window.notAfter ≤ grant.window.notAfter := by
  simp [envelopeContained, spatialContained_iff, and_assoc]

variable {first second third : HazardEnvelope}

theorem envelopeContained_refl (e : HazardEnvelope) : envelopeContained e e = true :=
  envelopeContained_iff.mpr ⟨rfl, .refl _, le_refl _, le_refl _, le_refl _⟩

theorem envelopeContained_trans (inner : envelopeContained first second = true)
    (outer : envelopeContained second third = true) : envelopeContained first third = true := by
  rw [envelopeContained_iff] at *
  obtain ⟨frame, axes, speed, starts, ends⟩ := inner
  obtain ⟨frame', axes', speed', starts', ends'⟩ := outer
  exact ⟨frame.trans frame', axes.trans axes', speed.trans speed', starts'.trans starts,
    ends.trans ends'⟩

/-- Envelopes that contain each other are equal, field by field. -/
theorem envelopeContained_antisymm (inner : envelopeContained first second = true)
    (outer : envelopeContained second first = true) : first = second := by
  rw [envelopeContained_iff] at *
  obtain ⟨⟨frame, axes⟩, speed, ⟨starts, ends⟩⟩ := first
  obtain ⟨⟨frame', axes'⟩, speed', ⟨starts', ends'⟩⟩ := second
  obtain ⟨rfl, nested, slower, later, earlier⟩ := inner
  obtain ⟨-, nests, faster, sooner, after⟩ := outer
  obtain rfl := nested.antisymm nests
  obtain rfl : speed = speed' := le_antisymm slower faster
  obtain rfl : starts = starts' := le_antisymm sooner later
  obtain rfl : ends = ends' := le_antisymm earlier after
  rfl

theorem admits_of_contained (contained : envelopeContained first second = true) {b : Behaviour}
    (admits : Admits first b) : Admits second b := by
  obtain ⟨frame, axes, speed, starts, ends⟩ := envelopeContained_iff.mp contained
  exact ⟨admits.frame.trans frame, axes.inBox admits.point,
    ⟨admits.speed.1, admits.speed.2.trans speed⟩,
    ⟨starts.trans admits.time.1, admits.time.2.trans ends⟩⟩

/-- The behaviours of an envelope with a window show each of its bounds: the corners of its box, its
speed bound, and the two ends of the window.
-/
theorem contained_of_admits {nfc : PyStr → PyStr} (formed : WellFormedEnvelope nfc first)
    (open_ : first.window.notBefore ≤ first.window.notAfter)
    (admits : ∀ b, Admits first b → Admits second b) : envelopeContained first second = true := by
  have wellFormed := formed.spatial
  simp only [Bodies.EnvelopeWellFormed, SpatialBounds.isWellFormed, decide_eq_true_eq] at wellFormed
  have proper := wellFormed.2.1
  have behaves {point : List Int} (inside : InBox first.spatial.axes point)
      {speed : Int} (moves : 0 ≤ speed ∧ speed ≤ first.speedBound) {time : Int}
      (during : first.window.notBefore ≤ time ∧ time ≤ first.window.notAfter)
      : Admits second ⟨first.spatial.frame, point, speed, time⟩ :=
    admits _ ⟨rfl, inside, moves, during⟩
  have corner : InBox first.spatial.axes (first.spatial.axes.map Prod.fst) :=
    List.forall₂_map_right_iff.mpr
      (List.forall₂_same.mpr fun axis member => ⟨le_refl _, proper axis member⟩)
  have full := And.intro formed.speed (le_refl first.speedBound)
  have starts := behaves corner full ⟨le_refl _, open_⟩
  have ends := behaves corner full ⟨open_, le_refl _⟩
  have nested := nested_of_points proper fun point inside =>
    (behaves inside full ⟨le_refl _, open_⟩).point
  exact envelopeContained_iff.mpr
    ⟨starts.frame, nested, starts.speed.2, starts.time.1, ends.time.2⟩

theorem hazardAuthorized_eq_ok {claim : HazardClaim} {grant : HazardAuthorization} {done : Unit}
    : hazardAuthorized claim grant = .ok done
      ↔ claim.hazardClass = grant.hazardClass
        ∧ envelopeContained claim.envelope grant.envelope = true := by
  simp [hazardAuthorized, bind_eq_ok, raiseIf_eq_ok]

/-- Containment is a partial order on envelopes that means inclusion of behaviours: what a contained
envelope admits the other admits, and a well-formed envelope with a window is contained in every
envelope that admits its behaviours. So a claim that a grant authorizes is authorized by every wider
grant of the class.
-/
theorem hazard_containment_is_inclusion (nfc : PyStr → PyStr)
    : (∀ e, envelopeContained e e = true)
      ∧ (∀ first second third, envelopeContained first second = true
        → envelopeContained second third = true → envelopeContained first third = true)
      ∧ (∀ first second, envelopeContained first second = true
        → envelopeContained second first = true → first = second)
      ∧ (∀ claim grant, envelopeContained claim grant = true
        → ∀ b, Admits claim b → Admits grant b)
      ∧ (∀ claim grant, WellFormedEnvelope nfc claim
        → claim.window.notBefore ≤ claim.window.notAfter
        → (∀ b, Admits claim b → Admits grant b) → envelopeContained claim grant = true)
      ∧ (∀ (claim : HazardClaim) (grant wider : HazardAuthorization),
        hazardAuthorized claim grant = .ok () → wider.hazardClass = grant.hazardClass
        → envelopeContained grant.envelope wider.envelope = true
        → hazardAuthorized claim wider = .ok ()) := by
  refine ⟨envelopeContained_refl, fun _ _ _ => envelopeContained_trans,
    fun _ _ => envelopeContained_antisymm, fun _ _ contained _ => admits_of_contained contained,
    fun _ _ => contained_of_admits, ?_⟩
  intro claim grant wider authorized sameClass contained
  obtain ⟨known, inner⟩ := hazardAuthorized_eq_ok.mp authorized
  exact hazardAuthorized_eq_ok.mpr
    ⟨known.trans sameClass.symm, envelopeContained_trans inner contained⟩

def sampleEnvelope : HazardEnvelope := ⟨⟨.lit ['a'], [(-1, 2)]⟩, 3, ⟨4, 5⟩⟩

def widerEnvelope : HazardEnvelope := ⟨⟨.lit ['a'], [(-2, 2)]⟩, 3, ⟨4, 6⟩⟩

/-- A claim whose envelope lies in a wider one is authorized by both grants, and its behaviours are
behaviours of the wider envelope.
-/
theorem hazard_containment_sample
    : (∀ b, Admits sampleEnvelope b → Admits widerEnvelope b)
      ∧ hazardAuthorized ⟨1, sampleEnvelope⟩ ⟨1, widerEnvelope⟩ = .ok () := by
  obtain ⟨refl, -, -, included, -, composes⟩ := hazard_containment_is_inclusion id
  have contained : envelopeContained sampleEnvelope widerEnvelope = true := by decide
  exact ⟨included _ _ contained, composes ⟨1, sampleEnvelope⟩ ⟨1, sampleEnvelope⟩ ⟨1, widerEnvelope⟩
    (hazardAuthorized_eq_ok.mpr ⟨rfl, refl sampleEnvelope⟩) rfl contained⟩

end Naalp.Authorization
