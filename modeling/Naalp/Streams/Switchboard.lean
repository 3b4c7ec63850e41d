import Naalp.Foundation.Runs
import Naalp.Python.Delivery

/-! Both lanes of a switchboard over every order of its calls: what a side is given, what is still
on its way, and when `close` returns.
-/

namespace Naalp.Python.Delivery

open Naalp.Foundation

/-- What a side has put into its lane by an answered call; the sentinel is `none`. -/
def SwitchboardCall.sentBy (side : Side)
    : SwitchboardCall → Option (Option Bytes) → List (Option Bytes)
  | .send by_ obj, some _ => if by_ = side then [some obj] else []
  | .sentinel by_, some _ => if by_ = side then [none] else []
  | _, _ => []

/-- What a side has been given by an answered call. -/
def SwitchboardCall.receivedBy (side : Side) : SwitchboardCall → Option (Option Bytes) → List Bytes
  | .recv by_, some (some obj) => if by_ = side then [obj] else []
  | _, _ => []

/-- The calls so far, with their answers, and the switchboard after them. -/
structure Traffic where
  sent : Side → List (Option Bytes)
  received : Side → List Bytes
  board : Switchboard

/-- The traffic over calls of any threads, in the order in which they take effect. -/
def traffic (capacity : Int) (calls : List SwitchboardCall) : Traffic :=
  calls.foldl
    (fun t call =>
      let result := t.board.step call
      { sent := fun side => t.sent side ++ call.sentBy side result.1
        received := fun side => t.received side ++ call.receivedBy side result.1
        board := result.2 })
    { sent := fun _ => [], received := fun _ => [], board := { capacity } }

@[simp]
theorem Side.peer_peer (side : Side) : side.peer.peer = side := by
  cases side <;> rfl

theorem Side.peer_eq_iff (a b : Side) : a.peer = b ↔ a = b.peer := by
  cases a <;> cases b <;> decide

@[simp]
theorem Switchboard.step_capacity (s : Switchboard) (call : SwitchboardCall)
    : (s.step call).2.capacity = s.capacity := by
  cases call <;> rfl

/-- A call at a lane is a call of its relay, and none of the other's. -/
theorem Switchboard.callLane_lane (s : Switchboard) (at_ side : Side) (call : RelayCall Bytes)
    : (s.callLane at_ call).2.lane side
      = if at_ = side then ((s.lane side).step s.capacity call).2 else s.lane side := by
  by_cases same : at_ = side
  · simp [callLane, same]
  · simp [callLane, same, Function.update_of_ne (Ne.symm same)]

/-- At each lane a call either does nothing or is one call of its relay, answered and counted alike.
Witness: cases on the call; it is put or got at the lane of its side, or moved by a pump, and
the other lane is left alone.
-/
theorem Switchboard.step_lane (s : Switchboard) (call : SwitchboardCall) (side : Side)
    : ((s.step call).2.lane side = s.lane side ∧ call.sentBy side (s.step call).1 = []
        ∧ call.receivedBy side.peer (s.step call).1 = [])
      ∨ ∃ c, (s.step call).2.lane side = ((s.lane side).step s.capacity c).2
        ∧ call.sentBy side (s.step call).1 = c.putBy ((s.lane side).step s.capacity c).1
        ∧ call.receivedBy side.peer (s.step call).1
          = c.gotBy ((s.lane side).step s.capacity c).1 := by
  rcases call with ⟨at_, obj⟩ | at_ | at_ | at_ | at_
  case send =>
    by_cases same : at_ = side
    · subst same
      refine .inr ⟨.put (some obj), by simp [step, callLane_lane], ?_, rfl⟩
      simp only [step, callLane]
      rcases ((s.lane at_).step s.capacity (.put (some obj))).1 with _ | answer
      · rfl
      · simp [SwitchboardCall.sentBy, RelayCall.putBy]
    · refine .inl ⟨by simp [step, callLane_lane, same], ?_, rfl⟩
      rcases (s.step (.send at_ obj)).1 with _ | answer
      · rfl
      · simp [SwitchboardCall.sentBy, same]
  case sentinel =>
    by_cases same : at_ = side
    · subst same
      refine .inr ⟨.put none, by simp [step, callLane_lane], ?_, rfl⟩
      simp only [step, callLane]
      rcases ((s.lane at_).step s.capacity (.put none)).1 with _ | answer
      · rfl
      · simp [SwitchboardCall.sentBy, RelayCall.putBy]
    · refine .inl ⟨by simp [step, callLane_lane, same], ?_, rfl⟩
      rcases (s.step (.sentinel at_)).1 with _ | answer
      · rfl
      · simp [SwitchboardCall.sentBy, same]
  case pump =>
    by_cases same : at_ = side
    · subst same
      exact .inr ⟨.move, by simp [step, callLane_lane], rfl, rfl⟩
    · exact .inl ⟨by simp [step, callLane_lane, same], rfl, rfl⟩
  case recv =>
    by_cases same : at_ = side.peer
    · subst same
      refine .inr ⟨.get, by simp [step, callLane_lane], rfl, ?_⟩
      simp only [step, callLane, Side.peer_peer]
      rcases ((s.lane side).step s.capacity .get).1 with _ | _ | obj
      · rfl
      · rfl
      · simp [SwitchboardCall.receivedBy, RelayCall.gotBy]
    · have other : at_.peer ≠ side := mt (Side.peer_eq_iff at_ side).mp same
      refine .inl ⟨by simp [step, callLane_lane, other], rfl, ?_⟩
      rcases (s.step (.recv at_)).1 with _ | _ | obj
      · rfl
      · rfl
      · simp [SwitchboardCall.receivedBy, same]
  case join => exact .inl ⟨rfl, rfl, rfl⟩

/-- What a lane has been given is what it has given on and what it holds, and its queues are
bounded.
-/
structure Traffic.Accounted (capacity : Int) (t : Traffic) : Prop where
  capacity_eq : t.board.capacity = capacity
  contents (side : Side)
    : t.sent side = (t.received side.peer).map some ++ (t.board.lane side).contents
  within (side : Side) : (t.board.lane side).Within capacity

theorem traffic_append (capacity : Int) (calls : List SwitchboardCall) (call : SwitchboardCall)
    : traffic capacity (calls ++ [call])
      = (let t := traffic capacity calls
         { sent := fun side => t.sent side ++ call.sentBy side (t.board.step call).1
           received := fun side => t.received side ++ call.receivedBy side (t.board.step call).1
           board := (t.board.step call).2 }) := by
  rw [traffic, List.foldl_append]
  rfl

/-- Over every order of the calls the lanes are accounted for, by induction over the calls. -/
theorem traffic_accounted (capacity : Int) (calls : List SwitchboardCall)
    : (traffic capacity calls).Accounted capacity := by
  induction calls using List.reverseRecOn with
  | nil => exact ⟨rfl, fun side => rfl, fun side positive => ⟨positive.le, positive.le⟩⟩
  | append_singleton calls call ih =>
      rw [traffic_append]
      refine ⟨(Switchboard.step_capacity _ call).trans ih.capacity_eq, fun side => ?_,
        fun side => ?_⟩
      · dsimp only
        rcases (traffic capacity calls).board.step_lane call side with
          ⟨same, sent, received⟩ | ⟨c, lane, sent, received⟩
        · rw [same, sent, received, ih.contents side, List.append_nil, List.append_nil]
        · rw [lane, sent, received, ih.contents side, List.map_append, List.append_assoc,
            List.append_assoc, Relay.step_contents]
      · dsimp only
        rcases (traffic capacity calls).board.step_lane call side with ⟨same, -⟩ | ⟨c, lane, -⟩
        · rw [same]
          exact ih.within side
        · rw [lane, ih.capacity_eq]
          exact (ih.within side).step c

theorem takeWhile_map_some (objs : List Bytes) (rest : List (Option Bytes))
    : (objs.map some ++ rest).takeWhile Option.isSome
      = objs.map some ++ rest.takeWhile Option.isSome := by
  refine List.takeWhile_append_of_pos fun item at_ => ?_
  obtain ⟨obj, -, rfl⟩ := List.mem_map.mp at_
  rfl

/-- In every order of the calls a side is given what its peer sent before it closed: in the order of
sending, nothing twice and nothing left out, through queues that stay within the capacity. When the
pump has stopped only what waits in the queue behind it is still to be received.
-/
theorem traffic_in_order (capacity : Int) (calls : List SwitchboardCall) (side : Side)
    : let t := traffic capacity calls
      (t.received side.peer).map some <+: (t.sent side).takeWhile Option.isSome
      ∧ (0 < capacity → ((t.board.lane side).inbox.length : Int) ≤ capacity
        ∧ ((t.board.lane side).outbox.length : Int) ≤ capacity)
      ∧ ((t.board.lane side).worker = .stopped
        → (t.sent side).takeWhile Option.isSome
          = (t.received side.peer ++ (t.board.lane side).outbox).map some) := by
  have accounted := traffic_accounted capacity calls
  refine ⟨?_, accounted.within side, fun stopped => ?_⟩
  · rw [accounted.contents side, takeWhile_map_some]
    exact List.prefix_append _ _
  · rw [accounted.contents side, takeWhile_map_some, Relay.contents, stopped, List.append_assoc,
      takeWhile_map_some, List.map_append]
    simp [Worker.contents]

-----------------------------------------------------------------------------------------
-- Closing
-----------------------------------------------------------------------------------------

/-- The calls that a thread has still to make, and the switchboard that nobody else is at but the
pumps.
-/
abbrev Closing := List SwitchboardCall × Switchboard

/-- The thread's next call is answered, or a pump moves. What blocks is no step. -/
inductive Advances : Closing → Closing → Prop where
  | call {s : Switchboard} {c : SwitchboardCall} {rest : List SwitchboardCall}
      (answered : (s.step c).1.isSome) : Advances (c :: rest, s) (rest, (s.step c).2)
  | pump {s : Switchboard} {rest : List SwitchboardCall} (side : Side)
      (answered : (s.step (.pump side)).1.isSome)
    : Advances (rest, s) (rest, (s.step (.pump side)).2)

def Closing.Done (now : Closing) : Prop := now.1 = []

/-- The calls are all answered, in whatever order the thread and the pumps go on. -/
def Returns (calls : List SwitchboardCall) (s : Switchboard) : Prop :=
  Inevitable Advances Closing.Done (calls, s)

/-- The calls are all answered in some order in which the thread and the pumps go on. -/
def CanReturn (calls : List SwitchboardCall) (s : Switchboard) : Prop :=
  ∃ last, Relation.ReflTransGen Advances (calls, s) last ∧ last.Done

def Switchboard.Within (s : Switchboard) : Prop := ∀ side, (s.lane side).Within s.capacity

/-- No call takes either relay over its capacity. -/
theorem Switchboard.Within.step {s : Switchboard} (within : s.Within) (call : SwitchboardCall)
    : (s.step call).2.Within := by
  intro side
  rw [step_capacity]
  rcases s.step_lane call side with ⟨same, -⟩ | ⟨c, lane, -⟩
  · rw [same]
    exact within side
  · rw [lane]
    exact (within side).step c

theorem Switchboard.pump_lane (s : Switchboard) (at_ side : Side)
    : (s.step (.pump at_)).2.lane side
      = if at_ = side then ((s.lane side).step s.capacity .move).2 else s.lane side :=
  s.callLane_lane at_ side .move

/-- What `close` calls: a sentinel is put, or a pump is joined. -/
theorem closeCalls_cases {call : SwitchboardCall} (closing : call ∈ closeCalls)
    : (∃ side, call = .sentinel side) ∨ ∃ side, call = .join side := by
  simp only [closeCalls, List.mem_cons, List.not_mem_nil, or_false] at closing
  rcases closing with rfl | rfl | rfl | rfl <;> simp

/-- Only the sentinel of a lane changes the lane. -/
theorem Switchboard.close_lane (s : Switchboard) {call : SwitchboardCall} (side : Side)
    (closing : call ∈ closeCalls) (other : call ≠ .sentinel side)
    : (s.step call).2.lane side = s.lane side := by
  rcases closeCalls_cases closing with ⟨at_, rfl⟩ | ⟨at_, rfl⟩
  · have ne : at_ ≠ side := fun same => other (same ▸ rfl)
    exact (s.callLane_lane at_ side (.put none)).trans (if_neg ne)
  · rfl

theorem Switchboard.stopped_of_join {s : Switchboard} {side : Side}
    (answered : (s.step (.join side)).1.isSome) : (s.lane side).worker = .stopped := by
  simp only [step] at answered
  rcases worker : (s.lane side).worker with _ | x | _
  · simp [worker, Worker.isStopped] at answered
  · simp [worker, Worker.isStopped] at answered
  · rfl

/-- A thread that joins a pump behind its sentinel returns only when the pump can stop, by induction
from the end of the steps.
-/
theorem canStop_of_canReturn {calls : List SwitchboardCall} {s : Switchboard}
    (can : CanReturn calls s) (side : Side) (within : s.Within) (joins : .join side ∈ calls)
    (closing : ∀ call ∈ calls, call ∈ closeCalls) (sentinel : .sentinel side ∉ calls)
    : (s.lane side).worker = .stopped ∨ (s.lane side).CanStop s.capacity := by
  obtain ⟨last, steps, done⟩ := can
  generalize start : (calls, s) = now at steps
  induction steps using Relation.ReflTransGen.head_induction_on generalizing calls s with
  | refl =>
      subst start
      obtain rfl : calls = [] := done
      cases joins
  | head advances _ ih =>
      cases advances with
      | @call s c rest answered =>
          obtain ⟨rfl, rfl⟩ := Prod.mk.inj start
          rcases List.mem_cons.mp joins with rfl | joins
          · exact .inl (Switchboard.stopped_of_join answered)
          · have other : c ≠ .sentinel side := fun is => sentinel (is ▸ List.mem_cons_self)
            have later := ih (within.step c) joins
              (fun call at_ => closing call (List.mem_cons_of_mem _ at_))
              (fun at_ => sentinel (List.mem_cons_of_mem _ at_)) rfl
            rwa [Switchboard.step_capacity,
              s.close_lane side (closing c List.mem_cons_self) other] at later
      | @pump s rest at_ answered =>
          obtain ⟨rfl, rfl⟩ := Prod.mk.inj start
          by_cases stopped : (s.lane side).worker = .stopped
          · exact .inl stopped
          have later := ih (within.step _) joins closing sentinel rfl
          rw [Switchboard.step_capacity, s.pump_lane at_ side] at later
          by_cases same : at_ = side
          · rw [if_pos same] at later
            exact .inr (Relay.canStop_of_move (within side) stopped later)
          · rwa [if_neg same] at later

/-- What is left of `close` when a sentinel is due: the sentinel comes once, before the join. -/
theorem closing_cases {side : Side} {c : SwitchboardCall} {rest : List SwitchboardCall}
    (closing : c :: rest <:+ closeCalls) (due : .sentinel side ∈ c :: rest)
    : (c = .sentinel side ∧ .sentinel side ∉ rest ∧ .join side ∈ rest)
      ∨ (c ≠ .sentinel side ∧ .sentinel side ∈ rest) := by
  simp only [closeCalls, List.suffix_cons_iff, List.suffix_nil, List.cons.injEq] at closing
  rcases closing with ⟨rfl, rfl⟩ | ⟨rfl, rfl⟩ | ⟨rfl, rfl⟩ | ⟨rfl, rfl⟩ | closing
  · cases side <;> simp
  · cases side <;> simp at due ⊢
  · simp at due
  · simp at due
  · cases closing

/-- A pump is joined when all sentinels have been put. -/
theorem sentinel_notMem_of_join {side at_ : Side} {rest : List SwitchboardCall}
    (closing : .join side :: rest <:+ closeCalls)
    : .sentinel at_ ∉ SwitchboardCall.join side :: rest := by
  intro due
  simp only [closeCalls, List.suffix_cons_iff, List.suffix_nil, List.cons.injEq] at closing
  rcases closing with ⟨same, -⟩ | ⟨same, -⟩ | ⟨-, rfl⟩ | ⟨-, rfl⟩ | closing
  · cases same
  · cases same
  · simp at due
  · simp at due
  · cases closing

/-- The sentinel of a lane is put behind its items. -/
theorem Switchboard.sentinel_lane {s : Switchboard} {side : Side}
    (answered : (s.step (.sentinel side)).1.isSome)
    : (s.step (.sentinel side)).2.lane side
      = { s.lane side with inbox := (s.lane side).inbox ++ [none] } := by
  have room : HasRoom s.capacity (s.lane side).inbox.length := by
    by_contra full
    simp [step, callLane, Relay.step, full] at answered
  simp [step, callLane, Relay.step, room]

/-- A thread that has a lane still to close returns only when what is in the lane fits, by induction
from the end of the steps.
-/
theorem fits_of_canReturn {calls : List SwitchboardCall} {s : Switchboard} (can : CanReturn calls s)
    (side : Side) (within : s.Within) (closing : calls <:+ closeCalls)
    (due : .sentinel side ∈ calls)
    (isOpen : (s.lane side).IsOpen) : (s.lane side).Fits s.capacity := by
  obtain ⟨last, steps, done⟩ := can
  generalize start : (calls, s) = now at steps
  induction steps using Relation.ReflTransGen.head_induction_on generalizing calls s with
  | refl =>
      subst start
      obtain rfl : calls = [] := done
      cases due
  | head advances later ih =>
      cases advances with
      | @call s c rest answered =>
          obtain ⟨rfl, rfl⟩ := Prod.mk.inj start
          have closingRest : rest <:+ closeCalls := (List.suffix_cons c rest).trans closing
          rcases closing_cases closing due with ⟨rfl, once, joins⟩ | ⟨other, due⟩
          · have canStop := canStop_of_canReturn ⟨last, later, done⟩ side (within.step _) joins
              (fun _ at_ => closingRest.mem at_) once
            rw [Switchboard.sentinel_lane answered, Switchboard.step_capacity] at canStop
            exact isOpen.canStop_put.mp (canStop.resolve_left isOpen.1)
          · have same := s.close_lane side (closing.mem List.mem_cons_self) other
            have fits := ih (within.step c) closingRest due (same.symm ▸ isOpen) rfl
            rwa [same, Switchboard.step_capacity] at fits
      | @pump s rest at_ answered =>
          obtain ⟨rfl, rfl⟩ := Prod.mk.inj start
          by_cases same : at_ = side
          · have lane := (s.pump_lane at_ side).trans (if_pos same)
            have fits := ih (within.step _) closing due (lane.symm ▸ isOpen.move) rfl
            rw [lane, Switchboard.step_capacity] at fits
            exact isOpen.fits_move.mp fits
          · have lane := (s.pump_lane at_ side).trans (if_neg same)
            have fits := ih (within.step _) closing due (lane.symm ▸ isOpen) rfl
            rwa [lane, Switchboard.step_capacity] at fits

/-- What `close` keeps while it can go on to its end: what it still closes fits, and what it waits
for can stop.
-/
structure Closable (now : Closing) : Prop where
  closing : now.1 <:+ closeCalls
  within : now.2.Within
  opened : ∀ side, .sentinel side ∈ now.1
    → (now.2.lane side).IsOpen ∧ (now.2.lane side).Fits now.2.capacity
  stops : ∀ side, .join side ∈ now.1 → .sentinel side ∉ now.1
    → (now.2.lane side).worker = .stopped ∨ (now.2.lane side).CanStop now.2.capacity

/-- A thread that closes goes on: its next call is answered, or the pump it waits for moves. -/
theorem Closable.goes {now : Closing} (closable : Closable now)
    : now.Done ∨ ∃ next, Advances now next := by
  obtain ⟨calls, s⟩ := now
  have pumps {side : Side} (moves : ((s.lane side).step s.capacity .move).1.isSome)
      : ∃ next, Advances (calls, s) next := ⟨_, .pump side moves⟩
  rcases calls with _ | ⟨c, rest⟩
  · exact .inl rfl
  rcases closeCalls_cases (closable.closing.mem List.mem_cons_self) with ⟨side, rfl⟩ | ⟨side, rfl⟩
  · obtain ⟨isOpen, fits⟩ := closable.opened side List.mem_cons_self
    by_cases room : HasRoom s.capacity (s.lane side).inbox.length
    · exact .inr ⟨_, .call (by simp [Switchboard.step, Switchboard.callLane, Relay.step, room])⟩
    · exact .inr (pumps (isOpen.moves_of_full fits room))
  · by_cases stopped : (s.lane side).worker = .stopped
    · exact .inr ⟨_, .call (by simp [Switchboard.step, stopped, Worker.isStopped])⟩
    · have put : .sentinel side ∉ SwitchboardCall.join side :: rest :=
        sentinel_notMem_of_join closable.closing
      have canStop := (closable.stops side List.mem_cons_self put).resolve_left stopped
      exact .inr (pumps (canStop.moves stopped))

/-- A call that is answered leaves a thread that closes able to go on. -/
theorem Closable.call {s : Switchboard} {c : SwitchboardCall} {rest : List SwitchboardCall}
    (closable : Closable (c :: rest, s)) (answered : (s.step c).1.isSome)
    : Closable (rest, (s.step c).2) := by
  have first : c ∈ closeCalls := closable.closing.mem List.mem_cons_self
  refine ⟨(List.suffix_cons c rest).trans closable.closing, closable.within.step c, ?_, ?_⟩
  · intro side due
    have other : c ≠ .sentinel side := by
      rintro rfl
      rcases closing_cases closable.closing List.mem_cons_self with ⟨-, once, -⟩ | ⟨other, -⟩
      · exact once due
      · exact other rfl
    rw [s.close_lane side first other, Switchboard.step_capacity]
    exact closable.opened side (List.mem_cons_of_mem _ due)
  · intro side joins put
    rw [Switchboard.step_capacity]
    by_cases same : c = .sentinel side
    · subst same
      obtain ⟨isOpen, fits⟩ := closable.opened side List.mem_cons_self
      rw [Switchboard.sentinel_lane answered]
      exact .inr (isOpen.canStop_put.mpr fits)
    · rw [s.close_lane side first same]
      refine closable.stops side (List.mem_cons_of_mem _ joins) fun due => ?_
      rcases List.mem_cons.mp due with rfl | due
      · exact same rfl
      · exact put due

/-- So does a move of a pump. -/
theorem Closable.pump {s : Switchboard} {calls : List SwitchboardCall} (at_ : Side)
    (closable : Closable (calls, s)) : Closable (calls, (s.step (.pump at_)).2) := by
  refine ⟨closable.closing, closable.within.step _, ?_, ?_⟩
  · intro side due
    obtain ⟨isOpen, fits⟩ := closable.opened side due
    rw [Switchboard.step_capacity, s.pump_lane at_ side]
    by_cases same : at_ = side
    · rw [if_pos same]
      exact ⟨isOpen.move, isOpen.fits_move.mpr fits⟩
    · rw [if_neg same]
      exact ⟨isOpen, fits⟩
  · intro side joins put
    have before := closable.stops side joins put
    rw [Switchboard.step_capacity, s.pump_lane at_ side]
    by_cases same : at_ = side
    · rw [if_pos same]
      by_cases stopped : (s.lane side).worker = .stopped
      · rw [Relay.move_stopped stopped]
        exact .inl stopped
      · exact (before.resolve_left stopped).move stopped
    · rwa [if_neg same]

/-- What is left to be done: each call may put one marker before a pump, which takes it in one move.
-/
def Closing.measure (now : Closing) : ℕ :=
  3 * now.1.length + (now.2.lane .left).size + (now.2.lane .right).size

/-- A step leaves less to be done.
Witness: the measure counts the calls that are left, and behind them what the pumps still have
to move.
-/
theorem Closable.advance {now next : Closing} (closable : Closable now)
    (advances : Advances now next)
    : Closable next ∧ next.measure < now.measure := by
  cases advances with
  | @call s c rest answered =>
      refine ⟨closable.call answered, ?_⟩
      have first : c ∈ closeCalls := closable.closing.mem List.mem_cons_self
      have lane (side : Side) (other : c ≠ .sentinel side)
          : ((s.step c).2.lane side).size = (s.lane side).size :=
        congrArg Relay.size (s.close_lane side first other)
      have put (side : Side) (same : c = .sentinel side)
          : ((s.step c).2.lane side).size = (s.lane side).size + 2 := by
        subst same
        rw [Switchboard.sentinel_lane answered]
        simp only [Relay.size, List.length_append, List.length_singleton]
        omega
      simp only [Closing.measure, List.length_cons]
      by_cases left : c = .sentinel .left
      · rw [put .left left, lane .right (by simp [left])]
        omega
      · rw [lane .left left]
        by_cases right : c = .sentinel .right
        · rw [put .right right]
          omega
        · rw [lane .right right]
          omega
  | @pump s rest at_ answered =>
      refine ⟨closable.pump at_, ?_⟩
      have smaller : ((s.lane at_).step s.capacity .move).2.size < (s.lane at_).size :=
        Relay.size_move answered
      simp only [Closing.measure, s.pump_lane]
      cases at_ <;> simp only [reduceCtorEq, if_true, if_false] <;> omega

/-- With nobody else than the pumps at it `close` returns in every order of the steps when each
lane's items fit, and otherwise in none.
-/
theorem Switchboard.closes_iff {s : Switchboard} (within : s.Within)
    (isOpen : ∀ side, (s.lane side).IsOpen)
    : (Returns closeCalls s ↔ ∀ side, (s.lane side).Fits s.capacity)
      ∧ (CanReturn closeCalls s ↔ ∀ side, (s.lane side).Fits s.capacity) := by
  have fits (can : CanReturn closeCalls s) (side : Side) : (s.lane side).Fits s.capacity :=
    fits_of_canReturn can side within List.suffix_rfl (by cases side <;> simp [closeCalls])
      (isOpen side)
  have returns (fits : ∀ side, (s.lane side).Fits s.capacity) : Returns closeCalls s := by
    refine inevitable_of_measure Closing.measure
      (fun now (closable : Closable now) => closable.goes)
      (fun _ _ closable advances => closable.advance advances) ?_
    refine ⟨List.suffix_rfl, within, fun side _ => ⟨isOpen side, fits side⟩, fun side _ put => ?_⟩
    exact absurd (by cases side <;> simp [closeCalls]) put
  exact ⟨⟨fun every => fits every.reaches, returns⟩, ⟨fits, fun fits => (returns fits).reaches⟩⟩

/-- A side that has not closed has put no sentinel, by induction over the calls. -/
theorem sent_of_not_closed (capacity : Int) {calls : List SwitchboardCall} {side : Side}
    (notClosed : .sentinel side ∉ calls) : none ∉ (traffic capacity calls).sent side := by
  induction calls using List.reverseRecOn with
  | nil => exact List.not_mem_nil
  | append_singleton calls call ih =>
      rw [List.mem_append, not_or, List.mem_singleton] at notClosed
      rw [traffic_append, List.mem_append, not_or]
      refine ⟨ih notClosed.1, ?_⟩
      rcases ((traffic capacity calls).board.step call).1 with _ | answer
      · cases call <;> simp [SwitchboardCall.sentBy]
      · rcases call with ⟨at_, obj⟩ | at_ | at_ | at_ | at_
        · simp only [SwitchboardCall.sentBy]
          split <;> simp
        · simp [SwitchboardCall.sentBy]
        · simp [SwitchboardCall.sentBy]
        · have ne : at_ ≠ side := fun same => notClosed.2 (same ▸ rfl)
          simp [SwitchboardCall.sentBy, ne]
        · simp [SwitchboardCall.sentBy]

/-- Before any `close`, one with nobody left to receive returns, however its thread and the pumps go
on, exactly when each direction has no more objects under way than one queue may hold. With one more
it returns in no order of their steps: a pump is stuck behind the full queue and never comes to its
sentinel.
-/
theorem close_returns_iff (capacity : Int) (calls : List SwitchboardCall)
    (notClosed : ∀ side, .sentinel side ∉ calls)
    : let t := traffic capacity calls
      let small := ∀ side, capacity ≤ 0
        ∨ ((t.sent side).length : Int) - (t.received side.peer).length ≤ capacity
      (Returns closeCalls t.board ↔ small) ∧ (CanReturn closeCalls t.board ↔ small) := by
  intro t small
  have accounted : t.Accounted capacity := traffic_accounted capacity calls
  have within : t.board.Within := by
    rw [Switchboard.Within, accounted.capacity_eq]
    exact accounted.within
  have isOpen (side : Side) : (t.board.lane side).IsOpen := by
    have none_put : none ∉ t.sent side := sent_of_not_closed capacity (notClosed side)
    rw [accounted.contents side, List.mem_append, not_or] at none_put
    exact Relay.isOpen_of_contents none_put.2
  have fits : (∀ side, (t.board.lane side).Fits t.board.capacity) ↔ small := by
    rw [accounted.capacity_eq]
    refine forall_congr' fun side => ?_
    have count := congrArg List.length (accounted.contents side)
    rw [List.length_append, List.length_map, ← (isOpen side).load_eq] at count
    rw [Relay.Fits, count]
    omega
  rw [← fits]
  exact Switchboard.closes_iff within isOpen

/-- Two objects that nobody receives keep a switchboard of capacity one from closing, one does not.
-/
theorem close_returns_iff_hangs
    : ¬ CanReturn closeCalls (traffic 1 [.send .left [1], .pump .left, .send .left [2]]).board
      ∧ Returns closeCalls (traffic 1 [.send .left [1], .pump .left]).board := by
  constructor
  · intro can
    have small :=
      (close_returns_iff 1 [.send .left [1], .pump .left, .send .left [2]] (by simp)).2.mp can
    exact absurd (small .left) (by decide)
  · refine (close_returns_iff 1 [.send .left [1], .pump .left] (by simp)).1.mpr fun side => ?_
    cases side <;> decide

end Naalp.Python.Delivery
