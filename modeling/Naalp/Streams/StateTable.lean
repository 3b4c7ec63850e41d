import Naalp.Python.Streaming

/-! The stream guard. Over every run of events it follows the state table of streams, whatever the
streams and the order of their events.
-/

namespace Naalp.Streams

open Naalp.Foundation
open Naalp.Python
open Naalp.Python.Streaming

/-- The calls of the methods of a guard. -/
inductive StreamEvent where
  | opens (o : StreamOpen) (grantedMax : Int)
  | chunk (streamId : Bytes)
  | checkpoint (streamId : Bytes)
  | commit (commitObj : StreamCommit) (chunks : List Chunk)
  | expire (streamId : Bytes)

/-- The stream that an event is about. -/
def StreamEvent.stream : StreamEvent → Bytes
  | .opens o _ => o.streamId
  | .chunk streamId => streamId
  | .checkpoint streamId => streamId
  | .commit commitObj _ => commitObj.streamId
  | .expire streamId => streamId

def handle : StreamEvent → EStateM Exc Guard Unit
  | .opens o grantedMax => Guard.open o grantedMax
  | .chunk streamId => Guard.chunk streamId
  | .checkpoint streamId => Guard.checkpoint streamId
  | .commit commitObj chunks => Guard.commit commitObj chunks
  | .expire streamId => Guard.expire streamId

/-- The state table: which states admit an event, and where it leads. -/
inductive Row : StreamEvent → StreamState → StreamState → Prop where
  | opens {o : StreamOpen} {grantedMax : Int}
    (authorized : Policy.normalizeEffect o.effect ≤ grantedMax)
    : Row (.opens o grantedMax) .idle .opened
  | chunk {streamId : Bytes} : Row (.chunk streamId) .opened .opened
  | checkpoint {streamId : Bytes} : Row (.checkpoint streamId) .opened .opened
  | commit {commitObj : StreamCommit} {chunks : List Chunk}
    (bounded : chunks.length ≤ maxStreamChunks) (digest : commitObj.digest = commitDigest chunks)
    : Row (.commit commitObj chunks) .opened .committed
  | expire {streamId : Bytes} : Row (.expire streamId) .opened .abandoned

theorem state_put {guard : Guard} {streamId : Bytes} {state : StreamState}
    : (guard.put streamId state).state = Function.update guard.state streamId state := by
  funext s
  by_cases same : s = streamId
  · subst same
    simp [Guard.state, Guard.put]
  · rw [Function.update_of_ne same, Guard.state, Guard.put, AList.lookup_insert_ne same,
      Guard.state]

/-- A requirement is met exactly in the state that it asks for, and changes nothing. -/
theorem require_eq_ok {guard after : Guard} {state : StreamState} {streamId : Bytes} {done : Unit}
    : Guard.require state streamId guard = .ok done after
      ↔ guard.state streamId = state ∧ after = guard := by
  simp only [Guard.require, method_bind_eq_ok, get_eq_ok, check_eq_ok, raiseIf_eq_ok, not_not,
    ne_eq]
  constructor
  · intro required
    obtain ⟨_, _, ⟨rfl, rfl⟩, same, rfl⟩ := required
    exact ⟨same, rfl⟩
  · intro required
    obtain ⟨same, rfl⟩ := required
    exact ⟨after, after, ⟨rfl, rfl⟩, same, rfl⟩

theorem require_reads (state : StreamState) (streamId : Bytes)
    : Reads (Guard.require state streamId) := by
  refine ⟨fun guard value after returned => (require_eq_ok.mp returned).2, ?_⟩
  exact reads_get.bind fun guard => (reads_check _).2

theorem openStream_eq_ok {o : StreamOpen} {grantedMax : Int} {done : Unit}
    : openStream o grantedMax = .ok done ↔ Policy.normalizeEffect o.effect ≤ grantedMax := by
  rw [openStream, raiseIf_eq_ok, Bool.not_eq_false]
  exact decide_eq_true_iff

theorem verifyCommit_eq_ok {commitObj : StreamCommit} {chunks : List Chunk} {done : Unit}
    : verifyCommit commitObj chunks = .ok done
      ↔ chunks.length ≤ maxStreamChunks ∧ commitObj.digest = commitDigest chunks := by
  rw [verifyCommit, raiseIf_bind_eq_ok, raiseIf_eq_ok, not_not, gt_iff_lt, not_lt]

/-- A refused event changes nothing, since a guard records a state after all checks only. -/
theorem handle_atomic (event : StreamEvent) : Atomic (handle event) := by
  cases event with
  | opens o grantedMax =>
      exact (require_reads _ _).bind fun _ => (reads_check _).bind fun _ => (total_modify _).atomic
  | chunk streamId => exact (require_reads _ _).2
  | checkpoint streamId => exact (require_reads _ _).2
  | commit commitObj chunks =>
      exact (require_reads _ _).bind fun _ => (reads_check _).bind fun _ => (total_modify _).atomic
  | expire streamId => exact (require_reads _ _).bind fun _ => (total_modify _).atomic

/-- An admitted event moves its stream along a row of the table and leaves the others alone.
Witness: cases on the event; what each of them requires of the state is the row.
-/
theorem handle_row {event : StreamEvent} {guard after : Guard} {done : Unit}
    (admitted : handle event guard = .ok done after)
    : ∃ next, Row event (guard.state event.stream) next
      ∧ after.state = Function.update guard.state event.stream next := by
  cases event with
  | opens o grantedMax =>
      simp only [handle, Guard.open, method_bind_eq_ok, require_eq_ok, check_eq_ok,
        openStream_eq_ok, modify_eq_ok] at admitted
      obtain ⟨_, _, ⟨idle, rfl⟩, _, _, ⟨authorized, rfl⟩, rfl⟩ := admitted
      exact ⟨.opened, idle ▸ .opens authorized, state_put⟩
  | chunk streamId =>
      obtain ⟨isOpen, rfl⟩ := require_eq_ok.mp admitted
      have stays : after.state = Function.update after.state streamId .opened :=
        isOpen ▸ (Function.update_eq_self _ _).symm
      exact ⟨.opened, isOpen.symm ▸ .chunk, stays⟩
  | checkpoint streamId =>
      obtain ⟨isOpen, rfl⟩ := require_eq_ok.mp admitted
      have stays : after.state = Function.update after.state streamId .opened :=
        isOpen ▸ (Function.update_eq_self _ _).symm
      exact ⟨.opened, isOpen.symm ▸ .checkpoint, stays⟩
  | commit commitObj chunks =>
      simp only [handle, Guard.commit, method_bind_eq_ok, require_eq_ok, check_eq_ok,
        verifyCommit_eq_ok, modify_eq_ok] at admitted
      obtain ⟨_, _, ⟨isOpen, rfl⟩, _, _, ⟨⟨bounded, digest⟩, rfl⟩, rfl⟩ := admitted
      exact ⟨.committed, isOpen ▸ .commit bounded digest, state_put⟩
  | expire streamId =>
      simp only [handle, Guard.expire, method_bind_eq_ok, require_eq_ok, modify_eq_ok] at admitted
      obtain ⟨_, _, ⟨isOpen, rfl⟩, rfl⟩ := admitted
      exact ⟨.abandoned, isOpen ▸ .expire, state_put⟩

/-- An event that the table admits is admitted. -/
theorem handle_of_row {event : StreamEvent} {guard : Guard} {next : StreamState}
    (row : Row event (guard.state event.stream) next)
    : ∃ after, handle event guard = .ok () after := by
  generalize current : guard.state event.stream = state at row
  cases row with
  | @opens o grantedMax authorized =>
      refine ⟨guard.put o.streamId .opened, ?_⟩
      simp only [handle, Guard.open, method_bind_eq_ok, require_eq_ok, check_eq_ok,
        openStream_eq_ok, modify_eq_ok]
      exact ⟨(), guard, ⟨current, rfl⟩, (), guard, ⟨authorized, rfl⟩, rfl⟩
  | chunk => exact ⟨guard, require_eq_ok.mpr ⟨current, rfl⟩⟩
  | checkpoint => exact ⟨guard, require_eq_ok.mpr ⟨current, rfl⟩⟩
  | @commit commitObj chunks bounded digest =>
      refine ⟨guard.put commitObj.streamId .committed, ?_⟩
      simp only [handle, Guard.commit, method_bind_eq_ok, require_eq_ok, check_eq_ok,
        verifyCommit_eq_ok, modify_eq_ok]
      exact ⟨(), guard, ⟨current, rfl⟩, (), guard, ⟨⟨bounded, digest⟩, rfl⟩, rfl⟩
  | @expire streamId =>
      refine ⟨guard.put streamId .abandoned, ?_⟩
      simp only [handle, Guard.expire, method_bind_eq_ok, require_eq_ok, modify_eq_ok]
      exact ⟨(), guard, ⟨current, rfl⟩, rfl⟩

/-- An event either moves its stream along a row or is refused and changes nothing. -/
theorem respond_handle (event : StreamEvent) (guard : Guard)
    : ((respond handle guard event).1 = .ok ()
        ∧ ∃ next, Row event (guard.state event.stream) next
          ∧ (respond handle guard event).2.state = Function.update guard.state event.stream next)
      ∨ (∃ error, (respond handle guard event).1 = .error error)
        ∧ (respond handle guard event).2 = guard := by
  cases called : handle event guard with
  | ok done after =>
      rw [respond_eq_ok.mpr called]
      exact .inl ⟨rfl, handle_row called⟩
  | error error after =>
      obtain rfl := handle_atomic _ _ _ _ called
      rw [respond_eq_error.mpr called]
      exact .inr ⟨⟨error, rfl⟩, rfl⟩

/-- The states that no row leaves. -/
def Terminal (state : StreamState) : Prop := state = .committed ∨ state = .abandoned

theorem Row.not_terminal {event : StreamEvent} {state next : StreamState}
    (row : Row event state next) : ¬ Terminal state := by
  cases row <;> simp [Terminal]

theorem Row.not_idle {event : StreamEvent} {state next : StreamState}
    (row : Row event state next) : next ≠ .idle := by
  cases row <;> simp

theorem terminal_respond {guard : Guard} {streamId : Bytes}
    (terminal : Terminal (guard.state streamId)) (event : StreamEvent)
    : (respond handle guard event).2.state streamId = guard.state streamId := by
  rcases respond_handle event guard with ⟨-, next, row, after⟩ | ⟨-, same⟩
  · have other : streamId ≠ event.stream := by
      rintro rfl
      exact row.not_terminal terminal
    rw [after, Function.update_of_ne other]
  · rw [same]

/-- A stream that left the idle state never returns to it. -/
theorem not_idle_respond {guard : Guard} {streamId : Bytes} (seen : guard.state streamId ≠ .idle)
    (event : StreamEvent) : (respond handle guard event).2.state streamId ≠ .idle := by
  rcases respond_handle event guard with ⟨-, next, row, after⟩ | ⟨-, same⟩
  · rw [after]
    by_cases here : streamId = event.stream
    · rw [here, Function.update_self]
      exact row.not_idle
    · rwa [Function.update_of_ne here]
  · rwa [same]

/-- The guard after a run of events. -/
def guardAfter (guard : Guard) (events : List StreamEvent) : Guard :=
  finalState (respond handle) guard events

/-- A terminal state is never left, by induction over the events. -/
theorem terminal_guardAfter {guard : Guard} {streamId : Bytes} {state : StreamState}
    (terminal : Terminal state) (reached : guard.state streamId = state) (events : List StreamEvent)
    : (guardAfter guard events).state streamId = state := by
  refine @finalState_keeps _ _ _ _ (fun guard : Guard => guard.state streamId = state) ?_ _ reached
    events
  intro guard event reached
  rw [terminal_respond (reached.symm ▸ terminal), reached]

/-- The stream that an event opens if it is admitted. -/
def openedStream : StreamEvent → Option Bytes
  | .opens o _ => some o.streamId
  | _ => none

/-- No stream is opened twice: an open needs an idle stream, and no event makes one idle. -/
theorem opened_nodup (guard : Guard) (events : List StreamEvent)
    : ((accepted handle guard events).filterMap openedStream).Nodup := by
  rw [accepted, List.filterMap_filterMap]
  refine (@wins_nodup _ _ _ _ (respond handle) (fun _ => True) (fun _ => True) _
    (fun guard : Guard => { streamId | guard.state streamId ≠ .idle }) ?_ ?_ ?_ guard events trivial
    fun _ _ => trivial).1
  · intro guard event _ _
    trivial
  · intro guard event _ _ streamId seen
    exact not_idle_respond seen event
  · intro guard event streamId _ _ won
    simp only [answer] at won
    rcases respond_handle event guard with ⟨returned, next, row, after⟩ | ⟨⟨error, raised⟩, -⟩
    · rw [returned] at won
      generalize current : guard.state event.stream = state at row
      cases row <;> simp only [Except.toOption, Option.map_some, Option.bind_some, openedStream,
        Option.some.injEq, reduceCtorEq] at won
      case opens =>
        subst won
        rw [Set.mem_ofPred, Set.mem_ofPred, after]
        simp only [StreamEvent.stream] at current
        simp [current, StreamEvent.stream]
    · simp [raised, Except.toOption] at won

/-- A committed stream was committed by a commit event while open, by induction from the end of the
events.
-/
theorem committed_by_commit {streamId : Bytes} {events : List StreamEvent}
    (committed : (guardAfter {} events).state streamId = .committed)
    : ∃ before commitObj chunks later, events = before ++ .commit commitObj chunks :: later
      ∧ commitObj.streamId = streamId ∧ (guardAfter {} before).state streamId = .opened
      ∧ chunks.length ≤ maxStreamChunks ∧ commitObj.digest = commitDigest chunks := by
  induction events using List.reverseRecOn with
  | nil => cases committed
  | append_singleton events event ih =>
      have last : guardAfter {} (events ++ [event])
          = (respond handle (guardAfter {} events) event).2 := List.foldl_concat ..
      rw [last] at committed
      by_cases already : (guardAfter {} events).state streamId = .committed
      · obtain ⟨before, commitObj, chunks, later, rfl, found⟩ := ih already
        exact ⟨before, commitObj, chunks, later ++ [event], by simp, found⟩
      rcases respond_handle event (guardAfter {} events) with ⟨-, next, row, after⟩ | ⟨-, same⟩
      · rw [after] at committed
        by_cases here : streamId = event.stream
        · subst here
          rw [Function.update_self] at committed
          subst committed
          generalize current : (guardAfter {} events).state event.stream = state at row
          cases row with
          | @commit commitObj chunks bounded digest =>
              exact ⟨events, commitObj, chunks, [], rfl, rfl, current, bounded, digest⟩
        · rw [Function.update_of_ne here] at committed
          exact absurd committed already
      · rw [same] at committed
        exact absurd committed already

/-- After every run of events: an event is admitted exactly when a row of the table admits it, and
then moves its stream along that row; it changes no other stream, and a refused one changes nothing;
terminal states are never left; no stream is opened twice; and a committed stream was committed by a
commit event whose chunks match its digest while the stream was open.
Witness: the rows decide each step, and what they keep is kept along the run.
-/
theorem guard_follows_state_table (events : List StreamEvent)
    : (∀ event,
        ((respond handle (guardAfter {} events) event).1 = .ok ()
          ↔ ∃ next, Row event ((guardAfter {} events).state event.stream) next)
        ∧ ((respond handle (guardAfter {} events) event).1 = .ok ()
          → Row event ((guardAfter {} events).state event.stream)
            ((respond handle (guardAfter {} events) event).2.state event.stream))
        ∧ (∀ streamId ≠ event.stream, (respond handle (guardAfter {} events) event).2.state streamId
          = (guardAfter {} events).state streamId)
        ∧ (∀ error, (respond handle (guardAfter {} events) event).1 = .error error
          → (respond handle (guardAfter {} events) event).2 = guardAfter {} events))
      ∧ (∀ streamId more, Terminal ((guardAfter {} events).state streamId)
        → (guardAfter {} (events ++ more)).state streamId = (guardAfter {} events).state streamId)
      ∧ ((accepted handle {} events).filterMap openedStream).Nodup
      ∧ (∀ streamId, (guardAfter {} events).state streamId = .committed
        → ∃ before commitObj chunks later, events = before ++ .commit commitObj chunks :: later
          ∧ commitObj.streamId = streamId ∧ (guardAfter {} before).state streamId = .opened
          ∧ chunks.length ≤ maxStreamChunks ∧ commitObj.digest = commitDigest chunks) := by
  refine ⟨?_, ?_, opened_nodup {} events, fun _ => committed_by_commit⟩
  · intro event
    refine ⟨⟨?_, ?_⟩, ?_, ?_, fun error => (handle_atomic event).respond⟩
    · intro admitted
      rcases respond_handle event (guardAfter {} events) with ⟨-, next, row, -⟩ | ⟨⟨_, raised⟩, -⟩
      · exact ⟨next, row⟩
      · rw [raised] at admitted
        cases admitted
    · intro admits
      obtain ⟨next, row⟩ := admits
      obtain ⟨after, admitted⟩ := handle_of_row row
      rw [respond_eq_ok.mpr admitted]
    · intro admitted
      rcases respond_handle event (guardAfter {} events) with
        ⟨-, next, row, after⟩ | ⟨⟨_, raised⟩, -⟩
      · rwa [after, Function.update_self]
      · rw [raised] at admitted
        cases admitted
    · intro streamId other
      rcases respond_handle event (guardAfter {} events) with ⟨-, next, -, after⟩ | ⟨-, same⟩
      · rw [after, Function.update_of_ne other]
      · rw [same]
  · intro streamId more terminal
    rw [guardAfter, finalState, List.foldl_append]
    exact terminal_guardAfter terminal rfl more

end Naalp.Streams
