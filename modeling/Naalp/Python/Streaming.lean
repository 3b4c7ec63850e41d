import Mathlib.Data.List.AList
import Mathlib.Data.List.Sort
import Naalp.Foundation.Methods
import Naalp.Foundation.Sha2
import Naalp.Python.Policy

/-! Native streams of `impl/python/naalp/streaming.py`: the rolling commitment, its verifiers and
the guard of the stream state table.
-/

namespace Naalp.Python.Streaming

open Naalp.Foundation

def maxStreamChunks : Nat := 1048576

/-- One frame of a stream, at its absolute offset. -/
structure Chunk where
  offset : Int
  data : Bytes
  deriving DecidableEq

/-- What a SHA-384 state has been fed so far. -/
structure StreamDigest where
  fed : Bytes := []

def StreamDigest.update (sd : StreamDigest) (chunk : Bytes) : StreamDigest :=
  { sd with fed := sd.fed ++ chunk }

def StreamDigest.digestSoFar (sd : StreamDigest) : Bytes := Sha2.sha384 sd.fed

/-- `sorted` by offset, which keeps the order of chunks at one offset. -/
def sortChunks (chunks : List Chunk) : List Chunk :=
  chunks.insertionSort fun c d => c.offset ≤ d.offset

def commitDigest (chunks : List Chunk) : Bytes :=
  ((sortChunks chunks).foldl (fun sd c => StreamDigest.update sd c.data) {}).digestSoFar

structure StreamOpen where
  streamId : Bytes
  effect : Int

structure StreamCommit where
  streamId : Bytes
  digest : Bytes

/-- The prefix that a checkpoint stands for; its stream id is not read by the verifier. -/
structure StreamCheckpoint where
  throughOffset : Int
  digestSoFar : Bytes

def openStream (o : StreamOpen) (grantedMax : Int) : Py Unit :=
  raiseIf (Policy.authorizes grantedMax (Policy.normalizeEffect o.effect) = false)
    (.streamError .effectNotAuthorized "stream effect exceeds the granted capability ceiling")

def verifyCommit (commit : StreamCommit) (chunks : List Chunk) : Py Unit := do
  raiseIf (chunks.length > maxStreamChunks)
    (.streamError .tooManyChunks "stream chunk count exceeds the maximum (§3.4, R7)")
  raiseIf (commit.digest ≠ commitDigest chunks) (.streamError .streamDigestMismatch
    "stream commitment digest does not match the recomputed digest")

/-- The loop of `verify_checkpoint`: the end of chunks that are contiguous from `total` on. -/
def contiguousEnd : (total : Int) → List Chunk → Py Int
  | total, [] => return total
  | total, c :: rest => do
      raiseIf (c.offset ≠ total) (.streamError .streamDigestMismatch "non-contiguous prefix")
      contiguousEnd (total + c.data.length) rest

/-- `verify_checkpoint`; `chunks` is the parameter for the prefix. -/
def verifyCheckpoint (cp : StreamCheckpoint) (chunks : List Chunk) : Py Unit := do
  raiseIf (chunks.length > maxStreamChunks)
    (.streamError .tooManyChunks "stream chunk count exceeds the maximum (§3.4, R7)")
  let total ← contiguousEnd 0 (sortChunks chunks)
  raiseIf (total ≠ cp.throughOffset) (.streamError .streamDigestMismatch
    "prefix length does not match through_offset")
  raiseIf (cp.digestSoFar ≠ commitDigest chunks) (.streamError .streamDigestMismatch
    "prefix digest does not match the checkpoint")

/-- A stream's place in the state table; `opened` is `STATE_OPEN` of the source. -/
inductive StreamState where
  | idle
  | opened
  | committed
  | abandoned
  deriving DecidableEq, Repr

structure Guard where
  states : AList (fun _ : Bytes => StreamState) := ∅

/-- The state of a stream; an id that was never seen is idle. -/
def Guard.state (guard : Guard) (streamId : Bytes) : StreamState :=
  (guard.states.lookup streamId).getD .idle

def Guard.put (guard : Guard) (streamId : Bytes) (state : StreamState) : Guard :=
  { guard with states := guard.states.insert streamId state }

def streamStateError : Exc := .streamError .streamStateError
  "stream event is illegal for the current stream state (§10 state table)"

/-- The check that every method of the guard begins with. -/
def Guard.require (state : StreamState) (streamId : Bytes) : EStateM Exc Guard Unit := do
  let guard ← get
  check (raiseIf (guard.state streamId ≠ state) streamStateError)

def Guard.open (o : StreamOpen) (grantedMax : Int) : EStateM Exc Guard Unit := do
  Guard.require .idle o.streamId
  check (openStream o grantedMax)
  modify fun guard => guard.put o.streamId .opened

def Guard.chunk (streamId : Bytes) : EStateM Exc Guard Unit := Guard.require .opened streamId

def Guard.checkpoint (streamId : Bytes) : EStateM Exc Guard Unit := Guard.require .opened streamId

def Guard.commit (commitObj : StreamCommit) (chunks : List Chunk) : EStateM Exc Guard Unit := do
  Guard.require .opened commitObj.streamId
  check (verifyCommit commitObj chunks)
  modify fun guard => guard.put commitObj.streamId .committed

def Guard.expire (streamId : Bytes) : EStateM Exc Guard Unit := do
  Guard.require .opened streamId
  modify fun guard => guard.put streamId .abandoned

end Naalp.Python.Streaming
