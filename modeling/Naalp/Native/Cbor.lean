import Naalp.Go.Cbor

/-! The decoder of `impl/rust/src/cbor.rs` and `impl/go/cbor/cbor.go` with the operations that
can panic: slices, a subtraction of lengths, and room reserved before the elements are read.
The two sources have the same body and the same texts; what they differ in is a `Target`.
-/

namespace Naalp.Native.Cbor

open Naalp.Foundation
open Naalp.Go (Stop Result maxInt64)
open Naalp.Go.Cbor (nonCanonical depthExceeded)
open Naalp.Python (PyStr)
open Naalp.Python.Cbor (Value)

/-- `b[..n]`. A Go slice may also be extended into its capacity; the decoder never does. -/
def sliceTo (b : Bytes) (n : Nat) : Result Bytes := do
  raiseIf (b.length < n) .panic
  return b.take n

/-- `b[n..]`. -/
def sliceFrom (b : Bytes) (n : Nat) : Result Bytes := do
  raiseIf (b.length < n) .panic
  return b.drop n

/-- A difference of lengths, which must not go below zero. -/
def lengthSub (left right : Nat) : Result Nat := do
  raiseIf (left < right) .panic
  return left - right

/-- Room asked for `count` elements, each of at least `octets` octets in the input `rest`. -/
structure Request where
  count : Nat
  elementSize : Nat
  octets : Nat
  rest : Bytes

/-- The remaining input can fill the room. -/
def Request.fits (r : Request) : Bool := r.count ≤ r.rest.length / r.octets

/-- What the implementations differ in: whether the count is compared with the remaining input,
how large an element is, and which requests the allocator grants.
-/
structure Target where
  bounded : Bool
  valueSize : Nat
  pairSize : Nat
  grant : Request → Bool

section Decoding

variable (target : Target)

/-- `Vec::with_capacity`, `make`: a request that is not granted panics. -/
def reserve (r : Request) : Result Unit := raiseIf (target.grant r = false) .panic

def itemRequest (count : Nat) (rest : Bytes) : Request :=
  { count, elementSize := target.valueSize, octets := 1, rest }

def pairRequest (count : Nat) (rest : Bytes) : Request :=
  { count, elementSize := target.pairSize, octets := 2, rest }

/-- One extended width of `read_arg`. -/
def readExtended (width least : Nat) (truncated : String) (b : Bytes) : Result (Nat × Bytes) := do
  raiseIf (b.length < width) (nonCanonical truncated)
  let n := ofBigEndian (← sliceTo b width)
  raiseIf (n < least) (nonCanonical "argument not in shortest form")
  return (n, ← sliceFrom b width)

def readArg (ai : Nat) (b : Bytes) : Result (Nat × Bytes) :=
  if ai < 24 then pure (ai, b)
  else if ai = 24 then readExtended 1 24 "truncated 1-byte argument" b
  else if ai = 25 then readExtended 2 (1 <<< 8) "truncated 2-byte argument" b
  else if ai = 26 then readExtended 4 (1 <<< 16) "truncated 4-byte argument" b
  else if ai = 27 then readExtended 8 (1 <<< 32) "truncated 8-byte argument" b
  else throw (nonCanonical "reserved or indefinite-length additional information")

variable (item : Bytes → Result (Value × Bytes))

/-- One round of the map loop: the key order is checked before the value is decoded. -/
def decodePair (prevKey : Option Bytes) (keyStart : Bytes)
    : Result ((Value × Value) × Option Bytes × Bytes) := do
  let (k, cur) ← item keyStart
  let kbytes ← sliceTo keyStart (← lengthSub keyStart.length cur.length)
  raiseIf (∃ p ∈ prevKey, kbytes < p) (nonCanonical "map keys not in canonical order")
  raiseIf (∃ p ∈ prevKey, p = kbytes) (nonCanonical "duplicate map key")
  let (val, cur) ← item cur
  return ((k, val), some kbytes, cur)

/-- The match over the major type. -/
def decodeContent (major arg : Nat) (rest : Bytes) : Result (Value × Bytes) :=
  match major with
  | 0 => return (.u arg, rest)
  | 1 => do
      raiseIf (arg > maxInt64) (nonCanonical "negative integer out of supported range")
      return (.n (-1 - arg), rest)
  | 2 => do
      raiseIf (rest.length < arg) (nonCanonical "byte string longer than input")
      return (.b (← sliceTo rest arg), ← sliceFrom rest arg)
  | 3 => do
      raiseIf (rest.length < arg) (nonCanonical "text string longer than input")
      let .ok s := PyStr.decode (← sliceTo rest arg)
        | throw (nonCanonical "text string is not valid UTF-8")
      return (.t s, ← sliceFrom rest arg)
  | 4 => do
      raiseIf (target.bounded ∧ rest.length < arg)
        (nonCanonical "array declares more elements than remaining input can contain")
      reserve target (itemRequest target arg rest)
      let (items, cur) ← Go.Cbor.decodeItems item arg rest
      return (.a items, cur)
  | 5 => do
      raiseIf (target.bounded ∧ arg > rest.length / 2)
        (nonCanonical "map declares more pairs than remaining input can contain")
      reserve target (pairRequest target arg rest)
      let (pairs, cur) ← readLoop (decodePair item) arg none rest
      return (.m pairs, cur)
  | 6 => do
      let (content, rest2) ← item rest
      return (.tag arg content, rest2)
  | _ => throw (nonCanonical "major type not used in the N-AALP spine")

/-- The recursion. The argument `remaining` is `max_depth + 1 - depth`. -/
def decodeAt (target : Target) : (remaining : Nat) → Bytes → Result (Value × Bytes)
  | 0, _ => throw depthExceeded
  | _ + 1, [] => throw (nonCanonical "unexpected end of input")
  | remaining + 1, ib :: b => do
      let major := ib.toNat >>> 5
      let ai := ib.toNat &&& 0x1f
      let (arg, rest) ← readArg ai b
      decodeContent target (decodeAt target remaining) major arg rest

def decodeTop (data : Bytes) (maxDepth : Nat) : Result Value := do
  let (v, rest) ← decodeAt target maxDepth data
  raiseIf (rest ≠ []) (nonCanonical "trailing bytes after item")
  return v

end Decoding

/-- The same target with an allocator that grants everything. -/
def Target.unlimited (target : Target) : Target := { target with grant := fun _ => true }

/-- The same target with an allocator that also refuses what the remaining input cannot fill. -/
def Target.strict (target : Target) : Target :=
  { target with grant := fun r => target.grant r && r.fits }

end Naalp.Native.Cbor

namespace Naalp.Go.Cbor

/-- The Go decoder compares the count first; `make` refuses more than the runtime's `limit`. -/
def target (valueSize limit : Nat) : Native.Cbor.Target where
  bounded := true
  valueSize := valueSize
  pairSize := 2 * valueSize
  grant r := r.count * r.elementSize ≤ limit

end Naalp.Go.Cbor

/-! The codec of `impl/rust/src/cbor.rs` on a 64-bit platform.
The layout of an enumeration is left to the compiler, so `valueSize`, the size in octets of a
`Value`, is a parameter; a pair is a tuple of two values.
-/

namespace Naalp.Rust

open Naalp.Go (Stop Result)

/-- `map_err(|_| error)`: every returned error becomes this one. -/
def mapErr {α : Type} (error : Stop) : Result α → Result α
  | .ok value => .ok value
  | .error .panic => .error .panic
  | .error (.error _ _) => .error error

/-- `expect`: an error is a panic. -/
def expect {α : Type} : Result α → Result α
  | .ok value => .ok value
  | .error _ => .error .panic

end Naalp.Rust

namespace Naalp.Rust.Cbor

open Naalp.Foundation
open Naalp.Go (Result)
open Naalp.Native.Cbor (Target)
open Naalp.Python.Cbor (Value)

/-- `encode`, with the branches of the Go encoder; a Rust string is always UTF-8. -/
def encode (v : Value) : Result Bytes := Go.Cbor.encode v

def contentId (bodyWithoutId : Value) : Result Bytes := do
  let enc ← encode bodyWithoutId
  return 0x20 :: 0x30 :: Sha2.sha384 enc

def isizeMax : Nat := 2 ^ 63 - 1

/-- The count is not compared with the input; `Vec::with_capacity` refuses more than
`isize::MAX` octets.
-/
def target (valueSize : Nat) : Target where
  bounded := false
  valueSize := valueSize
  pairSize := 2 * valueSize
  grant r := r.count * r.elementSize ≤ isizeMax

section Decoding

variable (valueSize : Nat)

def decodeTop (data : Bytes) (maxDepth : Nat) : Result Value :=
  Native.Cbor.decodeTop (target valueSize) data maxDepth

def maxDepthUnbounded : Nat := 1 <<< 20

def decode (data : Bytes) : Result Value := decodeTop valueSize data maxDepthUnbounded

def decodeBounded (data : Bytes) (maxDepth : Nat) : Result Value :=
  decodeTop valueSize data maxDepth

end Decoding

end Naalp.Rust.Cbor
