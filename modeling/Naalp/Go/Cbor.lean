import Naalp.Python.Cbor

/-! The deterministic CBOR codec of `impl/go/cbor/cbor.go`.
Its seven value types are those of the Python codec, so the type of values is shared; the
ranges of `uint64` and `int64` are checked where the decoder converts to them.
-/

namespace Naalp.Go

open Naalp.Foundation
open Naalp.Python (Kind PyStr)

/-- How a call ends without a result: with an error of a stable kind, or in a panic. -/
inductive Stop where
  | error (kind : Kind) (msg : String)
  | panic
  deriving DecidableEq, Repr

abbrev Result (α : Type) : Type := Except Stop α

def maxInt64 : Nat := 2 ^ 63 - 1

end Naalp.Go

namespace Naalp.Go.Cbor

open Naalp.Foundation
open Naalp.Python (Kind PyStr)
open Naalp.Python.Cbor (Value)

def nonCanonical (msg : String) : Stop := .error .nonCanonical msg

def depthExceeded : Stop := .error .depthExceeded "CBOR nesting depth exceeds the maximum"

/-- The shortest head of a major type with a `uint64` argument. -/
def encHead (major n : Nat) : Bytes :=
  let mt := major <<< 5
  if n < 24 then [UInt8.ofNat (mt ||| n)]
  else if n < 1 <<< 8 then UInt8.ofNat (mt ||| 24) :: toBigEndian 1 n
  else if n < 1 <<< 16 then UInt8.ofNat (mt ||| 25) :: toBigEndian 2 n
  else if n < 1 <<< 32 then UInt8.ofNat (mt ||| 26) :: toBigEndian 4 n
  else UInt8.ofNat (mt ||| 27) :: toBigEndian 8 n

/-- `sort.Slice` by encoded key; the keys are distinct, so every sort gives the same order. -/
def sortByKey (encs : List (Bytes × Bytes)) : List (Bytes × Bytes) :=
  encs.insertionSort (fun left right => left.1 ≤ right.1)

mutual
def encode : Value → Result Bytes
  | .u v => return encHead 0 v.toNat
  | .n v => do
      raiseIf (0 ≤ v) (.error .unencodable "Nint must be negative")
      return encHead 1 (-(v + 1)).toNat
  | .b v => return encHead 2 v.length ++ v
  | .t v => do
      let .ok b := v.encode | throw (nonCanonical "text string is not valid UTF-8")
      return encHead 3 b.length ++ b
  | .a items => return encHead 4 items.length ++ (← encodeItems items)
  | .tag number content => return encHead 6 number.toNat ++ (← encode content)
  | .m pairs => do
      let encs := sortByKey (← encodePairs [] pairs)
      return encHead 5 pairs.length ++ encs.flatMap (fun e => e.1 ++ e.2)

def encodeItems : List Value → Result Bytes
  | [] => return []
  | it :: rest => return (← encode it) ++ (← encodeItems rest)

/-- The loop of the map case; `seen` holds the encoded keys of the pairs before. -/
def encodePairs (seen : List Bytes) : List (Value × Value) → Result (List (Bytes × Bytes))
  | [] => return []
  | (k, v) :: rest => do
      let ek ← encode k
      let ev ← encode v
      raiseIf (ek ∈ seen) (nonCanonical "duplicate map key")
      return (ek, ev) :: (← encodePairs (ek :: seen) rest)
end

/-- `ContentID` of a body map. -/
def contentID (bodyWithoutID : List (Value × Value)) : Result Bytes := do
  let enc ← encode (.m bodyWithoutID)
  return 0x20 :: 0x30 :: Sha2.sha384 enc

/-- One extended width of `readArg`. -/
def readExtended (width least : Nat) (truncated : String) (b : Bytes) : Result (Nat × Bytes) := do
  raiseIf (b.length < width) (nonCanonical truncated)
  let n := ofBigEndian (b.take width)
  raiseIf (n < least) (nonCanonical "argument not in shortest form")
  return (n, b.drop width)

def readArg (ai : Nat) (b : Bytes) : Result (Nat × Bytes) :=
  if ai < 24 then pure (ai, b)
  else if ai = 24 then readExtended 1 24 "truncated 1-byte argument" b
  else if ai = 25 then readExtended 2 (1 <<< 8) "truncated 2-byte argument" b
  else if ai = 26 then readExtended 4 (1 <<< 16) "truncated 4-byte argument" b
  else if ai = 27 then readExtended 8 (1 <<< 32) "truncated 8-byte argument" b
  else throw (nonCanonical "reserved or indefinite-length additional information")

section Loops

variable (item : Bytes → Result (Value × Bytes))

def decodeItems (arg : Nat) (rest : Bytes) : Result (List Value × Bytes) :=
  readLoop (fun (_ : Unit) cur => do
      let (it, cur) ← item cur
      return (it, (), cur))
    arg () rest

/-- One round of the map loop: the key order is checked before the value is decoded. -/
def decodePair (prevKey : Option Bytes) (keyStart : Bytes)
    : Result ((Value × Value) × Option Bytes × Bytes) := do
  let (k, cur) ← item keyStart
  let kbytes := keyStart.take (keyStart.length - cur.length)
  raiseIf (∃ p ∈ prevKey, kbytes < p) (nonCanonical "map keys not in canonical order")
  raiseIf (∃ p ∈ prevKey, p = kbytes) (nonCanonical "duplicate map key")
  let (val, cur) ← item cur
  return ((k, val), some kbytes, cur)

def decodePairs (arg : Nat) (rest : Bytes) : Result (List (Value × Value) × Bytes) :=
  readLoop (decodePair item) arg none rest

/-- The switch of `decode` over the major type. -/
def decodeContent (major arg : Nat) (rest : Bytes) : Result (Value × Bytes) :=
  match major with
  | 0 => return (.u arg, rest)
  | 1 => do
      raiseIf (arg > maxInt64) (nonCanonical "negative integer out of supported range")
      return (.n (-1 - arg), rest)
  | 2 => do
      raiseIf (rest.length < arg) (nonCanonical "byte string longer than input")
      return (.b (rest.take arg), rest.drop arg)
  | 3 => do
      raiseIf (rest.length < arg) (nonCanonical "text string longer than input")
      let .ok s := PyStr.decode (rest.take arg)
        | throw (nonCanonical "text string is not valid UTF-8")
      return (.t s, rest.drop arg)
  | 4 => do
      raiseIf (rest.length < arg)
        (nonCanonical "array declares more elements than remaining input can contain")
      let (items, cur) ← decodeItems item arg rest
      return (.a items, cur)
  | 5 => do
      raiseIf (arg > rest.length / 2)
        (nonCanonical "map declares more pairs than remaining input can contain")
      let (pairs, cur) ← decodePairs item arg rest
      return (.m pairs, cur)
  | 6 => do
      let (content, rest2) ← item rest
      return (.tag arg content, rest2)
  | _ => throw (nonCanonical "major type not used in the N-AALP spine")

end Loops

/-- `decode`. The argument `remaining` is `maxDepth + 1 - depth`. -/
def decodeAt : (remaining : Nat) → Bytes → Result (Value × Bytes)
  | 0, _ => throw depthExceeded
  | _ + 1, [] => throw (nonCanonical "unexpected end of input")
  | remaining + 1, ib :: b => do
      let major := ib.toNat >>> 5
      let ai := ib.toNat &&& 0x1f
      let (arg, rest) ← readArg ai b
      decodeContent (decodeAt remaining) major arg rest

def decodeTop (data : Bytes) (maxDepth : Nat) : Result Value := do
  let (v, rest) ← decodeAt maxDepth data
  raiseIf (rest ≠ []) (nonCanonical "trailing bytes after item")
  return v

def maxDepthUnbounded : Nat := 1 <<< 20

def decode (data : Bytes) : Result Value := decodeTop data maxDepthUnbounded

def decodeBounded (data : Bytes) (maxDepth : Nat) : Result Value := decodeTop data maxDepth

end Naalp.Go.Cbor
