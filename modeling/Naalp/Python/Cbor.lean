import Naalp.Foundation.PrefixReader
import Naalp.Foundation.Sha2
import Naalp.Python.Exceptions

/-! The deterministic CBOR codec of `impl/python/naalp/cbor.py`. -/

namespace Naalp.Python.Cbor

open Naalp.Foundation

/-- The value model: unsigned, negative, byte string, text string, array, map and tag.
The integers are Python's own, so a value out of the encoder's range can be built.
-/
inductive Value where
  | u (v : Int)
  | n (v : Int)
  | b (v : Bytes)
  | t (v : PyStr)
  | a (items : List Value)
  | m (pairs : List (Value × Value))
  | tag (number : Int) (content : Value)
  deriving Repr, Inhabited

/-- `_head`: the shortest head of a major type with argument `n`. -/
def head (major : Nat) (n : Int) : Py Bytes :=
  if n < 24 then do
    -- a negative argument makes the initial octet negative, which `bytes` refuses
    raiseIf (n < 0) (.valueError "bytes must be in range(0, 256)")
    return [UInt8.ofNat (major <<< 5 ||| n.toNat)]
  else if n < 256 then do
    return [UInt8.ofNat (major <<< 5 ||| 24), ← byteOfInt n]
  else if n < 65536 then do
    return UInt8.ofNat (major <<< 5 ||| 25) :: (← intToBytes 2 n)
  else if n < 2 ^ 32 then do
    return UInt8.ofNat (major <<< 5 ||| 26) :: (← intToBytes 4 n)
  else do
    return UInt8.ofNat (major <<< 5 ||| 27) :: (← intToBytes 8 n)

/-- `enc.sort(key=lambda kv: kv[0])`: a stable sort by encoded key. -/
def sortByKey (enc : List (Bytes × Bytes)) : List (Bytes × Bytes) :=
  enc.insertionSort (fun left right => left.1 ≤ right.1)

mutual
def encode : Value → Py Bytes
  | .u v => do
      raiseIf (v < 0) (.nonCanonical "uint is negative")
      head 0 v
  | .n v => head 1 (-1 - v)
  | .b v => return (← head 2 v.length) ++ v
  | .t v => do
      let b ← v.encode
      return (← head 3 b.length) ++ b
  | .a items => return (← head 4 items.length) ++ (← encodeItems items)
  | .m pairs => do
      let enc := sortByKey (← encodePairs pairs)
      raiseIf (¬ (enc.map Prod.fst).Nodup) (.nonCanonical "duplicate map key")
      return (← head 5 enc.length) ++ enc.flatMap (fun kv => kv.1 ++ kv.2)
  | .tag number content => return (← head 6 number) ++ (← encode content)

def encodeItems : List Value → Py Bytes
  | [] => return []
  | item :: rest => return (← encode item) ++ (← encodeItems rest)

def encodePairs : List (Value × Value) → Py (List (Bytes × Bytes))
  | [] => return []
  | (k, val) :: rest => do
      let kb ← encode k
      let vb ← encode val
      return (kb, vb) :: (← encodePairs rest)
end

def unboundedDepth : Nat := 1 <<< 20

/-- Reads a `width`-octet argument and requires that no shorter head could carry it. -/
def extendedArg (width least : Nat) (body : Bytes) : Py (Nat × Bytes) := do
  raiseIf (body.length < width) (.nonCanonical "truncated head")
  let arg := ofBigEndian (body.take width)
  raiseIf (arg < least) (.nonCanonical "non-shortest integer")
  return (arg, body.drop width)

/-- The argument that the additional information `ai` announces, and the octets after it.
-/
def decodeArg (ai : Nat) (body : Bytes) : Py (Nat × Bytes) :=
  if ai < 24 then pure (ai, body)
  else if ai = 24 then extendedArg 1 24 body
  else if ai = 25 then extendedArg 2 256 body
  else if ai = 26 then extendedArg 4 65536 body
  else if ai = 27 then extendedArg 8 (2 ^ 32) body
  else throw (.nonCanonical "reserved additional-info")

/-- The head part of `_dec`: major type, argument and the octets after the head. -/
def decodeHead : (data : Bytes) → Py (Nat × Nat × Bytes)
  | [] => throw (.nonCanonical "truncated")
  | ib :: body => do
      let major := ib.toNat >>> 5
      let ai := ib.toNat &&& 0x1F
      raiseIf (ai = 31) (.nonCanonical "indefinite length")
      let (arg, rest) ← decodeArg ai body
      return (major, arg, rest)

section Loops

variable (item : Bytes → Py (Value × Bytes))

/-- The array loop of `_dec`, with the recursive call as a parameter. -/
def decodeItems (count : Nat) (cur : Bytes) : Py (List Value × Bytes) :=
  readLoop (fun (_ : Unit) cur => do
      let (it, cur) ← item cur
      return (it, (), cur))
    count () cur

/-- One round of the map loop of `_dec`. The key octets are the slice that decoding the key
consumed, and the order is checked only after the value was decoded.
-/
def decodePair (prev : Option Bytes) (before : Bytes)
    : Py ((Value × Value) × Option Bytes × Bytes) := do
  let (k, cur) ← item before
  let kbytes := before.take (before.length - cur.length)
  let (val, cur) ← item cur
  raiseIf (∃ p ∈ prev, kbytes ≤ p) (.nonCanonical "map keys out of order or duplicate")
  return ((k, val), some kbytes, cur)

def decodePairs (count : Nat) (cur : Bytes) : Py (List (Value × Value) × Bytes) :=
  readLoop (decodePair item) count none cur

/-- The part of `_dec` after the head, by major type. -/
def decodeContent (major arg : Nat) (rest : Bytes) : Py (Value × Bytes) :=
  match major with
  | 0 => return (.u arg, rest)
  | 1 => return (.n (-1 - arg), rest)
  | 2 => do
      raiseIf (rest.length < arg) (.nonCanonical "truncated byte string")
      return (.b (rest.take arg), rest.drop arg)
  | 3 => do
      raiseIf (rest.length < arg) (.nonCanonical "truncated text string")
      return (.t (← PyStr.decode (rest.take arg)), rest.drop arg)
  | 4 => do
      let (items, cur) ← decodeItems item arg rest
      return (.a items, cur)
  | 5 => do
      let (pairs, cur) ← decodePairs item arg rest
      return (.m pairs, cur)
  | 6 => do
      let (content, rest2) ← item rest
      return (.tag arg content, rest2)
  | _ => throw (.nonCanonical ("unsupported major type " ++ toString major))

end Loops

/-- `_dec`. The argument `remaining` is `max_depth + 1 - depth`, so running out of it is
the depth guard of the source.
-/
def dec : (remaining : Nat) → Bytes → Py (Value × Bytes)
  | 0, _ => throw (.depthExceeded "CBOR nesting depth exceeds the maximum")
  | remaining + 1, data => do
      let (major, arg, rest) ← decodeHead data
      decodeContent (dec remaining) major arg rest

def decodeBounded (data : Bytes) (maxDepth : Nat) : Py Value := do
  let (v, rest) ← dec maxDepth data
  raiseIf (rest ≠ []) (.nonCanonical "trailing bytes after top-level item")
  return v

def decode (data : Bytes) : Py Value := decodeBounded data unboundedDepth

/-- The content id of body octets: multihash(0x20, SHA-384). -/
def contentIdBytes (body : Bytes) : Bytes := 0x20 :: 0x30 :: Sha2.sha384 body

/-- `content_id` on a value, which is encoded first. -/
def contentId (body : Value) : Py Bytes := return contentIdBytes (← encode body)

end Naalp.Python.Cbor

/-! The field accessors that several modules of the Python implementation have a copy of. -/

namespace Naalp.Python.Fields

open Naalp.Foundation
open Naalp.Python.Cbor

/-- `_field`: the value under the first matching unsigned key. -/
def field (k : Int) : List (Value × Value) → Option Value
  | [] => none
  | (.u n, val) :: rest => if n = k then some val else field k rest
  | _ :: rest => field k rest

section Typed

variable (pairs : List (Value × Value)) (k : Int)

def bstrField : Option Bytes :=
  match field k pairs with
  | some (.b v) => some v
  | _ => none

def uintField : Option Int :=
  match field k pairs with
  | some (.u v) => some v
  | _ => none

def tstrField : Option PyStr :=
  match field k pairs with
  | some (.t v) => some v
  | _ => none

end Typed

/-- The `_decode_map` of `negotiation.py` and `naming.py`: a body that is not canonical or not a
map gives `None`.
-/
def decodeMap (b : Bytes) : Py (Option (List (Value × Value))) :=
  match decode b with
  | .ok (.m pairs) => return some pairs
  | .ok _ => return none
  | .error (.nonCanonical _) => return none
  | .error err => throw err

end Naalp.Python.Fields
