import Naalp.Python.Cbor
import Naalp.Python.Cose

/-! Signed directories of `impl/python/naalp/description.py`: collections of content ids. -/

namespace Naalp.Python.Description

open Naalp.Foundation
open Naalp.Python.Cbor
open Naalp.Python.Cose
open Naalp.Python.Fields

def malformed (msg : String) : Exc := .descriptionError .descMalformed msg

/-- `_decode_map`. -/
def decodeMap (b : Bytes) : Py (List (Value × Value)) :=
  match decode b with
  | .ok (.m pairs) => return pairs
  | .ok _ => throw (malformed "body is not a map")
  | .error (.nonCanonical _) => throw (malformed "body is not well-formed deterministic CBOR")
  | .error err => throw err

/-- A signed collection of content ids, with a version for each signer. -/
structure Directory where
  directory : Bytes
  version : Int
  members : List Bytes
  deriving DecidableEq

def Directory.bytes (d : Directory) : Py Bytes :=
  encode (.m [(.u 1, .b d.directory), (.u 2, .u d.version), (.u 3, .a (d.members.map .b))])

/-- The members of a directory; any item other than an octet string is refused. -/
def memberItems : List Value → Py (List Bytes)
  | [] => return []
  | .b v :: rest => return v :: (← memberItems rest)
  | _ => throw (malformed "member is not a bstr")

def parseDirectory (b : Bytes) : Py Directory := do
  let m ← decodeMap b
  match bstrField m 1, uintField m 2, field 3 m with
  | some directory, some version, some (.a items) =>
      return { directory, version, members := ← memberItems items }
  | _, _, _ => throw (malformed "directory missing or malformed field")

/-- The first index, counted from `i`, at which the lists differ or one of them ends. -/
def firstDifference (i : Int) : List Bytes → List Bytes → Option Int
  | a :: rest, b :: rest' => if a ≠ b then some i else firstDifference (i + 1) rest rest'
  | [], [] => none
  | _, _ => some i

def firstMemberDifference (a b : List Bytes) : Int × Bool :=
  match firstDifference 0 a b with
  | some i => (i, true)
  | none => (0, false)

/-- Two versions of one signer: the first different member, if they are one version of one
directory.
-/
def detectFork (a b : Directory) : Int × Bool :=
  if a.directory ≠ b.directory ∨ a.version ≠ b.version then (0, false)
  else firstMemberDifference a.members b.members

def algFromProtected (prot : Bytes) : Py Int :=
  readAlg (malformed "protected header has no alg") (malformed "protected header has no alg") prot

section Signing

variable (lib : SignatureLibrary)

def signDirectory (d : Directory) (alg : Int) (seed : Bytes) : Py Bytes := do
  coseSign1 lib alg seed (← bareProtectedHeader alg) (← d.bytes)

/-- `_verify_sign1`. -/
def verifySign1 (obj : Bytes) (profile alg : Int) (pubkey : Bytes) : Py Bytes :=
  floorGate lib .descriptionError algFromProtected obj profile alg pubkey

def verifyDirectory (obj : Bytes) (profile alg : Int) (pubkey : Bytes) : Py Directory := do
  let payload ← verifySign1 lib obj profile alg pubkey
  parseDirectory payload

/-- Two signed directories of the accused signer. -/
structure DirectoryForkProof where
  signer : Bytes
  signedA : Bytes
  signedB : Bytes

/-- `DescriptionError("DirForkProofInvalid", ..)`, of a kind that only a fork proof raises, or
another error.
-/
inductive ForkError where
  | dirForkProofInvalid (msg : String)
  | raised (err : Exc)

def DirectoryForkProof.verify (self : DirectoryForkProof) (profile alg : Int) (pubkey : Bytes)
    : Except ForkError Int := do
  raiseIf (self.signer = []) (.dirForkProofInvalid "an unnamed accused is not evidence")
  let a ← (verifyDirectory lib self.signedA profile alg pubkey).mapError .raised
  let b ← (verifyDirectory lib self.signedB profile alg pubkey).mapError .raised
  let (pos, fork) := detectFork a b
  raiseIf (fork = false) (.dirForkProofInvalid
    "same directory+version identical members, or not the same versioned directory")
  return pos

end Signing

end Naalp.Python.Description
