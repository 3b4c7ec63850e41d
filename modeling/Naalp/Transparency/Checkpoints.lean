import Naalp.Authorization.GrantNarrowing
import Naalp.Rust.EvidenceRecords
import Naalp.Transparency.RustAgreement

/-! What the checkpoints of a transparency log commit it to. A cosigned checkpoint pins the history
before it, and a log that shows two views of one position is convicted by its own signatures; unless
two octet strings that were hashed have one digest.
-/

namespace Naalp.Transparency

open Naalp.Foundation
open Naalp.Foundation.Sha2 (DigestsCollide)
open Naalp.Python.Cbor
open Naalp.Rust.EvidenceRecord (CheckpointRoot WitnessCosign checkWitnessRoot genesis
  verifyCheckpointsFrom verifyCheckpointChain verifyCheckpointFork)

-----------------------------------------------------------------------------------------
-- Signed bodies
-----------------------------------------------------------------------------------------

/-- The fields of a checkpoint, in the order of their keys. -/
def checkpointFields (c : CheckpointRoot) : List Value :=
  [c.log.value, .u c.size.toNat, c.root.value, c.prev.value, .u c.time.toNat]

theorem encodable_checkpoint (c : CheckpointRoot) : Encodable c.value := by
  refine (@encodable_numbered 1 (checkpointFields c) (by simp [checkpointFields])).mpr ?_
  simp only [checkpointFields, List.forall_mem_cons]
  exact ⟨Authorization.encodable_octets _, Authorization.encodable_uint64 _,
    Authorization.encodable_octets _, Authorization.encodable_octets _,
    Authorization.encodable_uint64 _, by simp⟩

theorem encodable_cosign (w : WitnessCosign) : Encodable w.value := by
  refine (@encodable_numbered 1 [w.witness.value, w.root.value, .u w.time.toNat] (by simp)).mpr ?_
  simp only [List.forall_mem_cons]
  exact ⟨Authorization.encodable_octets _, Authorization.encodable_octets _,
    Authorization.encodable_uint64 _, by simp⟩

/-- The octets that a log signs, and of which a checkpoint has its head and its id. -/
def checkpointBody (c : CheckpointRoot) : Bytes := encoding c.value

theorem checkpoint_bytes (c : CheckpointRoot) : c.bytes = .ok (checkpointBody c) := by
  rw [CheckpointRoot.bytes, Rust.Cbor.encode,
    Implementations.goEncode_of_encodable (encodable_checkpoint c)]
  rfl

theorem checkpoint_head (c : CheckpointRoot) : c.head = .ok (Sha2.sha384 (checkpointBody c)) := by
  rw [CheckpointRoot.head, checkpoint_bytes, ok_bind, pure_eq_ok]

theorem checkpoint_id (c : CheckpointRoot) : c.id = .ok (contentIdBytes (checkpointBody c)) := by
  rw [CheckpointRoot.id, checkpoint_bytes, ok_bind, pure_eq_ok]

theorem cosign_bytes (w : WitnessCosign) : w.bytes = .ok (encoding w.value) := by
  rw [WitnessCosign.bytes, Rust.Cbor.encode,
    Implementations.goEncode_of_encodable (encodable_cosign w)]
  rfl

/-- The body of a checkpoint gives the checkpoint back. -/
theorem checkpointBody_injective : Function.Injective checkpointBody := by
  intro c c' same
  have leaves (c : CheckpointRoot) : ∀ v ∈ checkpointFields c, Leaf v := by
    simp [checkpointFields, Leaf, Rust.Octets.value]
  have encoded : encode (.m (numbered 1 (checkpointFields c))) = .ok (checkpointBody c) :=
    encodable_checkpoint c
  have encoded' : encode (.m (numbered 1 (checkpointFields c'))) = .ok (checkpointBody c') :=
    encodable_checkpoint c'
  have fields := values_eq_of_encode (by simp [checkpointFields]) (by simp [checkpointFields])
    (leaves c) (leaves c') encoded (same ▸ encoded')
  obtain ⟨⟨log, _⟩, size, ⟨root, _⟩, ⟨prev, _⟩, time⟩ := c
  obtain ⟨⟨log', _⟩, size', ⟨root', _⟩, ⟨prev', _⟩, time'⟩ := c'
  simp only [checkpointFields, Rust.Octets.value, List.cons.injEq, Value.b.injEq, Value.u.injEq,
    Nat.cast_inj, UInt64.toNat_inj, and_true] at fields
  obtain ⟨rfl, rfl, rfl, rfl, rfl⟩ := fields
  rfl

-----------------------------------------------------------------------------------------
-- Histories
-----------------------------------------------------------------------------------------

/-- A checkpoint names the head of the one before it. -/
def checkpointChain : ChainHash CheckpointRoot Bytes Bytes Go.Stop where
  encode := CheckpointRoot.bytes
  hash := Sha2.sha384
  prev c := c.prev.bytes
  position c := c.size.toNat

theorem encode_eq_ok {c : CheckpointRoot} {body : Bytes}
    : checkpointChain.encode c = .ok body ↔ checkpointBody c = body := by
  change c.bytes = .ok body ↔ _
  rw [checkpoint_bytes, Except.ok.injEq]

theorem checkpointChain_faithful : checkpointChain.Faithful := by
  intro c c' body encoded encoded'
  rw [encode_eq_ok] at encoded encoded'
  exact checkpointBody_injective (encoded.trans encoded'.symm)

/-- The verifier accepts the lists that form a chain, by induction over what it reads. -/
theorem verifyCheckpointsFrom_eq_ok {wantPrev : Bytes} {checkpoints : List CheckpointRoot}
    : verifyCheckpointsFrom wantPrev checkpoints = .ok ()
      ↔ ∃ final, checkpointChain.Chained wantPrev checkpoints final := by
  induction checkpoints generalizing wantPrev with
  | nil => exact iff_of_true rfl ⟨_, .nil _⟩
  | cons c rest ih =>
      rw [verifyCheckpointsFrom, checkpoint_head, bind_eq_ok]
      simp only [raiseIf_eq_ok, not_not, exists_const, ok_bind, ih, ne_eq]
      constructor
      · rintro ⟨named, final, chained⟩
        exact ⟨final, .cons named (checkpoint_bytes c) chained⟩
      · rintro ⟨final, chained⟩
        cases chained with
        | cons named encoded chained =>
            obtain rfl := encode_eq_ok.mp encoded
            exact ⟨named, final, chained⟩

/-- The cosign names the id of the checkpoint. -/
def NamesCheckpoint (cosign : WitnessCosign) (c : CheckpointRoot) : Prop :=
  (do checkWitnessRoot cosign (← c.id)) = .ok ()

theorem namesCheckpoint_iff {cosign : WitnessCosign} {c : CheckpointRoot}
    : NamesCheckpoint cosign c ↔ cosign.root.bytes = contentIdBytes (checkpointBody c) := by
  rw [NamesCheckpoint, checkpoint_id, ok_bind, checkWitnessRoot, raiseIf_eq_ok, not_not]

/-- A cosign pins the checkpoint that it names and the whole history before it: two accepted chains
that end in what one cosign names are one chain, however long they are, unless two bodies collide or
one hashes to the 48 zeros of the genesis.
Witness: the cosign has the digest of the last body, each body has that of the one before, and
the first one that of the genesis.
-/
theorem cosign_pins_history (xs ys : List CheckpointRoot) (x y : CheckpointRoot)
    (cosign : WitnessCosign) (accepted : verifyCheckpointChain (xs ++ [x]) = .ok ())
    (accepted' : verifyCheckpointChain (ys ++ [y]) = .ok ())
    (named : NamesCheckpoint cosign x) (named' : NamesCheckpoint cosign y)
    : xs ++ [x] = ys ++ [y]
      ∨ DigestsCollide ((xs ++ [x] ++ (ys ++ [y])).map checkpointBody)
      ∨ ∃ c ∈ xs ++ [x] ++ (ys ++ [y]), Sha2.sha384 (checkpointBody c) = genesis := by
  obtain ⟨final, chained⟩ := verifyCheckpointsFrom_eq_ok.mp accepted
  obtain ⟨final', chained'⟩ := verifyCheckpointsFrom_eq_ok.mp accepted'
  obtain ⟨body, -, encoded, rfl⟩ := chained.exists_snoc
  obtain ⟨body', -, encoded', rfl⟩ := chained'.exists_snoc
  obtain rfl := encode_eq_ok.mp encoded
  obtain rfl := encode_eq_ok.mp encoded'
  have ids := (namesCheckpoint_iff.mp named).symm.trans (namesCheckpoint_iff.mp named')
  have digests
      : checkpointChain.hash (checkpointBody x) = checkpointChain.hash (checkpointBody y) :=
    (List.cons.inj (List.cons.inj ids).2).2
  rw [← digests] at chained'
  rcases chained.eq_of_final checkpointChain_faithful chained' with same | collide | zeros
  · exact .inl same
  · obtain ⟨c, member, c', member', _, _, read, read', differ, hashed⟩ := collide
    obtain rfl := encode_eq_ok.mp read
    obtain rfl := encode_eq_ok.mp read'
    refine .inr (.inl ⟨_, List.mem_map_of_mem ?_, _, List.mem_map_of_mem ?_, differ, hashed⟩)
    · exact List.mem_append_left _ member
    · exact List.mem_append_right _ member'
  · obtain ⟨c, member, _, read, hashed⟩ := zeros
    obtain rfl := encode_eq_ok.mp read
    exact .inr (.inr ⟨c, member, hashed⟩)

/-- The first checkpoint of a log, and a second one that goes on from it. -/
def firstCheckpoint : CheckpointRoot where
  log := ⟨[7], by decide⟩
  size := 1
  root := ⟨[1], by decide⟩
  prev := ⟨genesis, by decide⟩
  time := 5

def secondCheckpoint : CheckpointRoot where
  log := ⟨[7], by decide⟩
  size := 2
  root := ⟨[2], by decide⟩
  prev := ⟨Sha2.sha384 (checkpointBody firstCheckpoint), by rw [Sha2.length_sha384]; decide⟩
  time := 6

def sampleCosign : WitnessCosign where
  witness := ⟨[8], by decide⟩
  root := ⟨contentIdBytes (checkpointBody secondCheckpoint), by
    rw [contentIdBytes, List.length_cons, List.length_cons, Sha2.length_sha384]
    decide⟩
  time := 9

/-- Witness: two holders of a history of two checkpoints and the cosign of the second. -/
theorem cosign_pins_history_two
    : verifyCheckpointChain [firstCheckpoint, secondCheckpoint] = .ok ()
      ∧ NamesCheckpoint sampleCosign secondCheckpoint
      ∧ ([firstCheckpoint, secondCheckpoint] = [firstCheckpoint, secondCheckpoint]
        ∨ DigestsCollide ([firstCheckpoint, secondCheckpoint, firstCheckpoint, secondCheckpoint].map
            checkpointBody)
        ∨ ∃ c ∈ [firstCheckpoint, secondCheckpoint, firstCheckpoint, secondCheckpoint],
          Sha2.sha384 (checkpointBody c) = genesis) := by
  have accepted : verifyCheckpointChain [firstCheckpoint, secondCheckpoint] = .ok () :=
    verifyCheckpointsFrom_eq_ok.mpr
      ⟨_, .cons rfl (checkpoint_bytes _) (.cons rfl (checkpoint_bytes _) (.nil _))⟩
  have named : NamesCheckpoint sampleCosign secondCheckpoint := namesCheckpoint_iff.mpr rfl
  exact ⟨accepted, named, cosign_pins_history [firstCheckpoint] [firstCheckpoint] secondCheckpoint
    secondCheckpoint sampleCosign accepted accepted named named⟩

-----------------------------------------------------------------------------------------
-- Split views
-----------------------------------------------------------------------------------------

/-- A checkpoint as it is handed on: with the signature of the log and the cosign of a witness. -/
structure CosignedCheckpoint where
  checkpoint : CheckpointRoot
  sig : Bytes
  cosign : WitnessCosign
  cosignSig : Bytes

/-- One log, at one size. -/
def SamePlace (a b : CosignedCheckpoint) : Prop :=
  a.checkpoint.log.bytes = b.checkpoint.log.bytes ∧ a.checkpoint.size = b.checkpoint.size

section Views

variable (lib : Rust.Cose.SignatureLibrary) (logV witnessV : Rust.Cose.Verifier)

/-- The signature of the log verifies, and that of the witness over a cosign that names the
checkpoint.
-/
structure Attested (c : CosignedCheckpoint) : Prop where
  signed : logV.verifyRaw lib (checkpointBody c.checkpoint) c.sig = true
  named : NamesCheckpoint c.cosign c.checkpoint
  cosigned : witnessV.verifyRaw lib (encoding c.cosign.value) c.cosignSig = true

/-- The two are accepted as evidence against the log. -/
def ProvesFork (a b : CosignedCheckpoint) : Prop :=
  verifyCheckpointFork lib a.checkpoint a.sig a.cosign a.cosignSig b.checkpoint b.sig b.cosign
    b.cosignSig logV witnessV = .ok ()

variable {lib logV witnessV}

theorem mapErr_eq_ok {α : Type} {error : Go.Stop} {result : Go.Result α} {value : α}
    : Rust.mapErr error result = .ok value ↔ result = .ok value := by
  unfold Rust.mapErr
  split <;> simp

/-- Two checkpoints are accepted as evidence exactly when both are attested, at one place, with
different roots.
-/
theorem provesFork_iff {a b : CosignedCheckpoint}
    : ProvesFork lib logV witnessV a b
      ↔ SamePlace a b ∧ a.checkpoint.root.bytes ≠ b.checkpoint.root.bytes
        ∧ Attested lib logV witnessV a ∧ Attested lib logV witnessV b := by
  have named (c : CosignedCheckpoint)
      : checkWitnessRoot c.cosign (contentIdBytes (checkpointBody c.checkpoint)) = .ok ()
        ↔ NamesCheckpoint c.cosign c.checkpoint := by
    rw [NamesCheckpoint, checkpoint_id, ok_bind]
  simp only [ProvesFork, verifyCheckpointFork, checkpoint_bytes, checkpoint_id, cosign_bytes,
    ok_bind, bind_eq_ok, raiseIf_eq_ok, mapErr_eq_ok, exists_const, named, not_or, not_not,
    Bool.not_eq_false, SamePlace, ne_eq]
  constructor
  · rintro ⟨place, differ, signed, signed', named, named', cosigned, cosigned'⟩
    exact ⟨place, differ, ⟨signed, named, cosigned⟩, ⟨signed', named', cosigned'⟩⟩
  · rintro ⟨place, differ, ⟨signed, named, cosigned⟩, ⟨signed', named', cosigned'⟩⟩
    exact ⟨place, differ, signed, signed', named, named', cosigned, cosigned'⟩

/-- The leaf that an accepted proof is about, at the size and root of a checkpoint. -/
def Includes (c : CosignedCheckpoint) (proof : Rust.EvidenceRecord.InclusionProof) : Prop :=
  Rust.EvidenceRecord.verifyInclusionProof proof c.checkpoint.size c.checkpoint.root.bytes = .ok ()

/-- What the verifier hashes for an inclusion proof. -/
def proofInputs (c : CosignedCheckpoint) (proof : Rust.EvidenceRecord.InclusionProof)
    : List Bytes :=
  verifierInputs proof.leaf proof.index.toNat c.checkpoint.size.toNat proof.path

theorem one_leaf_of_roots {a b : CosignedCheckpoint} {p q : Rust.EvidenceRecord.InclusionProof}
    (place : SamePlace a b) (roots : a.checkpoint.root.bytes = b.checkpoint.root.bytes)
    (index : p.index = q.index) (included : Includes a p) (included' : Includes b q)
    : p.leaf = q.leaf ∨ DigestsCollide (proofInputs a p ++ proofInputs b q) := by
  obtain ⟨inside, first⟩ :=
    Python.Gateway.verifyInclusionProof_eq_ok.mp (rustVerify_eq_ok.mp included)
  obtain ⟨-, second⟩ := Python.Gateway.verifyInclusionProof_eq_ok.mp (rustVerify_eq_ok.mp included')
  rw [← roots, ← place.2, ← index] at second
  have pinned := merkleTree_separated.one_leaf inside first second
  unfold proofInputs
  rwa [← place.2, ← index]

/-- As far as its checkpoints are held, a log has one root for each size, unless two of them convict
it.
-/
theorem table_iff_unconvicted (held : Set CosignedCheckpoint)
    : (∀ a ∈ held, ∀ b ∈ held, ¬ ProvesFork lib logV witnessV a b)
      ↔ ∃ table : Bytes → UInt64 → Bytes, ∀ c ∈ held, Attested lib logV witnessV c
        → c.checkpoint.root.bytes = table c.checkpoint.log.bytes c.checkpoint.size := by
  constructor
  · intro unconvicted
    have each : ∀ log size, ∃ root, ∀ c ∈ held, Attested lib logV witnessV c
        → c.checkpoint.log.bytes = log → c.checkpoint.size = size
        → c.checkpoint.root.bytes = root := by
      intro log size
      by_cases shown : ∃ c ∈ held, Attested lib logV witnessV c ∧ c.checkpoint.log.bytes = log
          ∧ c.checkpoint.size = size
      · obtain ⟨c, member, attested, rfl, rfl⟩ := shown
        refine ⟨c.checkpoint.root.bytes, fun d inD attestedD log size => ?_⟩
        by_contra differ
        exact unconvicted d inD c member
          (provesFork_iff.mpr ⟨⟨log, size⟩, differ, attestedD, attested⟩)
      · exact ⟨[], fun c member attested log size => absurd ⟨c, member, attested, log, size⟩ shown⟩
    choose table listed using each
    exact ⟨table, fun c member attested => listed _ _ c member attested rfl rfl⟩
  · rintro ⟨table, listed⟩ a inA b inB convicted
    obtain ⟨⟨log, size⟩, differ, attested, attested'⟩ := provesFork_iff.mp convicted
    refine differ ?_
    rw [listed a inA attested, listed b inB attested', log, size]

/-- No two of the held checkpoints convict the log exactly when the attested ones have one root for
each log and size; and two leaves that are shown at one position of one size are one leaf, or the
checkpoints convict the log.
-/
theorem split_view_convicted (lib : Rust.Cose.SignatureLibrary) (logV witnessV : Rust.Cose.Verifier)
    : (∀ held : Set CosignedCheckpoint,
        (∀ a ∈ held, ∀ b ∈ held, ¬ ProvesFork lib logV witnessV a b)
          ↔ ∃ table : Bytes → UInt64 → Bytes, ∀ c ∈ held, Attested lib logV witnessV c
            → c.checkpoint.root.bytes = table c.checkpoint.log.bytes c.checkpoint.size)
      ∧ ∀ a b p q, Attested lib logV witnessV a → Attested lib logV witnessV b → SamePlace a b
        → p.index = q.index → Includes a p → Includes b q
        → p.leaf = q.leaf ∨ ProvesFork lib logV witnessV a b
          ∨ DigestsCollide (proofInputs a p ++ proofInputs b q) := by
  refine ⟨table_iff_unconvicted, ?_⟩
  intro a b p q attested attested' place index included included'
  by_cases roots : a.checkpoint.root.bytes = b.checkpoint.root.bytes
  · exact (one_leaf_of_roots place roots index included included').imp_right .inr
  · exact .inr (.inl (provesFork_iff.mpr ⟨place, roots, attested, attested'⟩))

end Views

/-- One Ed25519 key, of the log and of its witness. -/
def viewKey : Rust.Cose.Verifier := .ed25519 ⟨List.replicate 32 3, by decide⟩

/-- The signature of that key on the library on which the model can be evaluated. -/
def viewSignature (message : Bytes) : Bytes :=
  Python.Cose.fitTo 64 (Sha2.sha384 (List.replicate 32 3 ++ message))

theorem viewSignature_verifies (message : Bytes)
    : viewKey.verifyRaw Rust.Cose.digestLibrary message (viewSignature message) = true := by
  have size : (viewSignature message).length = 64 := Python.Cose.length_fitTo _ _
  simp only [Rust.Cose.Verifier.verifyRaw, viewKey, Rust.Cose.tryInto, if_pos size]
  exact decide_eq_true rfl

/-- The checkpoint of a log that has one leaf. -/
def viewCheckpoint (leaf : Bytes) : CheckpointRoot where
  log := ⟨[7], by decide⟩
  size := 1
  root := ⟨Python.Gateway.leafHash leaf, by
    change (Sha2.sha384 _).length ≤ _
    rw [Sha2.length_sha384]
    decide⟩
  prev := ⟨genesis, by decide⟩
  time := 5

def viewCosign (leaf : Bytes) : WitnessCosign where
  witness := ⟨[8], by decide⟩
  root := ⟨contentIdBytes (checkpointBody (viewCheckpoint leaf)), by
    rw [contentIdBytes, List.length_cons, List.length_cons, Sha2.length_sha384]
    decide⟩
  time := 9

/-- What the log shows of itself to somebody: the one leaf, with both signatures. -/
def view (leaf : Bytes) : CosignedCheckpoint where
  checkpoint := viewCheckpoint leaf
  sig := viewSignature (checkpointBody (viewCheckpoint leaf))
  cosign := viewCosign leaf
  cosignSig := viewSignature (encoding (viewCosign leaf).value)

theorem view_attested (leaf : Bytes)
    : Attested Rust.Cose.digestLibrary viewKey viewKey (view leaf) where
  signed := viewSignature_verifies _
  named := namesCheckpoint_iff.mpr rfl
  cosigned := viewSignature_verifies _

def viewProof (leaf : Bytes) : Rust.EvidenceRecord.InclusionProof where
  root := []
  leaf := leaf
  index := 0
  path := []

theorem view_includes (leaf : Bytes) : Includes (view leaf) (viewProof leaf) := by
  refine rustVerify_eq_ok.mpr (Python.Gateway.verifyInclusionProof_eq_ok.mpr ⟨Nat.one_pos, ?_⟩)
  exact if_pos rfl

theorem view_samePlace (leaf leaf' : Bytes) : SamePlace (view leaf) (view leaf') := by
  have log (leaf : Bytes) : (view leaf).checkpoint.log.bytes = [7] := rfl
  have size (leaf : Bytes) : (view leaf).checkpoint.size = 1 := rfl
  exact ⟨(log leaf).trans (log leaf').symm, (size leaf).trans (size leaf').symm⟩

/-- The views of two holders. -/
def views : Set CosignedCheckpoint := {view [1], view [2]}

/-- The log shows one holder the leaf 01 and another the leaf 02 at the same position. Witness: both
views are attested and both proofs are accepted, so the two checkpoints convict the log, unless what
was hashed collides.
-/
theorem split_view_convicted_two_leaves
    : ((∀ a ∈ views, ∀ b ∈ views, ¬ ProvesFork Rust.Cose.digestLibrary viewKey viewKey a b)
        ↔ ∃ table : Bytes → UInt64 → Bytes, ∀ c ∈ views,
          Attested Rust.Cose.digestLibrary viewKey viewKey c
            → c.checkpoint.root.bytes = table c.checkpoint.log.bytes c.checkpoint.size)
      ∧ Includes (view [1]) (viewProof [1]) ∧ Includes (view [2]) (viewProof [2])
      ∧ (([1] : Bytes) = [2]
        ∨ ProvesFork Rust.Cose.digestLibrary viewKey viewKey (view [1]) (view [2])
        ∨ DigestsCollide (proofInputs (view [1]) (viewProof [1])
            ++ proofInputs (view [2]) (viewProof [2]))) := by
  obtain ⟨tables, positions⟩ := split_view_convicted Rust.Cose.digestLibrary viewKey viewKey
  have first := view_includes [1]
  have second := view_includes [2]
  exact ⟨tables views, first, second, positions _ _ (viewProof [1]) (viewProof [2])
    (view_attested [1]) (view_attested [2])
    (view_samePlace [1] [2]) rfl first second⟩

end Naalp.Transparency
