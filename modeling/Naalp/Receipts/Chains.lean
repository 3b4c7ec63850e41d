import Naalp.Envelope.SignVerify
import Naalp.Foundation.HashChain
import Naalp.Python.Audit
import Naalp.Signatures.RawRecords

/-! Chains of signed receipts. Whatever an ordering authority appends verifies, and the last receipt
of an accepted chain pins the receipts before it, unless two receipt bodies have one digest.
-/

namespace Naalp.Receipts

open Naalp.Foundation
open Naalp.Python
open Naalp.Python.Audit
open Naalp.Python.Cose
open Naalp.Python.Delivery (ContentFreeRelay)

/-- A receipt names the digest of the body of the receipt before it. -/
def receiptChain : ChainHash Receipt Bytes Bytes Exc where
  encode := Receipt.bytes
  hash := Sha2.sha384
  prev := Receipt.prev
  position := Receipt.seq

/-- The body of a receipt gives the receipt back. -/
theorem receipt_bytes_injective {r r' : Receipt} {body : Bytes} (encoded : r.bytes = .ok body)
    (encoded' : r'.bytes = .ok body) : r = r' := by
  have read := Signatures.Record.decode_bytes (r := .receipt r) encoded
  have read' := Signatures.Record.decode_bytes (r := .receipt r') encoded'
  have pairs := Cbor.Value.m.inj (Except.ok.inj (read.symm.trans read'))
  obtain ⟨prev, obj, seq, time⟩ := r
  obtain ⟨prev', obj', seq', time'⟩ := r'
  simp_all [Signatures.Record.pairs]

theorem receiptChain_faithful : receiptChain.Faithful :=
  fun _ _ _ encoded encoded' => receipt_bytes_injective encoded encoded'

section

variable {lib : SignatureLibrary} {alg : Int} {pubkey : Bytes}

/-- A receipt with a signature that verifies under the key. -/
def Signed (lib : SignatureLibrary) (alg : Int) (pubkey : Bytes) (link : Receipt × Bytes) : Prop :=
  ∃ body, link.1.bytes = .ok body ∧ mldsaVerify lib alg pubkey body link.2 = .ok true

/-- A list of links is accepted exactly when the receipts are chained from the head and all are
signed, by induction on the links.
-/
theorem verifyLinks_eq_ok {head : Bytes} {i : Int} {links : List (Receipt × Bytes)}
    : verifyLinks lib alg pubkey head i links = .ok ()
      ↔ (∃ final, receiptChain.Linked i head (links.map Prod.fst) final)
        ∧ ∀ link ∈ links, Signed lib alg pubkey link := by
  induction links generalizing head i with
  | nil => exact iff_of_true rfl ⟨⟨head, .nil i head⟩, by simp⟩
  | cons link rest ih =>
      obtain ⟨r, sig⟩ := link
      simp only [verifyLinks, Receipt.head, bind_eq_ok, raiseIf_eq_ok, exists_const, not_or,
        not_not, ne_eq, pure_eq_ok, Except.ok.injEq, Bool.not_eq_false, ih, List.map_cons,
        List.forall_mem_cons]
      constructor
      · intro accepted
        obtain ⟨⟨seq, prev⟩, body, encoded, _, valid, rfl, _, ⟨_, again, rfl⟩, linked, signed⟩ :=
          accepted
        obtain rfl := Except.ok.inj (encoded.symm.trans again)
        obtain ⟨final, linked⟩ := linked
        exact ⟨⟨final, .cons seq prev encoded linked⟩, ⟨body, encoded, valid⟩, signed⟩
      · intro chained
        obtain ⟨⟨final, linked⟩, ⟨body, encoded, valid⟩, signed⟩ := chained
        cases linked with
        | cons seq prev encoded' linked =>
            obtain rfl := Except.ok.inj (encoded.symm.trans encoded')
            exact ⟨⟨seq, prev⟩, body, encoded, true, valid, rfl, _, ⟨body, encoded, rfl⟩,
              ⟨final, linked⟩, signed⟩

/-- A list of receipts is accepted exactly when it is a chain from the genesis head on and each
signature verifies.
-/
theorem verifyChain_eq_ok {receipts : List Receipt} {sigs : List Bytes}
    : verifyChain lib receipts sigs alg pubkey = .ok ()
      ↔ receipts.length = sigs.length
        ∧ (∃ final, receiptChain.Linked 0 (List.replicate headSize 0) receipts final)
        ∧ ∀ link ∈ receipts.zip sigs, Signed lib alg pubkey link := by
  rw [verifyChain, raiseIf_bind_eq_ok, not_not, verifyLinks_eq_ok]
  refine and_congr_right fun length => ?_
  rw [List.map_fst_zip length.le]

end

section Appending

variable {lib : SignatureLibrary}

/-- What an append returns and leaves: the next receipt, signed, and the authority one position
further.
-/
theorem append_eq_ok {a after : Authority} {obj sig : Bytes} {time : Int} {r : Receipt}
    : Authority.append lib obj time a = .ok (r, sig) after
      ↔ r = { prev := a.head, obj, seq := a.seq, time }
        ∧ ∃ body, r.bytes = .ok body ∧ mldsaSign lib a.alg a.seed body = .ok sig
          ∧ after = { a with head := Sha2.sha384 body, seq := a.seq + 1 } := by
  simp only [Authority.append, Receipt.head, method_bind_eq_ok, get_eq_ok, check_eq_ok,
    modify_eq_ok, method_pure_eq_ok, bind_eq_ok, pure_eq_ok, Except.ok.injEq, Prod.mk.injEq]
  constructor
  · intro appended
    obtain ⟨_, _, ⟨rfl, rfl⟩, _, _, ⟨⟨body, encoded, signed⟩, rfl⟩, _, _, ⟨⟨_, again, rfl⟩, rfl⟩,
      _, _, rfl, _, _, rfl, ⟨rfl, rfl⟩, rfl⟩ := appended
    obtain rfl := Except.ok.inj (encoded.symm.trans again)
    exact ⟨rfl, body, encoded, signed, rfl⟩
  · intro appended
    obtain ⟨rfl, body, encoded, signed, rfl⟩ := appended
    exact ⟨a, a, ⟨rfl, rfl⟩, sig, a, ⟨⟨body, encoded, signed⟩, rfl⟩, _, a,
      ⟨⟨body, encoded, rfl⟩, rfl⟩,
      (), _, rfl, (), _, rfl, ⟨rfl, rfl⟩, rfl⟩

/-- A refused append changes nothing, since the authority moves on after signing only. -/
theorem append_atomic (obj : Bytes) (time : Int) : Atomic (Authority.append lib obj time) := by
  refine reads_get.bind fun a => ?_
  refine (reads_check _).bind fun sig => ?_
  refine (reads_check _).bind fun head => Total.atomic ?_
  exact (total_modify _).bind fun _ => (total_modify _).bind fun _ => total_pure _

/-- The receipts and signatures that a run of calls returns; a call that raises returns none. -/
def appended (lib : SignatureLibrary) (a : Authority) (calls : List (Bytes × Int))
    : List (Receipt × Bytes) :=
  (trace (respond fun call => Authority.append lib call.1 call.2) a calls).filterMap
    fun event => event.outcome.toOption

/-- What is relied on of a key: it verifies what the seed signs. -/
def VerifiesSeed (lib : SignatureLibrary) (alg : Int) (seed pubkey : Bytes) : Prop :=
  ∀ message sig, mldsaSign lib alg seed message = .ok sig
    → mldsaVerify lib alg pubkey message sig = .ok true

/-- The public key of a seed verifies what the seed signs. -/
theorem verifiesSeed_of_key {alg : Int} {seed pubkey : Bytes} (signs : Envelope.SignsVerifiably lib)
    (key : ∀ set, mldsa alg = .ok set → lib.mldsaPublic set seed = .ok pubkey)
    : VerifiesSeed lib alg seed pubkey := by
  intro message sig signed
  obtain ⟨set, isMldsa, signed⟩ := bind_eq_ok.mp signed
  obtain ⟨sig', signed', -, valid⟩ := signs.mldsa (key set isMldsa) message [] (Nat.zero_le _)
  obtain rfl := Except.ok.inj (signed.symm.trans signed')
  exact bind_eq_ok.mpr ⟨set, isMldsa, valid⟩

theorem append_links {a after : Authority} {obj sig pubkey : Bytes} {time : Int} {r : Receipt}
    (verifies : VerifiesSeed lib a.alg a.seed pubkey)
    (returned : Authority.append lib obj time a = .ok (r, sig) after)
    : receiptChain.Linked a.seq a.head [r] after.head ∧ Signed lib a.alg pubkey (r, sig)
      ∧ r.obj = obj ∧ after.seq = a.seq + 1 ∧ after.alg = a.alg ∧ after.seed = a.seed := by
  obtain ⟨rfl, body, encoded, signed, rfl⟩ := append_eq_ok.mp returned
  exact ⟨.cons rfl rfl encoded (.nil _ _), ⟨body, encoded, verifies body sig signed⟩, rfl, rfl, rfl,
    rfl⟩

/-- What a run appends is a chain from the head of the authority on, by induction over the calls. -/
theorem appended_linked {a : Authority} {pubkey : Bytes} {calls : List (Bytes × Int)}
    (verifies : VerifiesSeed lib a.alg a.seed pubkey)
    : (∃ final, receiptChain.Linked a.seq a.head ((appended lib a calls).map Prod.fst) final)
      ∧ ∀ link ∈ appended lib a calls, Signed lib a.alg pubkey link := by
  induction calls generalizing a with
  | nil => exact ⟨⟨_, .nil _ _⟩, by simp [appended, trace]⟩
  | cons call calls ih =>
      unfold appended at ih ⊢
      rw [trace]
      simp only [answer, respond, settle]
      cases called : Authority.append lib call.1 call.2 a with
      | error error after =>
          obtain rfl := append_atomic _ _ _ _ _ called
          exact ih verifies
      | ok link after =>
          obtain ⟨first, signed, -, seq, alg, seed⟩ := append_links verifies called
          obtain ⟨⟨final, linked⟩, later⟩ := @ih after (by rwa [alg, seed])
          rw [seq] at linked
          rw [alg] at later
          exact ⟨⟨final, first.append linked⟩, List.forall_mem_cons.mpr ⟨signed, later⟩⟩

/-- The receipts and signatures that an authority issued under a key, kept in their order: a chain
that ends at the head of the authority.
-/
structure KeptLog (lib : SignatureLibrary) (alg : Int) (seed pubkey : Bytes) (auth : Authority)
    (receipts : List Receipt) (sigs : List Bytes) : Prop where
  sameAlg : auth.alg = alg
  sameSeed : auth.seed = seed
  seq : auth.seq = receipts.length
  length : receipts.length = sigs.length
  linked : receiptChain.Linked 0 (List.replicate headSize 0) receipts auth.head
  signed : ∀ link ∈ receipts.zip sigs, Signed lib alg pubkey link

section KeptLogs

variable {alg : Int} {seed pubkey : Bytes} {auth after : Authority} {receipts : List Receipt}
  {sigs : List Bytes}

theorem keptLog_nil : KeptLog lib alg seed pubkey { alg, seed } [] [] :=
  ⟨rfl, rfl, rfl, rfl, .nil _ _, by simp⟩

/-- An append keeps the log: the new receipt goes on from its head and verifies. -/
theorem KeptLog.append {obj sig : Bytes} {time : Int} {r : Receipt}
    (verifies : VerifiesSeed lib alg seed pubkey)
    (kept : KeptLog lib alg seed pubkey auth receipts sigs)
    (appended : Authority.append lib obj time auth = .ok (r, sig) after)
    : KeptLog lib alg seed pubkey after (receipts ++ [r]) (sigs ++ [sig]) := by
  obtain ⟨linked, signed, -, seq, alg', seed'⟩ :=
    append_links (kept.sameAlg ▸ kept.sameSeed ▸ verifies) appended
  rw [kept.seq] at linked seq
  refine ⟨alg'.trans kept.sameAlg, seed'.trans kept.sameSeed, ?_, ?_, ?_, ?_⟩
  · simp [seq]
  · simp [kept.length]
  · exact kept.linked.append (by rwa [Int.zero_add])
  · rw [List.zip_append kept.length]
    intro link member
    rcases List.mem_append.mp member with earlier | last
    · exact kept.signed link earlier
    · obtain rfl := List.mem_singleton.mp last
      exact kept.sameAlg ▸ signed

theorem KeptLog.verifies (kept : KeptLog lib alg seed pubkey auth receipts sigs)
    : verifyChain lib receipts sigs alg pubkey = .ok () :=
  verifyChain_eq_ok.mpr ⟨kept.length, ⟨_, kept.linked⟩, kept.signed⟩

end KeptLogs

/-- The calls of a relay, answered one by one. -/
def routeStep (lib : SignatureLibrary)
    : ContentFreeRelay → Bytes × Int → Except Exc Bytes × ContentFreeRelay :=
  respond fun call => ContentFreeRelay.route lib call.1 call.2

/-- A relayed object keeps the log of the relay, whether it is receipted or refused. -/
theorem route_keptLog {alg : Int} {seed pubkey : Bytes} {relay : ContentFreeRelay}
    {call : Bytes × Int} (verifies : VerifiesSeed lib alg seed pubkey)
    (kept : KeptLog lib alg seed pubkey relay.auth relay.receipts relay.sigs)
    : KeptLog lib alg seed pubkey (routeStep lib relay call).2.auth
        (routeStep lib relay call).2.receipts (routeStep lib relay call).2.sigs := by
  cases called : ContentFreeRelay.route lib call.1 call.2 relay with
  | error error after =>
      have atomic : Atomic (ContentFreeRelay.route lib call.1 call.2) :=
        ((append_atomic _ _).within fun _ => rfl).bind fun link =>
          (total_modify _).bind fun _ => (total_modify _).bind fun _ => total_pure _
      simp only [routeStep, respond, settle, called]
      rwa [atomic _ _ _ called]
  | ok value after =>
      simp only [routeStep, respond, settle, called]
      simp only [ContentFreeRelay.route, method_bind_eq_ok, within_eq_ok, modify_eq_ok,
        method_pure_eq_ok] at called
      obtain ⟨⟨r, sig⟩, _, ⟨auth, appended, rfl⟩, _, _, rfl, _, _, rfl, -, rfl⟩ := called
      exact kept.append verifies appended

end Appending

/-- Every run of an authority, and every run of a relay, leaves a chain that is accepted under its
key; and lists accepted under any one key with equal last receipts are equal, unless two receipt
bodies collide.
Witness: each append keeps the log linked and signed; the chain determines its receipts from the
last one.
-/
theorem receipts_tamper_evident (lib : SignatureLibrary) (alg : Int) (pubkey : Bytes)
    : (∀ seed, Envelope.SignsVerifiably lib
        → (∀ set, mldsa alg = .ok set → lib.mldsaPublic set seed = .ok pubkey)
        → (∀ calls, verifyChain lib ((appended lib { alg, seed } calls).map Prod.fst)
            ((appended lib { alg, seed } calls).map Prod.snd) alg pubkey = .ok ())
          ∧ ∀ calls relay, relay = finalState (routeStep lib) { auth := { alg, seed } } calls
            → verifyChain lib relay.receipts relay.sigs alg pubkey = .ok ())
      ∧ (∀ receipts receipts' sigs sigs',
        verifyChain lib receipts sigs alg pubkey = .ok ()
        → verifyChain lib receipts' sigs' alg pubkey = .ok ()
        → receipts.getLast? = receipts'.getLast?
        → receipts = receipts' ∨ receiptChain.Collide receipts receipts') := by
  refine ⟨fun seed signs key => ⟨?_, ?_⟩, ?_⟩
  · intro calls
    obtain ⟨linked, signed⟩ :=
      @appended_linked lib { alg, seed } pubkey calls (verifiesSeed_of_key signs key)
    refine verifyChain_eq_ok.mpr ⟨by simp, linked, ?_⟩
    rwa [List.zip_map', List.map_id']
  · intro calls relay same
    have kept := @finalState_keeps _ _ _ (routeStep lib) (fun relay : ContentFreeRelay =>
      KeptLog lib alg seed pubkey relay.auth relay.receipts relay.sigs)
      (fun _ call => @route_keptLog _ _ _ _ _ call (verifiesSeed_of_key signs key))
      { auth := { alg, seed } } keptLog_nil calls
    rw [← same] at kept
    exact kept.verifies
  · intro receipts receipts' sigs sigs' accepted accepted' last
    obtain ⟨-, ⟨final, linked⟩, -⟩ := verifyChain_eq_ok.mp accepted
    obtain ⟨-, ⟨final', linked'⟩, -⟩ := verifyChain_eq_ok.mp accepted'
    exact linked.eq_of_last receiptChain_faithful linked' last

/-- The chain that a stand-in authority appends for two objects, and those that share its last
receipt.
-/
theorem receipts_tamper_evident_two_objects
    : verifyChain digestLibrary
        ((appended digestLibrary { alg := algMldsa65, seed := [7] }
          [([1], 10), ([2], 20)]).map Prod.fst)
        ((appended digestLibrary { alg := algMldsa65, seed := [7] }
          [([1], 10), ([2], 20)]).map Prod.snd)
        algMldsa65 (fitTo mldsa65PubSize [7]) = .ok ()
      ∧ ∀ receipts sigs, verifyChain digestLibrary receipts sigs algMldsa65
        (fitTo mldsa65PubSize [7])
          = .ok ()
        → receipts.getLast? = ((appended digestLibrary { alg := algMldsa65, seed := [7] }
          [([1], 10), ([2], 20)]).map Prod.fst).getLast?
        → receipts = (appended digestLibrary { alg := algMldsa65, seed := [7] }
            [([1], 10), ([2], 20)]).map Prod.fst
          ∨ receiptChain.Collide receipts
            ((appended digestLibrary { alg := algMldsa65, seed := [7] }
            [([1], 10), ([2], 20)]).map Prod.fst) := by
  obtain ⟨runs, fixed⟩ := receipts_tamper_evident digestLibrary algMldsa65
    (fitTo mldsa65PubSize [7])
  have accepted := (runs [7] Envelope.digestLibrary_signsVerifiably (by
    intro set isMldsa
    obtain rfl := Except.ok.inj isMldsa
    rfl)).1 [([1], 10), ([2], 20)]
  exact ⟨accepted, fun receipts sigs verified last => fixed _ _ _ _ verified accepted last⟩

end Naalp.Receipts
