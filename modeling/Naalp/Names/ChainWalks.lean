import Naalp.Consent.ShownChains
import Naalp.Envelope.SignVerify
import Naalp.Names.Bodies
import Naalp.Receipts.Chains

/-! The walkers of name bindings and of user-interface events. Those that check signatures accept
what the offline walk accepts, and the search for a hole reports the first record that breaks the
chain, whatever the walkers check besides.
-/

namespace Naalp.Names

open Naalp.Foundation
open Naalp.Python
open Naalp.Python.Cbor
open Naalp.Python.Cose
open Naalp.Receipts (VerifiesSeed verifiesSeed_of_key)
open Naalp.Signatures

-----------------------------------------------------------------------------------------
-- Walkers and the search for a hole
-----------------------------------------------------------------------------------------

section Walkers

variable {α β γ ι δ ε σ : Type}

/-- What the walkers over one kind of chain and the search for a hole have to do with each other.
The walk may fail by another fault than a broken chain.
-/
structure WalksAgree (C : ChainHash α ι δ ε) (start : δ)
    (detectHole : List α → Except ε (Int × Bool)) (walk : List α → Except ε (List γ))
    (read : β → Except ε α) (verify : List β → Except ε (List α)) (otherFault : ε → Prop)
    : Prop where
  noHole : ∀ xs n, detectHole xs = .ok (n, false)
    ↔ n = 0 ∧ ((∃ out, walk xs = .ok out)
      ∨ (∃ error, walk xs = .error error ∧ otherFault error) ∧ ∃ final, C.Linked 0 start xs final)
  firstHole : ∀ xs n, detectHole xs = .ok (n, true) ↔ ∃ k : ℕ, n = k ∧ C.BrokenAt 0 start xs k
  unencoded : ∀ xs error, detectHole xs = .error error → ∃ x ∈ xs, C.encode x = .error error
  verified : ∀ objs out, verify objs = .ok out
    ↔ List.Forall₂ (fun obj x => read obj = .ok x) objs out ∧ ∃ events, walk out = .ok events
  erased : ∀ xs out, walk xs = .ok out → ∀ k, k + 1 < xs.length
    → detectHole (xs.eraseIdx k) = .ok ((k : Int), true)
  swapped : ∀ xs out, walk xs = .ok out → ∀ m n x y, m < n → xs[m]? = some x → xs[n]? = some y
    → detectHole ((xs.set m y).set n x) = .ok ((m : Int), true)

variable [DecidableEq δ] {C : ChainHash α ι δ ε} {start : δ} {read : β → Except ε α}
  {checkWalk checkVerify : Int → σ → α → Except ε σ} {broken : ε} {event : α → δ → γ} {kept : σ}
  {otherFault : ε → Prop}

/-- Walkers agree when what is read passes the checks of the one as it passes those of the other. -/
theorem walksAgree_of_checks
    (faults : ∀ j kept' x error, checkWalk j kept' x = .error error → otherFault error)
    (alike : ∀ objs xs, List.Forall₂ (fun obj x => read obj = .ok x) objs xs
      → (ChainHash.Checked checkVerify 0 kept xs ↔ ChainHash.Checked checkWalk 0 kept xs))
    : WalksAgree C start (C.findHole 0 start) (C.walk pure checkWalk broken event 0 start kept) read
        (C.walk read checkVerify broken (fun x _ => x) 0 start kept) otherFault := by
  have accepted : ∀ xs, (∃ out, C.walk pure checkWalk broken event 0 start kept xs = .ok out)
      ↔ ChainHash.Checked checkWalk 0 kept xs ∧ ∃ final, C.Linked 0 start xs final := by
    intro xs
    simp only [ChainHash.walk_isOk, ChainHash.forall₂_pure, exists_eq_left']
  refine ⟨?_, ?_, ?_, ?_, ?_, ?_⟩
  · intro xs n
    constructor
    · intro none
      have spec := ChainHash.findHole_spec (C := C) 0 start xs
      rw [none] at spec
      obtain ⟨final, linked⟩ := spec
      have zero := congrArg Prod.fst (Except.ok.inj (none.symm.trans linked.findHole))
      refine ⟨zero, ?_⟩
      cases walked : C.walk pure checkWalk broken event 0 start kept xs with
      | ok out => exact .inl ⟨out, rfl⟩
      | error error =>
          obtain ⟨j, kept', x, -, failed⟩ := C.walk_error_of_linked linked walked
          exact .inr ⟨⟨error, rfl, faults j kept' x error failed⟩, final, linked⟩
    · intro walks
      obtain ⟨rfl, walks⟩ := walks
      refine ChainHash.findHole_eq_none.mpr ?_
      rcases walks with walked | ⟨-, linked⟩
      · exact ((accepted xs).mp walked).2
      · exact linked
  · intro xs n
    simpa using @ChainHash.findHole_eq_some _ _ _ _ C 0 start xs _ n
  · exact fun xs error failed => ChainHash.findHole_eq_error failed
  · intro objs out
    constructor
    · intro verified
      obtain ⟨xs, reads, checked, linked⟩ := ChainHash.walk_isOk.mp ⟨out, verified⟩
      obtain rfl := ChainHash.walk_records reads verified
      exact ⟨reads, (accepted out).mpr ⟨(alike objs out reads).mp checked, linked⟩⟩
    · intro walked
      obtain ⟨reads, walked⟩ := walked
      obtain ⟨checked, linked⟩ := (accepted out).mp walked
      obtain ⟨out', verified⟩ := ChainHash.walk_isOk.mpr
        ⟨out, reads, (alike objs out reads).mpr checked, linked⟩
      obtain rfl := ChainHash.walk_records reads verified
      exact verified
  · intro xs out walked k inside
    obtain ⟨-, final, linked⟩ := (accepted xs).mp ⟨out, walked⟩
    simpa using (linked.brokenAt_eraseIdx inside).findHole
  · intro xs out walked m n x y before _ second
    obtain ⟨-, final, linked⟩ := (accepted xs).mp ⟨out, walked⟩
    simpa using (linked.brokenAt_swap before second).findHole

end Walkers

-----------------------------------------------------------------------------------------
-- Name bindings
-----------------------------------------------------------------------------------------

section Bindings

open Naalp.Python.Naming

variable {lib : SignatureLibrary} {profile alg : Int} {seed pubkey obj : Bytes} {nb : NameBinding}
  {r after : Registrar} {subject : Bytes}

/-- The check of the names fails with the one error. -/
theorem checkName_eq_error {i : Int} {name : Option PyStr} {error : Exc}
    (failed : checkName i name nb = .error error) : error = nameChanged := by
  unfold checkName at failed
  split at failed
  · cases failed
  · rcases bind_eq_error.mp failed with raised | ⟨_, -, returned⟩
    · unfold raiseIf at raised
      split at raised
      · exact (Except.error.inj raised).symm
      · cases raised
    · cases returned

/-- The walks over bindings and the search for a hole. -/
theorem nameWalksAgree
    : WalksAgree NameBinding.chain genesis detectHole walkHistory
        (fun obj => verifyBinding lib obj profile alg pubkey)
        (fun objs => verifyChain lib objs profile alg pubkey) (· = nameChanged) :=
  walksAgree_of_checks (fun _ _ _ _ failed => checkName_eq_error failed) (fun _ _ _ => Iff.rfl)

/-- The bindings and objects that a run of appends returns; an append that raises returns none. -/
def registrations (lib : SignatureLibrary) (r : Registrar) (subjects : List Bytes)
    : List (NameBinding × Bytes) :=
  (trace (respond (Registrar.append lib)) r subjects).filterMap fun event => event.outcome.toOption

/-- What an append returns and leaves: the next binding, signed, and the registrar one position
further.
-/
theorem append_eq_ok
    : Registrar.append lib subject r = .ok (nb, obj) after
      ↔ nb = { name := r.name, signer := subject, seq := r.seq, prev := r.head }
        ∧ signBinding lib nb r.alg r.seed = .ok obj
        ∧ ∃ body, nb.bytes = .ok body
          ∧ after = { r with head := Sha2.sha384 body, seq := r.seq + 1 } := by
  simp only [Registrar.append, NameBinding.head, method_bind_eq_ok, get_eq_ok, check_eq_ok,
    modify_eq_ok, method_pure_eq_ok, bind_eq_ok, pure_eq_ok, Except.ok.injEq, Prod.mk.injEq]
  constructor
  · intro appended
    obtain ⟨_, _, ⟨rfl, rfl⟩, _, _, ⟨signed, rfl⟩, _, _, ⟨⟨body, encoded, rfl⟩, rfl⟩, _, _, rfl, _,
      _, rfl, ⟨rfl, rfl⟩, rfl⟩ := appended
    exact ⟨rfl, signed, body, encoded, rfl⟩
  · intro appended
    obtain ⟨rfl, signed, body, encoded, rfl⟩ := appended
    exact ⟨r, r, ⟨rfl, rfl⟩, obj, r, ⟨signed, rfl⟩, _, r, ⟨⟨body, encoded, rfl⟩, rfl⟩, (), _,
      rfl, (), _, rfl, ⟨rfl, rfl⟩, rfl⟩

/-- A refused append changes nothing. -/
theorem append_atomic (subject : Bytes) : Atomic (Registrar.append lib subject) := by
  refine reads_get.bind fun r => ?_
  refine (reads_check _).bind fun obj => ?_
  refine (reads_check _).bind fun head => Total.atomic ?_
  exact (total_modify _).bind fun _ => (total_modify _).bind fun _ => total_pure _

/-- The header of a signed object names the alg. -/
theorem algFromProtected_bare {prot : Bytes} {set : MlDsa} (isMldsa : mldsa alg = .ok set)
    (header : bareProtectedHeader alg = .ok prot) : Naming.algFromProtected prot = .ok alg := by
  have known : alg = algMldsa65 ∨ alg = algMldsa87 := by
    unfold mldsa at isMldsa
    split_ifs at isMldsa with first second
    · exact .inl first
    · exact .inr second
  rcases known with rfl | rfl
  · obtain rfl := Except.ok.inj header
    decide
  · obtain rfl := Except.ok.inj header
    decide

/-- What a registrar signs is verified to the binding, where the profile admits its alg. -/
theorem verifyBinding_signBinding (verifies : VerifiesSeed lib alg seed pubkey)
    (floor : profileMinLevel profile ≤ (algLevel alg).1)
    (signed : signBinding lib nb alg seed = .ok obj)
    : verifyBinding lib obj profile alg pubkey = .ok nb := by
  obtain ⟨prot, header, signed⟩ := bind_eq_ok.mp signed
  obtain ⟨body, encoded, signed⟩ := bind_eq_ok.mp signed
  obtain ⟨tbs, message, signed⟩ := bind_eq_ok.mp signed
  obtain ⟨sig, signed, assembled⟩ := bind_eq_ok.mp signed
  obtain ⟨set, isMldsa, valid⟩ := bind_eq_ok.mp (verifies tbs sig signed)
  obtain ⟨-, registered, verify⟩ := @Envelope.coseVerify1Raw_mldsa lib _ _ isMldsa
  have gate : verifySign1 lib obj profile alg pubkey = .ok body :=
    floorGate_eq_ok.mpr ⟨prot, sig, tbs, Envelope.parseSign1Raw_assembled assembled,
      algFromProtected_bare isMldsa header, registered, floor, message, (verify _ _ _).trans valid⟩
  have encodable : Encodable (.m (bindingPairs nb)) := encodable_iff.mpr ⟨body, encoded⟩
  rw [verifyBinding, gate, ok_bind]
  refine parseNameBinding_eq_ok.mpr ⟨_, ?_, shows_own (bindingPairs_ascending nb)⟩
  obtain rfl := Except.ok.inj (encodable.symm.trans encoded)
  exact decode_of_leaves (bindingPairs_ascending nb) (bindingPairs_leaves nb) encodable

/-- What a run appends is a chain from the head of the registrar on, for its name, by induction over
the calls.
-/
theorem registrations_linked {subjects : List Bytes}
    : (∃ final, NameBinding.chain.Linked r.seq r.head ((registrations lib r subjects).map Prod.fst)
        final)
      ∧ ∀ link ∈ registrations lib r subjects,
        link.1.name = r.name ∧ signBinding lib link.1 r.alg r.seed = .ok link.2 := by
  induction subjects generalizing r with
  | nil => exact ⟨⟨_, .nil _ _⟩, by simp [registrations, trace]⟩
  | cons subject subjects ih =>
      unfold registrations at ih ⊢
      rw [trace]
      simp only [answer, respond, settle]
      cases called : Registrar.append lib subject r with
      | error error after =>
          obtain rfl := append_atomic _ _ _ _ called
          exact ih
      | ok link after =>
          obtain ⟨nb, obj⟩ := link
          obtain ⟨rfl, signed, body, encoded, rfl⟩ := append_eq_ok.mp called
          obtain ⟨⟨final, linked⟩, later⟩ :=
            @ih { r with head := Sha2.sha384 body, seq := r.seq + 1 }
          exact ⟨⟨final, .cons rfl rfl encoded linked⟩,
            List.forall_mem_cons.mpr ⟨⟨rfl, signed⟩, later⟩⟩

/-- Bindings of one name pass the checks on it. -/
theorem checked_of_name {i : Int} {kept : Option PyStr} {name : PyStr} {bindings : List NameBinding}
    (index : 0 ≤ i) (here : i = 0 ∨ kept = some name) (all : ∀ nb ∈ bindings, nb.name = name)
    : ChainHash.Checked checkName i kept bindings := by
  induction bindings generalizing i kept with
  | nil => trivial
  | cons nb rest ih =>
      obtain ⟨same, later⟩ := List.forall_mem_cons.mp all
      refine ⟨some name, ?_, ih (by omega) (.inr rfl) later⟩
      unfold checkName
      split
      · rw [same]
        rfl
      · rename_i notFirst
        obtain rfl := here.resolve_left notFirst
        rw [same, raiseIf_neg (by simp)]
        rfl

/-- What a registrar appended is verified under its key, where the profile admits its alg. -/
theorem registrations_verified {name : PyStr} (verifies : VerifiesSeed lib alg seed pubkey)
    (floor : profileMinLevel profile ≤ (algLevel alg).1) (subjects : List Bytes)
    : verifyChain lib ((registrations lib { name, alg, seed } subjects).map Prod.snd) profile alg
          pubkey
        = .ok ((registrations lib { name, alg, seed } subjects).map Prod.fst) := by
  obtain ⟨linked, links⟩ := @registrations_linked lib { name, alg, seed } subjects
  have reads : List.Forall₂ (fun obj nb => verifyBinding lib obj profile alg pubkey = .ok nb)
      ((registrations lib { name, alg, seed } subjects).map Prod.snd)
      ((registrations lib { name, alg, seed } subjects).map Prod.fst) := by
    rw [List.forall₂_map_left_iff, List.forall₂_map_right_iff, List.forall₂_same]
    exact fun link member => verifyBinding_signBinding verifies floor (links link member).2
  have named : ∀ nb ∈ (registrations lib { name, alg, seed } subjects).map Prod.fst,
      nb.name = name := by
    intro nb member
    obtain ⟨link, inside, rfl⟩ := List.mem_map.mp member
    exact (links link inside).1
  obtain ⟨out, walked⟩ := ChainHash.walk_isOk.mpr
    ⟨_, reads, checked_of_name (le_refl 0) (.inl rfl) named, linked⟩
  obtain rfl := ChainHash.walk_records reads walked
  exact walked

end Bindings

-----------------------------------------------------------------------------------------
-- User-interface events
-----------------------------------------------------------------------------------------

section Events

open Naalp.Python.Agui

variable {lib : SignatureLibrary} {profile alg : Int} {pubkey : Bytes} {i : Int} {h : Bytes}
  {session : Option Bytes} {e : UIEvent} {events : List UIEvent}

def sessionChanged : Exc := .aguiError .uiChainBroken "a chain is for exactly one session"
def unknownKind : Exc :=
  .aguiError .unknownUIEventKind "ui-event kind is outside the closed set"

/-- What `walk_shown` checks of an event besides its place in the chain. -/
def checkEvent (i : Int) (session : Option Bytes) (e : UIEvent) : Py (Option Bytes) := do
  let session ← keepSession i session e
  raiseIf (isKnownKind e.kind = false) unknownKind
  return session

theorem checkEvent_eq_error {error : Exc} (failed : checkEvent i session e = .error error)
    : error = sessionChanged ∨ error = unknownKind := by
  unfold checkEvent keepSession checkSession raiseIf at failed
  split_ifs at failed
  all_goals cases failed
  all_goals simp [sessionChanged, unknownKind]

theorem walkFrom_eq_walk : walkFrom i h session events
    = UIEvent.chain.walk pure checkEvent
      (.aguiError .uiChainBroken "ui-event prev/seq does not chain to the previous event")
      (fun e head => { seq := e.seq, kind := e.kind, action := e.action, head }) i h session
      events := by
  induction events generalizing i h session with
  | nil => rfl
  | cons e rest ih =>
      simp only [walkFrom, ChainHash.walk, checkEvent, keepSession, UIEvent.head, ih, bind_assoc,
        pure_bind]
      rfl

/-- Events of known kinds pass the checks of the walk as they pass those of the session. -/
theorem checked_checkEvent (known : ∀ e ∈ events, isKnownKind e.kind = true)
    : ChainHash.Checked keepSession i session events
      ↔ ChainHash.Checked checkEvent i session events := by
  induction events generalizing i session with
  | nil => exact Iff.rfl
  | cons e rest ih =>
      obtain ⟨first, later⟩ := List.forall_mem_cons.mp known
      have same : checkEvent i session e = keepSession i session e := by
        cases outcome : keepSession i session e <;> simp [checkEvent, outcome, first]
      simp only [ChainHash.Checked, same, ih later]

theorem known_of_verifyUiEvent {obj : Bytes}
    (read : verifyUiEvent lib obj profile alg pubkey = .ok e)
    : isKnownKind e.kind = true := by
  simp only [verifyUiEvent, bind_eq_ok, raiseIf_eq_ok, exists_const, pure_eq_ok, Except.ok.injEq,
    Bool.not_eq_false] at read
  obtain ⟨_, -, _, -, known, rfl⟩ := read
  exact known

/-- The walks over events and the search for a hole. -/
theorem shownWalksAgree
    : WalksAgree UIEvent.chain genesis detectHole walkShown
        (fun obj => verifyUiEvent lib obj profile alg pubkey)
        (fun objs => verifyShownChain lib objs profile alg pubkey)
        (fun error => error = sessionChanged ∨ error = unknownKind) := by
  have walk : walkShown = UIEvent.chain.walk pure checkEvent
      (.aguiError .uiChainBroken "ui-event prev/seq does not chain to the previous event")
      (fun e head => { seq := e.seq, kind := e.kind, action := e.action, head }) 0 genesis none :=
    funext fun _ => walkFrom_eq_walk
  rw [walk]
  refine walksAgree_of_checks (fun _ _ _ _ failed => checkEvent_eq_error failed) ?_
  intro objs events reads
  refine checked_checkEvent ?_
  induction reads with
  | nil => simp
  | cons first _ ih => exact List.forall_mem_cons.mpr ⟨known_of_verifyUiEvent first, ih⟩

end Events

-----------------------------------------------------------------------------------------
-- Both kinds of chains
-----------------------------------------------------------------------------------------

/-- The walkers of bindings agree with each other and with the search for a hole, what a registrar
appends is verified where the profile admits its alg, and the walkers of events agree likewise.
-/
theorem chain_walks_agree (lib : SignatureLibrary) (profile alg : Int) (pubkey : Bytes)
    : WalksAgree Naming.NameBinding.chain Naming.genesis Naming.detectHole Naming.walkHistory
        (fun obj => Naming.verifyBinding lib obj profile alg pubkey)
        (fun objs => Naming.verifyChain lib objs profile alg pubkey) (· = Naming.nameChanged)
      ∧ (∀ seed, Envelope.SignsVerifiably lib
        → (∀ set, mldsa alg = .ok set → lib.mldsaPublic set seed = .ok pubkey)
        → profileMinLevel profile ≤ (algLevel alg).1
        → ∀ name subjects,
          Naming.verifyChain lib ((registrations lib { name, alg, seed } subjects).map Prod.snd)
              profile alg pubkey
            = .ok ((registrations lib { name, alg, seed } subjects).map Prod.fst))
      ∧ WalksAgree Agui.UIEvent.chain Agui.genesis Agui.detectHole Agui.walkShown
        (fun obj => Agui.verifyUiEvent lib obj profile alg pubkey)
        (fun objs => Agui.verifyShownChain lib objs profile alg pubkey)
        (fun error => error = sessionChanged ∨ error = unknownKind) :=
  ⟨nameWalksAgree,
    fun _ signs key floor _ subjects =>
      registrations_verified (verifiesSeed_of_key signs key) floor subjects,
    shownWalksAgree⟩

def sampleRegistrations (subjects : List Bytes) : List (Naming.NameBinding × Bytes) :=
  registrations digestLibrary { name := .lit ['a'], alg := algMldsa65, seed := [7] } subjects

/-- Witness: two bindings that a stand-in registrar appends. -/
theorem chain_walks_agree_two_bindings
    : (sampleRegistrations [[1], [2]]).length = 2
      ∧ Naming.verifyChain digestLibrary ((sampleRegistrations [[1], [2]]).map Prod.snd) 1
        algMldsa65
          (fitTo mldsa65PubSize [7])
        = .ok ((sampleRegistrations [[1], [2]]).map Prod.fst) := by
  refine ⟨by decide +kernel, ?_⟩
  refine (chain_walks_agree digestLibrary 1 algMldsa65 _).2.1 [7]
    Envelope.digestLibrary_signsVerifiably ?_ (by decide) _ _
  intro set isMldsa
  obtain rfl := Except.ok.inj isMldsa
  rfl

def strangeEvent : Agui.UIEvent :=
  { session := [], kind := 9, action := [], seq := 0, prev := Agui.genesis }

/-- A name with a lone surrogate has no encoding. -/
def surrogateBinding : Naming.NameBinding :=
  { name := [.surrogate 0], signer := [], seq := 0, prev := Naming.genesis }

/-- The walk of events also fails by an unknown kind, where there is no hole; of bindings without an
encoding no position is reported; and a profile that does not admit the alg of a registrar refuses
what it appends.
-/
theorem chain_walks_fail_otherwise
    : (Agui.detectHole [strangeEvent] = .ok (0, false)
        ∧ Agui.walkShown [strangeEvent] = .error unknownKind ∧ unknownKind ≠ sessionChanged)
      ∧ (Naming.detectHole [surrogateBinding] = .error .unicodeEncodeError
        ∧ Naming.walkHistory [surrogateBinding] = .error .unicodeEncodeError)
      ∧ ∀ out, Naming.verifyChain digestLibrary ((sampleRegistrations [[1]]).map Prod.snd)
          profileSovereign algMldsa65 (fitTo mldsa65PubSize [7]) ≠ .ok out := by
  refine ⟨⟨rfl, rfl, by decide⟩, ⟨rfl, rfl⟩, ?_⟩
  intro out accepted
  have refused : (Naming.verifyChain digestLibrary ((sampleRegistrations [[1]]).map Prod.snd)
      profileSovereign algMldsa65 (fitTo mldsa65PubSize [7])).toOption.isSome = false := by
    decide +kernel
  rw [accepted] at refused
  cases refused

end Naalp.Names
