import Keyvisor.Esapi
import Keyvisor.Foundation.Monitor
import Mathlib.Algebra.Order.Group.Multiset

/-!
# Release of TPM resources

A ledger follows every exchange with the ESAPI context: a successful load adds a
transient object, a started session adds a session, and a successful flush removes
its handle. Live handles are counted with multiplicity, so nothing rests on the TPM
never handing out a handle that is still live.

Every command of a call is followed by the release of what the call acquired, with
three exceptions: the attributes of a session are set before anything guards the
session, and on a loaded child the authorization is set, the inputs are converted
or the name is read before anything guards the child. A call leaves something live
exactly when one of these steps fails.
-/

namespace Keyvisor.Esapi

open Foundation Foundation.Text

abbrev Handles := Multiset ObjectHandle

/-- What an exchange does to the live handles. -/
def track (live : Handles) : Program.Exchange Operation Answer → Handles
  | ⟨.load _ _ _ _, answer⟩ =>
    match (answer : Except Error KeyHandle) with
    | .ok child => .key child ::ₘ live
    | .error _ => live
  | ⟨.startAuthSession _ _, answer⟩ =>
    match (answer : Except Error (Option AuthSession)) with
    | .ok (some session) => .session session ::ₘ live
    | _ => live
  | ⟨.flushContext handle, answer⟩ =>
    match (answer : Except Error Unit) with
    | .ok _ => live.erase handle
    | .error _ => live
  | _ => live

/-- The live handles after a transcript. -/
def liveAfter (live : Handles) (transcript : List (Program.Exchange Operation Answer)) : Handles :=
  transcript.foldl track live

/-- None of the steps failed that stand unguarded after an acquisition. -/
def smooth : Program.Exchange Operation Answer → Bool
  | ⟨.trSessSetAttributes _ _ _, answer⟩ => (answer : Except Error Unit).isOk
  | ⟨.trSetAuth _ _, answer⟩ => (answer : Except Error Unit).isOk
  | ⟨.trGetName _, answer⟩ => (answer : Except Error Bytes).isOk
  | _ => true

/-- A child was loaded. -/
def loads : Program.Exchange Operation Answer → Bool
  | ⟨.load _ _ _ _, answer⟩ => (answer : Except Error KeyHandle).isOk
  | _ => false

/-- If the exchange is a flush, it succeeded. -/
def flushes : Program.Exchange Operation Answer → Bool
  | ⟨.flushContext _, answer⟩ => (answer : Except Error Unit).isOk
  | _ => true

/-- The account of a transcript. -/
structure Ledger where
  live : Handles
  smooth : Bool
  loaded : Bool
  released : Bool

/-- Nothing has failed, and nothing was loaded. -/
def Ledger.opened (live : Handles) : Ledger := ⟨live, true, false, true⟩

/-- The ledger after one more exchange. -/
def Ledger.record (ledger : Ledger) (exchange : Program.Exchange Operation Answer) : Ledger where
  live := track ledger.live exchange
  smooth := Esapi.smooth exchange && ledger.smooth
  loaded := loads exchange || ledger.loaded
  released := flushes exchange && ledger.released

/-- The ledger as a monitor that refuses nothing. -/
def recorder (ledger : Ledger) (exchange : Program.Exchange Operation Answer) : Option Ledger :=
  some (ledger.record exchange)

/-- A ledger adds up its transcript. -/
theorem accepts_recorder (ledger : Ledger) (transcript : List (Program.Exchange Operation Answer)) :
    Program.accepts recorder ledger transcript = some
      ⟨liveAfter ledger.live transcript, transcript.all smooth && ledger.smooth,
        transcript.any loads || ledger.loaded, transcript.all flushes && ledger.released⟩ := by
  induction transcript generalizing ledger with
  | nil => rfl
  | cons exchange rest inductionHypothesis =>
    simp only [Program.accepts, recorder, inductionHypothesis, Ledger.record, liveAfter, List.foldl_cons,
      List.all_cons, List.any_cons]
    refine congrArg some (Ledger.mk.injEq .. ▸ ⟨rfl, ?_, ?_, ?_⟩)
    · rw [Bool.and_left_comm, Bool.and_assoc]
    · rw [Bool.or_left_comm, Bool.or_assoc]
    · rw [Bool.and_left_comm, Bool.and_assoc]

/-! ## Sessions -/

/-- A session whose attributes could not be set stays. -/
def Ledger.unset (ledger : Ledger) (session : AuthSession) : Ledger :=
  { ledger with live := .session session ::ₘ ledger.live, smooth := false }

/-- A child that was loaded. -/
def Ledger.holding (ledger : Ledger) (child : KeyHandle) : Ledger :=
  { ledger with live := .key child ::ₘ ledger.live, loaded := true }

/-- A flush of the latest handle takes it off again. -/
theorem record_flush (ledger : Ledger) (handle : ObjectHandle) :
    Ledger.record { ledger with live := handle ::ₘ ledger.live }
      ⟨.flushContext handle, (.ok () : Except Error Unit)⟩ = ledger := by
  cases ledger
  simp only [Ledger.record, track, smooth, loads, flushes, Multiset.erase_cons_head, Except.isOk, Except.toBool,
    Bool.true_and, Bool.false_or]

/-- A flush of the handle below the latest one. -/
theorem record_flush_below (ledger : Ledger) (latest handle : ObjectHandle) (different : latest ≠ handle) :
    Ledger.record { ledger with live := latest ::ₘ handle ::ₘ ledger.live }
      ⟨.flushContext handle, (.ok () : Except Error Unit)⟩ = { ledger with live := latest ::ₘ ledger.live } := by
  have below : (latest ::ₘ handle ::ₘ ledger.live).erase handle = latest ::ₘ ledger.live := by
    rw [Multiset.erase_cons_tail _ different, Multiset.erase_cons_head]
  cases ledger
  simp only [Ledger.record, track, smooth, loads, flushes, below, Except.isOk, Except.toBool, Bool.true_and,
    Bool.false_or]

/-- The end of a session around a command that acquires nothing. -/
def Quiet {α : Type} (ledger reached : Ledger) (outcome : Except Error α) : Prop :=
  reached.released → ledger.released ∧
    (reached = ledger ∨ ∃ session error, reached = ledger.unset session ∧ outcome = .error error)

/-- The end of a session around a load. -/
def Loading (ledger reached : Ledger) (outcome : Except Error KeyHandle) : Prop :=
  reached.released → ledger.released ∧
    ((∃ error, reached = ledger ∧ outcome = .error error) ∨
      (∃ session error, reached = ledger.unset session ∧ outcome = .error error) ∨
      ∃ child, reached = ledger.holding child ∧ outcome = .ok child)

section

variable {α : Type} {saltKey : KeyHandle} {bind : Option KeyHandle} {ledger : Ledger}

/-- A session either does not start, or stays because its attributes cannot be set,
or is flushed after its command. -/
theorem withEncryptedSession_records {operation : AuthSession → Routine Error α}
    {post : Ledger → Except Error α → Prop} (unstarted : ∀ error, post ledger (.error error))
    (unset : ∀ session error, post (ledger.unset session) (.error error))
    (inner : ∀ session, Program.Complies recorder { ledger with live := .session session ::ₘ ledger.live }
      (operation session).run fun reached outcome => ∀ flush : Except Error Unit,
        post (reached.record ⟨.flushContext (.session session), flush⟩) (settle outcome flush)) :
    Program.Complies recorder ledger (withEncryptedSession saltKey bind operation).run post := by
  refine Program.Complies.routine (Program.complies_call fun answer => ?_)
  rcases (answer : Except Error (Option AuthSession)) with error | _ | session
  · exact ⟨ledger, rfl, unstarted error⟩
  · exact ⟨ledger, rfl, unstarted .wrapperError⟩
  refine ⟨{ ledger with live := .session session ::ₘ ledger.live }, rfl, Program.continues_ok ?_⟩
  refine Program.Complies.routine (Program.complies_check (Program.continues_ok ?_))
  refine Program.Complies.routine (Program.complies_call fun answer => ?_)
  rcases (answer : Except Error Unit) with error | _
  · exact ⟨ledger.unset session, rfl, unset session error⟩
  refine ⟨{ ledger with live := .session session ::ₘ ledger.live }, rfl, Program.continues_ok ?_⟩
  refine Program.Complies.routine (Program.complies_observed ((inner session).weaken ?_))
  intro reached outcome ends
  refine Program.continues_ok (Program.Complies.routine
    (Program.complies_observed (Program.complies_call fun flush => ⟨_, rfl, Program.continues_ok ?_⟩)))
  exact Program.complies_check (ends flush)

/-- A command that acquires nothing leaves the ledger as it was. -/
theorem quiet_session {operation : AuthSession → Routine Error α}
    (quiet : ∀ session other, Program.Complies recorder other (operation session).run fun reached _ =>
      reached = other) :
    Program.Complies recorder ledger (withEncryptedSession saltKey bind operation).run (Quiet ledger) := by
  refine withEncryptedSession_records ?_ ?_ ?_
  · exact fun error released => ⟨released, .inl rfl⟩
  · exact fun session error released => ⟨released, .inr ⟨session, error, rfl, rfl⟩⟩
  · intro session
    refine (quiet session _).weaken ?_
    rintro reached outcome rfl flush released
    cases flush with
    | error error => cases released
    | ok _ =>
      exact ⟨released, .inl (record_flush ledger _)⟩

/-- A load adds its child when it succeeds. -/
theorem loading_session {parent : KeyHandle} {sensitive : Bytes} {area : Public} :
    Program.Complies recorder ledger (withEncryptedSession saltKey bind fun session =>
      contextLoad session parent sensitive area).run (Loading ledger) := by
  refine withEncryptedSession_records ?_ ?_ ?_
  · exact fun error released => ⟨released, .inl ⟨error, rfl, rfl⟩⟩
  · exact fun session error released => ⟨released, .inr (.inl ⟨session, error, rfl, rfl⟩)⟩
  · intro session
    refine Program.complies_call fun answer => ⟨_, rfl, fun flush released => ?_⟩
    cases flush with
    | error error => cases released
    | ok _ =>
      rcases (answer : Except Error KeyHandle) with error | child
      · exact ⟨released, .inl ⟨error, record_flush ledger _, rfl⟩⟩
      · exact ⟨released, .inr (.inr ⟨child, record_flush_below { ledger with loaded := true } _ _ nofun, rfl⟩)⟩

end

/-! ## Calls -/

/-- What was live before a call is live after it, and nothing else exactly when the
condition holds. -/
def Settles (before : Handles) (condition : Ledger → Prop) (ledger : Ledger) : Prop :=
  ledger.released → ∃ left : Handles, ledger.live = left + before ∧ (left = 0 ↔ condition ledger)

/-- A ledger that is as before settles under a condition that holds. -/
theorem settles_clean {before : Handles} {condition : Ledger → Prop} {ledger : Ledger}
    (live : ledger.live = before) (holds : condition ledger) : Settles before condition ledger :=
  fun _ => ⟨0, by rw [live, zero_add], ⟨fun _ => holds, fun _ => rfl⟩⟩

/-- A ledger with one more object settles under a condition that fails. -/
theorem settles_leak {before : Handles} {condition : Ledger → Prop} {ledger : Ledger} {handle : ObjectHandle}
    (live : ledger.live = handle ::ₘ before) (fails : ¬ condition ledger) : Settles before condition ledger := by
  refine fun _ => ⟨{handle}, by rw [live, Multiset.singleton_add], ?_⟩
  constructor
  · exact fun nothing => absurd nothing (Multiset.singleton_ne_zero handle)
  · exact fun holds => absurd holds fails

/-- After a failed flush nothing is promised. -/
theorem unreleased_records {α : Type} {post : Ledger → α → Prop}
    (vacuous : ∀ reached value, reached.released = false → post reached value) (program : Program Operation Answer α)
    {ledger : Ledger} (unreleased : ledger.released = false) : Program.Complies recorder ledger program post := by
  induction program generalizing ledger with
  | done value => exact vacuous ledger value unreleased
  | ask operation next inductionHypothesis =>
    intro answer
    refine ⟨_, rfl, inductionHypothesis answer ?_⟩
    simp only [Ledger.record, unreleased, Bool.and_false]

/-- Nothing is promised once a release has failed. -/
theorem settles_unreleased {before : Handles} {condition : Ledger → Prop} {ledger : Ledger}
    (unreleased : ledger.released = false) : Settles before condition ledger := fun released =>
  absurd (unreleased.symm.trans released) Bool.false_ne_true

/-- A mapped routine records what the routine does. -/
theorem mapped_records {α : Type} {routine : Routine Error α} {ledger : Ledger}
    {post : Ledger → Except TpmError α → Prop}
    (records : Program.Complies recorder ledger routine.run fun reached outcome =>
      post reached (outcome.mapError mapTssError)) : Program.Complies recorder ledger (mapped routine).run post :=
  Program.complies_adapt records

section

variable (tss : Tss) (tpm : EsapiTpm)

/-- Signing leaves nothing behind exactly when nothing failed unguarded and the
inputs of a loaded child could be converted. -/
def SignCondition (digest : Bytes) (ledger : Ledger) : Prop :=
  ledger.smooth ∧ (ledger.loaded → (tss.digestOf digest).isOk ∧ tss.hashcheckTicket.isOk)

/-- The commands on a loaded child. -/
theorem signLoaded_records {before : Handles} {child : KeyHandle} {auth digest : Bytes} {algorithm : KeyAlgorithm} :
    Program.Complies recorder ((Ledger.opened before).holding child)
      (signLoaded tss tpm child auth algorithm digest).run
      fun reached _ => Settles before (SignCondition tss digest) reached := by
  refine Program.Complies.routine (mapped_records (Program.complies_call fun answer => ?_))
  rcases (answer : Except Error Unit) with error | _
  · exact ⟨_, rfl, settles_leak rfl fun condition => nomatch condition.1⟩
  refine ⟨(Ledger.opened before).holding child, rfl, Program.continues_ok ?_⟩
  refine Program.Complies.routine (Program.complies_check ?_)
  cases digested : tss.digestOf digest with
  | error error =>
    refine settles_leak rfl fun condition => ?_
    have converts := (condition.2 rfl).1
    rw [digested] at converts
    cases converts
  | ok message =>
    refine Program.continues_ok (Program.Complies.routine (Program.complies_check ?_))
    cases ticketed : tss.hashcheckTicket with
    | error error =>
      refine settles_leak rfl fun condition => ?_
      have converts := (condition.2 rfl).2
      rw [ticketed] at converts
      cases converts
    | ok _ =>
      have quiet (session : AuthSession) (other : Ledger) : Program.Complies recorder other
          (contextSign session child message (hashAlgorithm algorithm)).run fun reached _ => reached = other :=
        Program.complies_call fun _ => ⟨other, rfl, rfl⟩
      refine Program.continues_ok (Program.Complies.routine
        (Program.complies_observed (mapped_records ((quiet_session quiet).weaken ?_))))
      intro reached outcome ends
      refine Program.continues_ok (Program.Complies.routine (Program.complies_observed
        (mapped_records (Program.complies_call fun flush =>
          ⟨_, rfl, Program.continues_ok (Program.complies_check ?_)⟩))))
      rcases (flush : Except Error Unit) with error | _
      · exact nofun
      · intro released
        obtain ⟨_, rfl | ⟨session, error, rfl, _⟩⟩ := ends released
        · have flushed := record_flush { Ledger.opened before with loaded := true } (.key child)
          rw [show (Ledger.holding (Ledger.opened before) child).record _ = _ from flushed]
          exact settles_clean rfl ⟨rfl, fun _ => ⟨by rw [digested]; rfl, by rw [ticketed]; rfl⟩⟩ rfl
        · have flushed := record_flush_below { Ledger.opened before with smooth := false, loaded := true }
            (.session session) (.key child) nofun
          rw [show (Ledger.unset (Ledger.holding (Ledger.opened before) child) session).record _ = _ from flushed]
          exact settles_leak rfl (fun condition => nomatch condition.1) rfl

/-- The end of a load, whose object may be refused before any command. -/
def Loaded (ledger reached : Ledger) (outcome : Except TpmError KeyHandle) : Prop :=
  reached.released → ledger.released ∧
    ((∃ error, reached = ledger ∧ outcome = .error error) ∨
      (∃ session error, reached = ledger.unset session ∧ outcome = .error error) ∨
      ∃ child, reached = ledger.holding child ∧ outcome = .ok child)

/-- A loading stays one when its error is translated. -/
theorem loaded_of_loading {ledger reached : Ledger} {outcome : Except Error KeyHandle}
    (loading : Loading ledger reached outcome) : Loaded ledger reached (outcome.mapError mapTssError) := by
  intro released
  obtain ⟨before, ⟨error, same, rfl⟩ | ⟨session, error, leaked, rfl⟩ | ⟨child, held, rfl⟩⟩ := loading released
  · exact ⟨before, .inl ⟨_, same, rfl⟩⟩
  · exact ⟨before, .inr (.inl ⟨session, _, leaked, rfl⟩)⟩
  · exact ⟨before, .inr (.inr ⟨child, held, rfl⟩)⟩

/-- A refused load changes nothing. -/
theorem loaded_refused {ledger : Ledger} (error : TpmError) : Loaded ledger ledger (.error error) :=
  fun released => ⟨released, .inl ⟨error, rfl, rfl⟩⟩

/-- Loading adds the child that is returned, or fails with at most its session left. -/
theorem load_records {ledger : Ledger} (object : TpmObject) (algorithm : KeyAlgorithm) :
    Program.Complies recorder ledger (load tss tpm object algorithm).run (Loaded ledger) := by
  unfold load
  split
  · exact loaded_refused _
  refine Program.Complies.routine (Program.complies_check ?_)
  cases tss.unmarshall object.public with
  | none => exact loaded_refused _
  | some area =>
    refine Program.continues_ok (Program.Complies.routine (Program.complies_check ?_))
    cases validatePublic tss area algorithm object.usePolicy with
    | error error => exact loaded_refused _
    | ok _ =>
      refine Program.continues_ok (Program.Complies.routine (Program.complies_check ?_))
      cases tss.privateOf object.wrappedPrivate with
      | none => exact loaded_refused _
      | some wrapped =>
        exact mapped_records (loading_session.weaken fun _ _ loading => loaded_of_loading loading)

/-- Every way through `sign`. -/
theorem sign_records (before : Handles) (key : TpmObject) (algorithm : KeyAlgorithm) (digest : Bytes)
    (authorization : TpmAuthorization) :
    Program.Complies recorder (Ledger.opened before) (sign tss tpm key algorithm digest authorization).run
      fun reached _ => Settles before (SignCondition tss digest) reached := by
  have untouched : Settles before (SignCondition tss digest) (Ledger.opened before) :=
    settles_clean rfl ⟨rfl, nofun⟩
  unfold sign
  split
  · exact untouched
  refine Program.Complies.routine (Program.complies_check ?_)
  cases authorizationValue tss authorization with
  | error error => exact untouched
  | ok pair =>
    obtain ⟨auth, usePolicy⟩ := pair
    refine Program.continues_ok ?_
    simp only
    split
    · exact untouched
    refine Program.Complies.routine ((load_records tss tpm key algorithm).weaken ?_)
    intro reached outcome ends
    cases released : reached.released with
    | false =>
      cases outcome with
      | error error => exact settles_unreleased released
      | ok child => exact unreleased_records (fun _ _ => settles_unreleased) _ released
    | true =>
      obtain ⟨_, ⟨error, rfl, rfl⟩ | ⟨session, error, rfl, rfl⟩ | ⟨child, rfl, rfl⟩⟩ := ends released
      · exact untouched
      · exact settles_leak rfl fun condition => nomatch condition.1
      · refine Program.continues_ok (Program.Complies.routine ((signLoaded_records tss tpm).weaken ?_))
        intro final signature settles
        cases signature with
        | error error => exact settles
        | ok signature =>
          refine Program.continues_ok (Program.complies_check ?_)
          exact settles

/-- Creation leaves nothing behind exactly when nothing failed unguarded. -/
def GenerateCondition (ledger : Ledger) : Prop := ledger.smooth

/-- Learning the name of a new child. -/
theorem childName_records (before : Handles) (created : CreateKeyResult) :
    Program.Complies recorder (Ledger.opened before) (childName tpm created).run
      fun reached _ => Settles before GenerateCondition reached := by
  refine Program.Complies.routine (mapped_records (loading_session.weaken ?_))
  intro reached outcome ends
  cases released : reached.released with
  | false =>
    cases outcome with
    | error error => exact settles_unreleased released
    | ok child => exact unreleased_records (fun _ _ => settles_unreleased) _ released
  | true =>
    obtain ⟨_, ⟨error, rfl, rfl⟩ | ⟨session, error, rfl, rfl⟩ | ⟨child, rfl, rfl⟩⟩ := ends released
    · exact settles_clean rfl rfl
    · exact settles_leak rfl nofun
    · refine Program.continues_ok (Program.Complies.routine (mapped_records (Program.complies_call fun answer => ?_)))
      rcases (answer : Except Error Bytes) with error | name
      · exact ⟨_, rfl, settles_leak rfl nofun⟩
      refine ⟨(Ledger.opened before).holding child, rfl, Program.continues_ok ?_⟩
      refine Program.Complies.routine (mapped_records (Program.complies_call fun flush => ⟨_, rfl, ?_⟩))
      rcases (flush : Except Error Unit) with error | _
      · exact settles_unreleased rfl
      · refine settles_clean ?_ rfl
        exact congrArg Ledger.live (record_flush { Ledger.opened before with loaded := true } (.key child))

/-- What follows the creation. -/
theorem createdKey_records (builders : Builders) (before : Handles) (created : CreateKeyResult) (name : String)
    (algorithm : KeyAlgorithm) (usePolicy : KeyUsePolicy) :
    Program.Complies recorder (Ledger.opened before) (do
      validatePublic tss created.outPublic algorithm usePolicy
      let publicKey ← sshPublicKey created.outPublic algorithm
      let id ← childName tpm created
      let «public» ← (builders.marshall created.outPublic).mapError mapTssError
      return (
        { id := ⟨hexText id⟩, name, algorithm, usePolicy, publicKey },
        { «public», wrappedPrivate := created.outPrivate, parentName := tpm.parentName, usePolicy }) :
        Routine TpmError (KeySummary × TpmObject)).run
      fun reached _ => Settles before GenerateCondition reached := by
  have untouched : Settles before GenerateCondition (Ledger.opened before) := settles_clean rfl rfl
  refine Program.Complies.routine (Program.complies_check ?_)
  cases validatePublic tss created.outPublic algorithm usePolicy with
  | error error => exact untouched
  | ok _ =>
    refine Program.continues_ok (Program.Complies.routine (Program.complies_check ?_))
    cases sshPublicKey created.outPublic algorithm with
    | error error => exact untouched
    | ok publicKey =>
      refine Program.continues_ok (Program.Complies.routine ((childName_records tpm before created).weaken ?_))
      intro reached outcome settles
      cases outcome with
      | error error => exact settles
      | ok id =>
        refine Program.continues_ok (Program.Complies.routine (Program.complies_check ?_))
        cases builders.marshall created.outPublic with
        | error error => exact settles
        | ok _ => exact settles

/-- Every way through `generate`. -/
theorem generate_records (builders : Builders) (before : Handles) (name : String) (algorithm : KeyAlgorithm)
    (authorization : TpmAuthorization) :
    Program.Complies recorder (Ledger.opened before)
      (generate tss builders tpm name algorithm authorization).run
      fun reached _ => Settles before GenerateCondition reached := by
  have untouched : Settles before GenerateCondition (Ledger.opened before) := settles_clean rfl rfl
  refine Program.Complies.routine (mapped_records (Program.complies_call fun answer => ⟨Ledger.opened before, rfl, ?_⟩))
  rcases (answer : Except Error CapabilityData) with error | capabilities
  · exact untouched
  refine Program.continues_ok (Program.Complies.routine (Program.complies_check ?_))
  cases supportsCurve algorithm capabilities with
  | error error => exact untouched
  | ok _ =>
  refine Program.continues_ok (Program.Complies.routine (Program.complies_check ?_))
  cases authorizationValue tss authorization with
  | error error => exact untouched
  | ok pair =>
  obtain ⟨auth, usePolicy⟩ := pair
  refine Program.continues_ok (Program.Complies.routine (Program.complies_check ?_))
  cases createPublic tss builders algorithm usePolicy with
  | error error => exact untouched
  | ok requested =>
  have quiet (session : AuthSession) (other : Ledger) : Program.Complies recorder other
      (contextCreate session tpm.parent requested auth).run fun reached _ => reached = other :=
    Program.complies_call fun _ => ⟨other, rfl, rfl⟩
  refine Program.continues_ok (Program.Complies.routine (mapped_records ((quiet_session quiet).weaken ?_)))
  intro reached outcome ends
  cases released : reached.released with
  | false =>
    cases outcome with
    | error error => exact settles_unreleased released
    | ok created => exact unreleased_records (fun _ _ => settles_unreleased) _ released
  | true =>
    obtain ⟨_, rfl | ⟨session, error, rfl, rfl⟩⟩ := ends released
    · cases outcome with
      | error error => exact untouched
      | ok created =>
        exact Program.continues_ok (createdKey_records tss tpm builders before created name algorithm usePolicy)
    · exact settles_leak rfl nofun

end

/-! ## The long-lived context -/

/-- A call of the signer. -/
inductive Request where
  | sign (key : TpmObject) (algorithm : KeyAlgorithm) (digest : Bytes) (authorization : TpmAuthorization)
  | generate (name : String) (algorithm : KeyAlgorithm) (authorization : TpmAuthorization)

section

variable (tss : Tss) (builders : Builders) (tpm : EsapiTpm)

/-- The call has returned, whatever its result, after these exchanges. -/
def Request.Returns : Request → List (Program.Exchange Operation Answer) → Prop
  | .sign key algorithm digest authorization, transcript => ∃ result,
      Program.Follows (Esapi.sign tss tpm key algorithm digest authorization).run transcript (.done result)
  | .generate name algorithm authorization, transcript => ∃ result,
      Program.Follows (Esapi.generate tss builders tpm name algorithm authorization).run transcript (.done result)

/-- Setting session attributes, setting the authorization of a child and reading its
name succeed whenever they are issued, and the inputs of a loaded child convert. -/
def Request.Spared : Request → List (Program.Exchange Operation Answer) → Prop
  | .sign _ _ digest _, transcript => (∀ exchange ∈ transcript, smooth exchange) ∧
      ((∃ exchange ∈ transcript, loads exchange) → (tss.digestOf digest).isOk ∧ tss.hashcheckTicket.isOk)
  | .generate _ _ _, transcript => ∀ exchange ∈ transcript, smooth exchange

variable {tss builders tpm}

/-- Every call leaves what it does not release on top of what was live before. -/
theorem Request.leaves {request : Request} {transcript : List (Program.Exchange Operation Answer)}
    (returns : request.Returns tss builders tpm transcript) (flushed : ∀ exchange ∈ transcript, flushes exchange)
    (before : Handles) :
    ∃ left : Handles, liveAfter before transcript = left + before ∧ (left = 0 ↔ request.Spared tss transcript) := by
  have released : transcript.all flushes = true := List.all_eq_true.mpr flushed
  cases request with
  | sign key algorithm digest authorization =>
    obtain ⟨result, followed⟩ := returns
    obtain ⟨reached, accepted, settles⟩ :=
      (sign_records tss tpm before key algorithm digest authorization).of_follows_done followed
    rw [accepts_recorder] at accepted
    cases accepted
    obtain ⟨left, live, condition⟩ := settles (by simp [Ledger.opened, released])
    refine ⟨left, live, condition.trans ?_⟩
    simp [SignCondition, Ledger.opened, Request.Spared]
  | generate name algorithm authorization =>
    obtain ⟨result, followed⟩ := returns
    obtain ⟨reached, accepted, settles⟩ :=
      (generate_records tss tpm builders before name algorithm authorization).of_follows_done followed
    rw [accepts_recorder] at accepted
    cases accepted
    obtain ⟨left, live, condition⟩ := settles (by simp [Ledger.opened, released])
    refine ⟨left, live, condition.trans ?_⟩
    simp [GenerateCondition, Ledger.opened, Request.Spared]

/-- What is left over adds up over a run. -/
theorem run_leaves {run : List (Request × List (Program.Exchange Operation Answer))}
    (returns : ∀ call ∈ run, call.1.Returns tss builders tpm call.2)
    (flushed : ∀ call ∈ run, ∀ exchange ∈ call.2, flushes exchange) (before : Handles) :
    ∃ left : Handles, liveAfter before (run.flatMap Prod.snd) = left + before ∧
      (left = 0 ↔ ∀ call ∈ run, call.1.Spared tss call.2) := by
  induction run generalizing before with
  | nil => exact ⟨0, (zero_add before).symm, ⟨nofun, fun _ => rfl⟩⟩
  | cons first rest inductionHypothesis =>
    obtain ⟨firstLeft, firstLive, firstCondition⟩ :=
      first.1.leaves (returns first List.mem_cons_self) (flushed first List.mem_cons_self) before
    obtain ⟨restLeft, restLive, restCondition⟩ := inductionHypothesis
      (fun call member => returns call (List.mem_cons_of_mem _ member))
      (fun call member => flushed call (List.mem_cons_of_mem _ member)) (firstLeft + before)
    refine ⟨restLeft + firstLeft, ?_, ?_⟩
    · rw [List.flatMap_cons, liveAfter, List.foldl_append]
      rw [show first.2.foldl track before = _ from firstLive, add_assoc]
      exact restLive
    · rw [List.forall_mem_cons, ← firstCondition, ← restCondition,
        add_eq_zero_iff_of_nonneg (Multiset.zero_le _) (Multiset.zero_le _), and_comm]

end

/-- Of every call that returns with every issued flush answered by success, what is
live afterwards is what was live before if and only if no unguarded step failed; and
over any run of calls nothing accumulates if and only if that holds of each call. -/
theorem released_exactly_when_spared (tss : Tss) (builders : Builders) (tpm : EsapiTpm) (before : Handles)
    (run : List (Request × List (Program.Exchange Operation Answer)))
    (returns : ∀ call ∈ run, call.1.Returns tss builders tpm call.2)
    (flushed : ∀ call ∈ run, ∀ exchange ∈ call.2, flushes exchange) :
    (∀ call ∈ run, liveAfter before call.2 = before ↔ call.1.Spared tss call.2) ∧
    (liveAfter before (run.flatMap Prod.snd) = before ↔ ∀ call ∈ run, call.1.Spared tss call.2) := by
  constructor
  · intro call member
    obtain ⟨left, live, condition⟩ := call.1.leaves (returns call member) (flushed call member) before
    rw [live, add_eq_right, condition]
  · obtain ⟨left, live, condition⟩ := run_leaves returns flushed before
    rw [live, add_eq_right, condition]

/-! ## A leak -/

/-- Conversions that accept what they are given, and a public area that passes the
checks for a key without a PIN. -/
def lenientTss : Tss where
  unmarshall _ := some (.ecc (requestedAttributes .noPin) .nistP256 (.ecDsa .sha256) [] [])
  privateOf bytes := some bytes
  authOf bytes := some bytes
  digestOf bytes := .ok bytes
  hashcheckTicket := .ok ()
  ecDsaScheme hash := .ok (.ecDsa hash)

def lenientBuilders : Builders where
  objectAttributes attributes := .ok attributes
  eccParameters scheme curve := .ok (scheme, curve)
  publicArea attributes parameters := .ok (.ecc attributes parameters.2 parameters.1 [] [])
  marshall _ := .ok [6]

/-- A signature with a key of the parent named `5`. -/
def sampleRequest : Request := .sign ⟨[6], [7], [5], .noPin⟩ .ecdsaNistP256 (List.replicate 32 9) .none

/-- The child is loaded, and its authorization is set with the given outcome. -/
def loadedThen (outcome : Except Error Unit) : List (Program.Exchange Operation Answer) :=
  [⟨.startAuthSession ⟨1⟩ none, .ok (some ⟨2⟩)⟩,
    ⟨.trSessSetAttributes ⟨2⟩ true true, .ok ()⟩,
    ⟨.load ⟨2⟩ ⟨1⟩ [7] (.ecc (requestedAttributes .noPin) .nistP256 (.ecDsa .sha256) [] []), .ok ⟨3⟩⟩,
    ⟨.flushContext (.session ⟨2⟩), .ok ()⟩,
    ⟨.trSetAuth ⟨3⟩ [], outcome⟩]

/-- The rest of a run in which the signing command itself fails. -/
def refusedAfterwards : List (Program.Exchange Operation Answer) :=
  [⟨.startAuthSession ⟨1⟩ (some ⟨3⟩), .ok (some ⟨4⟩)⟩,
    ⟨.trSessSetAttributes ⟨4⟩ true true, .ok ()⟩,
    ⟨.sign ⟨4⟩ ⟨3⟩ (List.replicate 32 9) .sha256, .error .wrapperError⟩,
    ⟨.flushContext (.session ⟨4⟩), .ok ()⟩,
    ⟨.flushContext (.key ⟨3⟩), .ok ()⟩]

/-- A signing command that fails leaves nothing behind. -/
theorem refused_signature_is_released :
    liveAfter 0 (loadedThen (.ok ()) ++ refusedAfterwards) = 0 := by
  have followed : Program.Follows (sign lenientTss ⟨⟨1⟩, [5]⟩ ⟨[6], [7], [5], .noPin⟩ .ecdsaNistP256
      (List.replicate 32 9) .none).run (loadedThen (.ok ()) ++ refusedAfterwards) (.done (.error .transport)) :=
    (Program.follow_eq_some _ _ _).mp rfl
  have spared : sampleRequest.Spared lenientTss (loadedThen (.ok ()) ++ refusedAfterwards) :=
    ⟨by decide, fun _ => ⟨rfl, rfl⟩⟩
  have exact := (released_exactly_when_spared lenientTss lenientBuilders ⟨⟨1⟩, [5]⟩ 0
    [(sampleRequest, loadedThen (.ok ()) ++ refusedAfterwards)] (by simpa using ⟨_, followed⟩) (by decide)).1
  exact (exact _ (List.mem_singleton_self _)).mpr spared

/-- When the authorization of the loaded child cannot be set, every flush that is
issued succeeds and the child stays. -/
theorem unguarded_child_stays :
    (∃ result, Program.Follows (sign lenientTss ⟨⟨1⟩, [5]⟩ ⟨[6], [7], [5], .noPin⟩ .ecdsaNistP256
      (List.replicate 32 9) .none).run (loadedThen (.error .wrapperError)) (.done result)) ∧
    (∀ exchange ∈ loadedThen (.error .wrapperError), flushes exchange) ∧
    liveAfter 0 (loadedThen (.error .wrapperError)) = {.key ⟨3⟩} ∧
    liveAfter 0 (loadedThen (.error .wrapperError)) ≠ 0 := by
  refine ⟨⟨.error .transport, (Program.follow_eq_some _ _ _).mp rfl⟩, by decide, by decide, by decide⟩

end Keyvisor.Esapi
