/-
# Which calls a part of a handler can make

Every call has a `CallKind`: which table it writes, or that it reads, asks the outside world, or
takes a lock.  For each part of a handler one lemma lists the kinds of calls it can make, on every
branch; `uses_handle` does so for the requests.

The lemmas are stated for an arbitrary class `A` of calls that contains the listed kinds
(`Call.Of A ks`), so that they combine with `Call.Of.sub` and can be read at any class: the calls
that leave the lineage alone, those that open no transaction, those that do not assign the adapter
key.
-/
import GovernorGateway.Handlers.Requests

namespace GovernorGateway

open Effects

/-! ## 1. Kinds of calls -/

inductive CallKind where
  /-- A read of the store. -/
  | read
  | commit (site : CommitSite)
  /-- The quarantine ledger and the quarantine events. -/
  | ledger
  /-- The traversal, which classifies the affected compactions. -/
  | repair
  /-- The outcome of a reconstruction. -/
  | decision
  /-- A record that makes a candidate pending; only the traversal stores such records. -/
  | reopen
  /-- An assignment to a record that was read. -/
  | assign
  | withdrawal
  /-- Rejections, offers and completions. -/
  | tainted
  | audit
  /-- Horizon and evidence of a reintegration. -/
  | reintegration
  | trust
  | exposure
  | signal
  | detector
  | checkpoint
  | substitute
  | effect
  | calibration
  /-- The outside world, but for the recovery adapter. -/
  | ext
  /-- A request to the recovery adapter. -/
  | adapter
  | getKey
  | setKey
  /-- The shared side of the admission lock. -/
  | shared
  /-- The exclusive side. -/
  | exclusive
  | tx
  deriving DecidableEq

def Store.kind : Store → CallKind
  | .getDag | .getQuarantineLedger | .getRepairCandidates | .getCheckpoints
  | .getSubstituteDeclarations | .nodesExist _ | .areQuarantined _ | .getNodeContentHashes _
  | .computeCoversIntervalGap _ | .computeQuarantineDigest _ | .computeStateDigest
  | .getCriticalDependents _ | .findContinuityReplacement _ | .getActiveHorizonSet _
  | .countRecentSignals _ _ | .countRecentSignalsGlobal _ => .read
  | .commitNode site _ => .commit site
  | .computeBlastRadius _ => .repair
  | .applyQuarantineTransaction _ _ => .ledger
  | .applyWithdrawalTransaction _ _ _ => .withdrawal
  | .updateRepairCandidate _ rc =>
    if rc.disposition = .pendingReconstruction then .reopen else .decision
  | .assignRepairCandidate _ _ => .assign
  | .recordTaintedRejection _ _ _ _ | .recordTaintedOffer _ _ _ | .checkRetryCompletion _ => .tainted
  | .recordShadowDecision _ => .audit
  | .recordReintegration _ _ _ _ | .recordReintegrationEvidence _ => .reintegration
  | .recordContinuityExposure _ => .exposure
  | .recordSignalAttempt _ _ _ _ _ => .signal
  | .recordDetectorEvent _ => .detector
  | .addCheckpoint _ => .checkpoint
  | .addSubstituteDeclaration _ => .substitute
  | .addExternalEffect _ _ _ _ => .effect
  | .renewTrust _ _ _ => .trust
  | .recordCalibrationRun _ => .calibration

theorem Store.kind_updateRepairCandidate (x : NodeId) (rc : RepairCandidate) {ks : List CallKind}
    (h : ks.contains .reopen = false) (h' : ks.contains .decision = false) :
    (Store.updateRepairCandidate x rc).kind ∉ ks := by
  intro hmem
  rw [Store.kind] at hmem
  split at hmem
  · rw [List.contains_iff_mem.mpr hmem] at h
    exact absurd h (by simp)
  · rw [List.contains_iff_mem.mpr hmem] at h'
    exact absurd h' (by simp)

def Sync.kind : Sync → CallKind
  | .enterShared | .leaveShared => .shared
  | .requestExclusive | .enterExclusive | .leaveExclusive => .exclusive
  | .begin | .commit | .rollback => .tx

def Ext.kind : Ext → CallKind
  | .reconstruct _ => .adapter
  | .now _ | .uuid | .generateKey | .sign _ _ | .opa _ | .iterSet _ => .ext

def Call.kind : Call → CallKind
  | .store c => c.kind
  | .ext e => e.kind
  | .sync k => k.kind
  | .getAdapterKey => .getKey
  | .setAdapterKey _ => .setKey

/-- The class `A` contains every call of these kinds. -/
def Call.Of (A : Call → Prop) (ks : List CallKind) : Prop := ∀ c, c.kind ∈ ks → A c

theorem Call.Of.sub {A : Call → Prop} {ks ks' : List CallKind} (h : Call.Of A ks)
    (hk : ks'.all ks.contains = true) : Call.Of A ks' := by
  intro c hc
  have hmem := List.all_eq_true.mp hk c.kind hc
  exact h c (List.contains_iff_mem.mp hmem)

/-- A call that does not open or close a transaction. -/
def Call.NoTx : Call → Prop
  | .sync .begin => False
  | .sync .commit => False
  | .sync .rollback => False
  | _ => True

theorem Call.of_noTx {ks : List CallKind} (h : ks.contains .tx = false) : Call.Of Call.NoTx ks := by
  intro c hc
  cases c with
  | sync k =>
    have hk : k.kind ≠ .tx := by
      intro hk
      have hmem : ks.contains k.kind = true := List.contains_iff_mem.mpr hc
      rw [hk, h] at hmem
      exact absurd hmem (by simp)
    cases k with
    | begin => exact absurd rfl hk
    | commit => exact absurd rfl hk
    | rollback => exact absurd rfl hk
    | _ => trivial
  | _ => trivial

/-- A part of a handler that opens and closes no transaction. -/
abbrev TxFree {α : Type} (x : Handler α) : Prop := x.Uses Call.NoTx

section Uses

variable {α : Type} {A : Call → Prop} {ks : List CallKind}

theorem uses_call (hA : Call.Of A ks) (c : Call) (hc : ks.contains c.kind = true) :
    Act.Uses A (Act.perform (E := Exc) (R := Call.Res) c) :=
  (Act.uses_perform c).mpr (hA c (List.contains_iff_mem.mp hc))

theorem uses_store (hA : Call.Of A ks) {c : Store} (hc : ks.contains c.kind = true) :
    (store c).Uses A :=
  uses_call hA (.store c) hc

theorem uses_read {c : Store} (hA : Call.Of A [.read]) (hc : c.kind = .read) : (store c).Uses A :=
  uses_store hA (by rw [hc]; rfl)

theorem uses_ext (hA : Call.Of A ks) (e : Ext) (hc : ks.contains e.kind = true) : (ext e).Uses A :=
  uses_call hA (.ext e) hc

theorem uses_sync (hA : Call.Of A ks) {k : Sync} (hc : ks.contains k.kind = true) :
    (sync k).Uses A :=
  uses_call hA (.sync k) hc

theorem uses_getAdapterKey (hA : Call.Of A [.getKey]) : getAdapterKey.Uses A :=
  uses_call hA .getAdapterKey rfl

theorem uses_setAdapterKey (hA : Call.Of A [.setKey]) (key : String) : (setAdapterKey key).Uses A :=
  uses_call hA (.setAdapterKey key) rfl

theorem uses_check (r : Except Exc α) : (check r).Uses A := Act.uses_resume r

theorem uses_stampNow (hA : Call.Of A [.ext]) : stampNow.Uses A :=
  Act.uses_bind (uses_ext hA _ rfl) fun _ => Act.uses_pure _

theorem uses_withShared {x : Handler α} (hA : Call.Of A [.shared]) (hx : x.Uses A) :
    (withShared x).Uses A :=
  Act.uses_bind (uses_sync hA rfl) fun _ => Act.uses_always hx (uses_sync hA rfl)

theorem uses_withExclusive {x : Handler α} (hA : Call.Of A [.exclusive]) (hx : x.Uses A) :
    (withExclusive x).Uses A :=
  Act.uses_bind (uses_sync hA rfl) fun _ => Act.uses_bind (uses_sync hA rfl) fun _ =>
    Act.uses_always hx (uses_sync hA rfl)

theorem uses_withTransaction {x : Handler α} (hA : Call.Of A [.tx]) (hx : x.Uses A) :
    (withTransaction x).Uses A := by
  have hbody : (x >>= fun a => sync .commit >>= fun _ => pure a).Uses A :=
    Act.uses_bind hx fun _ => Act.uses_bind (uses_sync hA rfl) fun _ => Act.uses_pure _
  refine Act.uses_bind (uses_sync hA rfl) fun _ =>
    Act.uses_bind (Act.uses_attempt hbody) fun r => ?_
  split
  · exact Act.uses_pure _
  · exact Act.uses_bind (uses_sync hA rfl) fun _ => Act.uses_raise _

theorem uses_commitShared {site : CommitSite} (hA : Call.Of A [.commit site, .shared])
    (p : Payload) : (commitShared site p).Uses A := by
  have hcommit : [CallKind.commit site, .shared].contains (.commit site) = true := by simp
  exact uses_withShared (fun c hc => hA c (List.mem_cons_of_mem _ hc))
    (Act.uses_bind (uses_store hA hcommit) fun _ => Act.uses_pure _)

/-! ## 2. Recurrence, credentials and limits -/

variable (g : Setup)

theorem uses_processRecurrence (hA : Call.Of A [.ext, .repair, .withdrawal]) (x : NodeId)
    (cls source : String) (evidence : List (String × Json)) :
    (processRecurrence g x cls source evidence).Uses A := by
  refine Act.uses_bind (uses_store hA rfl) fun _ => Act.uses_bind (uses_ext hA _ rfl) fun _ =>
    Act.uses_bind (uses_stampNow (hA.sub rfl)) fun _ => Act.uses_bind (uses_ext hA _ rfl) fun _ => ?_
  dsimp only
  split
  · exact uses_store hA rfl
  · exact uses_store hA rfl

theorem uses_recurrenceHook (hA : Call.Of A [.ext, .read, .repair, .withdrawal])
    (ids : List NodeId) (cls : String) : (recurrenceHook g ids cls).Uses A := by
  refine Act.uses_bind (uses_ext hA _ rfl) fun _ => Act.uses_bind (uses_store hA rfl) fun active => ?_
  refine Act.uses_forEach (fun x => ?_) ids
  split
  · exact uses_processRecurrence g (hA.sub rfl) x cls "internal_hook" []
  · exact Act.uses_pure _

theorem uses_verifyNhi (hA : Call.Of A [.ext]) (token identity : Option String) :
    (verifyNhi g token identity).Uses A :=
  Act.uses_bind (uses_ext hA _ rfl) fun _ => uses_check _

theorem uses_verifyRole (hA : Call.Of A [.ext]) (header : Option String) (role : String) :
    (verifyRole g header role).Uses A :=
  Act.uses_bind (uses_ext hA _ rfl) fun _ => uses_check _

theorem uses_recordSignal (hA : Call.Of A [.ext, .signal]) (source : String) (x : NodeId)
    (kind outcome : String) : (recordSignal source x kind outcome).Uses A :=
  Act.uses_bind (uses_ext hA _ rfl) fun _ => uses_store hA rfl

theorem uses_rateWindowStart (hA : Call.Of A [.ext]) : (rateWindowStart g).Uses A :=
  Act.uses_bind (uses_ext hA _ rfl) fun _ => Act.uses_pure _

theorem uses_limitDesignations (hA : Call.Of A [.ext, .read, .signal]) (identity : String)
    (x : NodeId) : (limitDesignations g identity x).Uses A := by
  refine Act.uses_bind (uses_rateWindowStart g (hA.sub rfl)) fun _ =>
    Act.uses_bind (uses_store hA rfl) fun _ => ?_
  split
  · exact Act.uses_bind (uses_recordSignal (hA.sub rfl) _ _ _ _) fun _ => Act.uses_raise _
  · exact uses_recordSignal (hA.sub rfl) _ _ _ _

theorem uses_recordRawEvent (hA : Call.Of A [.ext, .detector]) (source : DetectorSource)
    (raw : RawEvent) : (recordRawEvent source raw).Uses A :=
  Act.uses_bind (uses_ext hA _ rfl) fun _ => Act.uses_bind (uses_stampNow (hA.sub rfl)) fun _ =>
    uses_store hA rfl

/-! ## 3. Admission -/

theorem uses_recordDecision (hA : Call.Of A [.ext, .audit]) (decisionId writer : String)
    (p : Payload) (status : List ParentStatus) (blocked : Bool) (reason : String) :
    (recordDecision g decisionId writer p status blocked reason).Uses A :=
  Act.uses_bind (uses_stampNow (hA.sub rfl)) fun _ => uses_store hA rfl

theorem uses_auditAdmission (hA : Call.Of A [.ext, .audit, .tainted]) (p : Payload)
    (status : List ParentStatus) (decisionId writer : String) (isNew : Bool) :
    (auditAdmission g p status decisionId writer isNew).Uses A := by
  unfold auditAdmission
  split
  · exact Act.uses_bind (uses_recordDecision g (hA.sub rfl) _ _ _ _ _ _) fun _ => uses_store hA rfl
  · exact Act.uses_pure _

theorem uses_offerReplacement (hA : Call.Of A [.read, .tainted]) (p : Payload) (root : NodeId) :
    (offerReplacement p root).Uses A := by
  refine Act.uses_bind (uses_store hA rfl) fun replacement => ?_
  cases replacement with
  | none => exact Act.uses_pure _
  | some r => exact Act.uses_bind (uses_store hA rfl) fun _ => Act.uses_pure _

theorem uses_submitChecks (hA : Call.Of A [.ext]) (bytes : ℕ) (body : SubmitBody) :
    (submitChecks g bytes body).Uses A :=
  Act.uses_bind (uses_check _) fun _ => Act.uses_bind (uses_verifyNhi g hA _ _) fun _ =>
    Act.uses_bind (Act.uses_raiseIf _ _) fun _ => Act.uses_bind (Act.uses_raiseIf _ _) fun _ =>
      Act.uses_bind (uses_ext hA _ rfl) fun _ => Act.uses_pure _

theorem uses_evaluateAdmission (hA : Call.Of A [.ext]) (p : Payload)
    (exists_ quarantined : NodeId → Bool) (auth : Claims) :
    (evaluateAdmission p exists_ quarantined auth).Uses A := by
  have hseq : ∀ i v, (evaluateSequentially p quarantined i v).Uses A := by
    intro i v
    refine Act.uses_bind (uses_ext hA _ rfl) fun a => ?_
    split
    · exact Act.uses_pure _
    · refine Act.uses_bind (uses_ext hA _ rfl) fun b => ?_
      split
      · exact Act.uses_pure _
      · exact Act.uses_pure _
  refine Act.uses_bind (uses_ext hA _ rfl) fun now => ?_
  refine Act.uses_bind (Act.uses_attempt (uses_ext hA _ rfl)) fun r => ?_
  split
  · split
    · exact Act.uses_pure _
    · split
      · exact Act.uses_pure _
      · exact Act.uses_pure _
  · exact hseq _ _
  · exact hseq _ _
  · exact Act.uses_raise _

theorem uses_prepareCompaction (hA : Call.Of A [.read]) (p : Payload) :
    (prepareCompaction p).Uses A := by
  unfold prepareCompaction
  split
  · refine Act.uses_bind (uses_store hA rfl) fun gap => ?_
    dsimp only
    split
    · exact Act.uses_pure _
    · refine Act.uses_bind (uses_store hA rfl) fun q => ?_
      split
      · exact Act.uses_pure _
      · exact Act.uses_raise _
  · exact Act.uses_pure _

theorem uses_rejectTainted
    (hA : Call.Of A [.ext, .read, .commit .rejection, .repair, .withdrawal, .ledger, .tainted])
    (p : Payload) (root : NodeId) : (rejectTainted g p root).Uses A :=
  Act.uses_bind (uses_store hA rfl) fun _ => Act.uses_bind (uses_store hA rfl) fun _ =>
    Act.uses_bind (uses_recurrenceHook g (hA.sub rfl) _ _) fun _ =>
      Act.uses_bind (uses_store hA rfl) fun _ => Act.uses_bind (uses_ext hA _ rfl) fun _ =>
        Act.uses_bind (uses_stampNow (hA.sub rfl)) fun _ => Act.uses_bind (uses_store hA rfl) fun _ =>
          Act.uses_bind (uses_stampNow (hA.sub rfl)) fun _ => Act.uses_bind (uses_store hA rfl) fun _ =>
            Act.uses_bind (uses_offerReplacement (hA.sub rfl) p root) fun _ => Act.uses_pure _

/-- The kinds of calls of the locked section of `/submit-candidate`. -/
abbrev submitKinds : List CallKind :=
  [.ext, .read, .commit .shadow, .commit .admission, .commit .rejection, .repair, .withdrawal,
    .ledger, .tainted, .audit]

theorem uses_enforce (hA : Call.Of A submitKinds) (p : Payload) (status : List ParentStatus)
    (hashes : NodeId → Option String) (decisionId writer : String) :
    ∀ d : Decision, (enforce g p status hashes decisionId writer d).Uses A
  | .admitted => by
    refine Act.uses_bind ?_ fun isNew =>
      Act.uses_bind (uses_auditAdmission g (hA.sub rfl) p status decisionId writer isNew) fun _ =>
        Act.uses_pure _
    unfold admitWrite
    split
    · exact Act.uses_raise _
    · exact uses_store hA rfl
  | .taintedParent root =>
    Act.uses_bind (uses_rejectTainted g (hA.sub rfl) p root) fun _ =>
      Act.uses_bind (uses_recordDecision g (hA.sub rfl) _ _ _ _ _ _) fun _ => Act.uses_pure _
  | .lineageInvalid =>
    Act.uses_bind (uses_recordDecision g (hA.sub rfl) _ _ _ _ _ _) fun _ => Act.uses_pure _
  | .verificationFailed =>
    Act.uses_bind (uses_recordDecision g (hA.sub rfl) _ _ _ _ _ _) fun _ => Act.uses_pure _

theorem uses_failClosed {x : Handler Decision} (hx : x.Uses A) : (failClosed x).Uses A := by
  refine Act.uses_bind (Act.uses_attempt hx) fun r => ?_
  split
  · exact Act.uses_pure _
  · exact Act.uses_raise _
  · exact Act.uses_raise _

theorem uses_submitLocked (hA : Call.Of A submitKinds) (p : Payload) (auth : Claims)
    (decisionId : String) : (submitLocked g p auth decisionId).Uses A := by
  refine Act.uses_bind (uses_store hA rfl) fun _ => Act.uses_bind (Act.uses_raiseIf _ _) fun _ =>
    Act.uses_bind (uses_store hA rfl) fun _ => Act.uses_bind (uses_store hA rfl) fun _ =>
      Act.uses_bind (uses_store hA rfl) fun _ =>
        Act.uses_bind (uses_prepareCompaction (hA.sub rfl) p) fun _ =>
          Act.uses_bind (uses_failClosed (uses_evaluateAdmission (hA.sub rfl) _ _ _ _)) fun d => ?_
  split
  · exact Act.uses_bind (uses_store hA rfl) fun _ => Act.uses_pure _
  · exact uses_enforce g hA _ _ _ _ _ d

theorem uses_compactionChecks (hA : Call.Of A [.ext, .read]) (e : ContextCompactedEvent) :
    (compactionChecks g e).Uses A := by
  refine Act.uses_bind (uses_store hA rfl) fun dag => Act.uses_bind (uses_check _) fun ps =>
    Act.uses_bind (uses_verifyNhi g (hA.sub rfl) _ _) fun _ =>
      Act.uses_bind (Act.uses_raiseIf _ _) fun _ => Act.uses_bind (uses_store hA rfl) fun q => ?_
  split
  · exact Act.uses_pure _
  · exact Act.uses_raise _

/-! ## 4. Containment and recovery -/

/-- The kinds of calls of a containment. -/
abbrev containKinds : List CallKind := [.ext, .read, .repair, .withdrawal, .ledger]

theorem uses_contain (hA : Call.Of A containKinds) (x : NodeId) (identity reason : String)
    (source : Option String) : (contain g x identity reason source).Uses A :=
  Act.uses_bind (uses_store hA rfl) fun _ => Act.uses_bind (uses_recurrenceHook g (hA.sub rfl) _ _) fun _ =>
    Act.uses_bind (uses_store hA rfl) fun _ => Act.uses_bind (uses_ext hA _ rfl) fun _ =>
      Act.uses_bind (uses_stampNow (hA.sub rfl)) fun _ => Act.uses_bind (uses_store hA rfl) fun _ =>
        Act.uses_pure _

theorem uses_gateEvidence (hA : Call.Of A [.ext]) : gateEvidence.Uses A :=
  Act.uses_bind (uses_stampNow hA) fun _ => Act.uses_bind (uses_stampNow hA) fun _ =>
    Act.uses_bind (uses_stampNow hA) fun _ => Act.uses_bind (uses_stampNow hA) fun _ =>
      Act.uses_pure _

/-- The kinds of calls of one round of reconstruction. -/
abbrev gateKinds : List CallKind :=
  [.ext, .adapter, .read, .getKey, .commit .reconstruction, .shared, .reintegration, .decision, .assign]

/-- The gate asks the adapter nothing. -/
theorem uses_gate (hA : Call.Of A
      [.ext, .read, .getKey, .commit .reconstruction, .shared, .reintegration, .decision])
    (x : NodeId) (rc : RepairCandidate) (c : Option Payload) : (gate g x rc c).Uses A := by
  cases c with
  | none => exact uses_store hA rfl
  | some c =>
    by_cases hsig : (!verifyCryptographicSignature g.env c) = true
    · simp only [gate, hsig, if_true]
      exact uses_store hA rfl
    · simp only [gate, hsig]
      refine Act.uses_bind (uses_getAdapterKey (hA.sub rfl)) fun key => ?_
      split
      · exact uses_store hA rfl
      · split
        · exact uses_store hA rfl
        · exact Act.uses_bind (uses_gateEvidence (hA.sub rfl)) fun _ =>
            Act.uses_bind (uses_store hA rfl) fun _ =>
              Act.uses_bind (uses_commitShared (hA.sub rfl) _) fun _ =>
                Act.uses_bind (uses_store hA rfl) fun _ => Act.uses_bind (uses_ext hA _ rfl) fun _ =>
                  Act.uses_bind (uses_store hA rfl) fun _ =>
                    Act.uses_bind (uses_stampNow (hA.sub rfl)) fun _ =>
                      Act.uses_bind (uses_store hA rfl) fun _ => uses_store hA rfl

/-- One round of the loop; `.setKey` only where there is no recovery adapter. -/
theorem uses_reconstructOne (hA : Call.Of A gateKinds)
    (hkey : g.settings.hasAdapter = false → Call.Of A [.setKey]) (root : NodeId)
    (cache : Option (List (NodeId × Payload) × List NodeId)) (row : NodeId × RepairCandidate) :
    (reconstructOne g root cache row).Uses A := by
  have hpending : ∀ cache, (reconstructPending g root row.1 row.2 cache).Uses A := by
    intro cache
    unfold reconstructPending
    split
    · exact Act.uses_raise _
    · refine Act.uses_bind ?_ fun c => uses_gate g (hA.sub rfl) _ _ c
      unfold reconstructionCandidate
      cases hadapter : g.settings.hasAdapter with
      | true => exact uses_ext hA _ rfl
      | false =>
        refine Act.uses_bind ?_ fun _ => Act.uses_pure _
        exact Act.uses_bind (uses_ext hA _ rfl) fun key => Act.uses_bind (uses_ext hA _ rfl) fun _ =>
          Act.uses_bind (uses_ext hA _ rfl) fun _ =>
            Act.uses_bind (uses_setAdapterKey (hkey hadapter) key) fun _ => Act.uses_pure _
  have hfailure : ∀ e, (assignFailure row.1 row.2 e).Uses A := fun _ => uses_store hA rfl
  unfold reconstructOne
  split
  · exact Act.uses_pure _
  · refine Act.uses_bind ?_ fun read => ?_
    · cases cache with
      | some c => exact Act.uses_pure _
      | none =>
        exact Act.uses_attempt (Act.uses_bind (uses_store hA rfl) fun _ =>
          Act.uses_bind (uses_store hA rfl) fun _ => Act.uses_pure _)
    · cases read with
      | error e => exact Act.uses_bind (hfailure e) fun _ => Act.uses_pure _
      | ok c =>
        refine Act.uses_bind (Act.uses_attempt (hpending _)) fun r => ?_
        cases r with
        | error e => exact Act.uses_bind (hfailure e) fun _ => Act.uses_pure _
        | ok u => exact Act.uses_pure _

/-- The kinds of calls of reconstruction. -/
abbrev reconstructionKinds : List CallKind := .setKey :: gateKinds

theorem uses_attemptReconstruction (hA : Call.Of A gateKinds)
    (hkey : g.settings.hasAdapter = false → Call.Of A [.setKey]) (root : NodeId) :
    (attemptReconstruction g root).Uses A := by
  refine Act.uses_bind (uses_store hA rfl) fun rcs => Act.uses_bind ?_ fun _ => Act.uses_pure _
  exact Act.uses_fold (fun cache row => uses_reconstructOne g hA hkey root cache row) rcs none

/-- The kinds of calls of continuity. -/
abbrev continuityKinds : List CallKind :=
  [.ext, .read, .setKey, .commit .checkpointReplay, .commit .substitution, .shared, .exposure]

theorem uses_expose {site : CommitSite} (hA : Call.Of A [.ext, .setKey, .shared, .exposure])
    (hsite : Call.Of A [.commit site, .shared]) (p : Payload) (key status : String)
    (record : ExposureRecord) : (expose site p key status record).Uses A :=
  Act.uses_bind (uses_setAdapterKey (hA.sub rfl) key) fun _ =>
    Act.uses_bind (uses_commitShared hsite _) fun _ =>
      Act.uses_bind (uses_ext hA _ rfl) fun _ => Act.uses_bind (uses_stampNow (hA.sub rfl)) fun _ =>
        Act.uses_bind (uses_store hA rfl) fun _ => Act.uses_pure _

theorem uses_attemptSafeContinuity (hA : Call.Of A continuityKinds) (ids : List NodeId)
    (event : QuarantineEvent) : (attemptSafeContinuity g ids event).Uses A := by
  unfold attemptSafeContinuity
  split
  · exact Act.uses_pure _
  · refine Act.uses_bind (uses_store hA rfl) fun deps => ?_
    split
    · exact Act.uses_pure _
    · refine Act.uses_bind (uses_store hA rfl) fun _ => Act.uses_bind (uses_store hA rfl) fun _ =>
        Act.uses_bind (uses_store hA rfl) fun _ => Act.uses_bind (uses_store hA rfl) fun _ => ?_
      refine Act.uses_fold (fun results dep => ?_) deps _
      unfold serveCritical
      split
      · refine Act.uses_bind ?_ fun _ => Act.uses_pure _
        exact Act.uses_bind (uses_ext hA _ rfl) fun _ => Act.uses_bind (uses_ext hA _ rfl) fun _ =>
          Act.uses_bind (uses_ext hA _ rfl) fun _ => Act.uses_bind (uses_stampNow (hA.sub rfl)) fun _ =>
            Act.uses_bind (uses_expose (hA.sub rfl) (hA.sub rfl) _ _ _ _) fun _ => Act.uses_pure _
      · refine Act.uses_bind (uses_ext hA _ rfl) fun order =>
          Act.uses_bind (Act.uses_resume _) fun found => ?_
        split
        · refine Act.uses_bind ?_ fun _ => Act.uses_pure _
          exact Act.uses_bind (uses_ext hA _ rfl) fun _ => Act.uses_bind (uses_ext hA _ rfl) fun _ =>
            Act.uses_bind (uses_ext hA _ rfl) fun _ => Act.uses_bind (uses_stampNow (hA.sub rfl)) fun _ =>
              Act.uses_bind (uses_expose (hA.sub rfl) (hA.sub rfl) _ _ _ _) fun _ => Act.uses_pure _
        · exact Act.uses_pure _

/-- The kinds of calls of a containment and of what follows it. -/
abbrev recoverKinds : List CallKind := containKinds ++ continuityKinds ++ reconstructionKinds

theorem uses_designateLocked (hA : Call.Of A recoverKinds) (e : DesignationEvent)
    (identity : String) : (designateLocked g e identity).Uses A := by
  refine Act.uses_bind (uses_store hA rfl) fun _ => Act.uses_bind (uses_store hA rfl) fun _ => ?_
  split
  · exact Act.uses_pure _
  · split
    · exact Act.uses_pure _
    · exact Act.uses_bind (uses_contain g (hA.sub rfl) _ _ _ _) fun _ =>
        Act.uses_bind (uses_attemptSafeContinuity g (hA.sub rfl) _ _) fun _ =>
          Act.uses_bind (uses_attemptReconstruction g (hA.sub rfl) (fun _ => hA.sub rfl) _) fun _ =>
            Act.uses_pure _

theorem uses_detectorLocked (hA : Call.Of A containKinds) (e : DesignationEvent)
    (identity : String) (source : DetectorSource) :
    (detectorLocked g e identity source).Uses A := by
  refine Act.uses_bind (uses_store hA rfl) fun _ => Act.uses_bind (uses_store hA rfl) fun _ => ?_
  split
  · exact Act.uses_raise _
  · split
    · exact Act.uses_pure _
    · exact Act.uses_bind (uses_contain g hA _ _ _ _) fun _ => Act.uses_pure _

theorem uses_ingestDetectorEvent
    (hA : Call.Of A (.signal :: .detector :: .exclusive :: recoverKinds))
    (header : Option String) (source : String) (raw : RawEvent) :
    (ingestDetectorEvent g header source raw).Uses A := by
  refine Act.uses_bind (uses_verifyRole g (hA.sub rfl) _ _) fun _ => ?_
  split
  · exact Act.uses_raise _
  · refine Act.uses_bind (uses_recordRawEvent (hA.sub rfl) _ _) fun _ =>
      Act.uses_bind (Act.uses_raiseIf _ _) fun _ => ?_
    split
    · exact Act.uses_pure _
    · refine Act.uses_bind (uses_verifyRole g (hA.sub rfl) _ _) fun claims =>
        Act.uses_bind (uses_limitDesignations g (hA.sub rfl) _ _) fun _ => Act.uses_bind
          (uses_withExclusive (hA.sub rfl) (uses_detectorLocked g (hA.sub rfl) _ _ _)) fun out => ?_
      split
      · exact Act.uses_pure _
      · exact Act.uses_bind (uses_attemptSafeContinuity g (hA.sub rfl) _ _) fun _ =>
          Act.uses_bind (uses_attemptReconstruction g (hA.sub rfl) (fun _ => hA.sub rfl) _) fun _ =>
            Act.uses_pure _

/-! ## 5. The other endpoints -/

theorem uses_limitObservations (hA : Call.Of A [.ext, .read, .signal]) (source : String)
    (x : NodeId) : (limitObservations g source x).Uses A := by
  refine Act.uses_bind (uses_rateWindowStart g (hA.sub rfl)) fun since =>
    Act.uses_bind (uses_store hA rfl) fun count => ?_
  split
  · exact Act.uses_bind (uses_recordSignal (hA.sub rfl) _ _ _ _) fun _ => Act.uses_raise _
  · refine Act.uses_bind (uses_store hA rfl) fun total => ?_
    split
    · exact Act.uses_bind (uses_recordSignal (hA.sub rfl) _ _ _ _) fun _ => Act.uses_raise _
    · exact uses_recordSignal (hA.sub rfl) _ _ _ _

theorem uses_checkContradiction (hA : Call.Of A [.getKey]) (e : ObserveEvent) :
    (checkContradiction g e).Uses A :=
  Act.uses_bind (Act.uses_raiseIf _ _) fun _ => Act.uses_bind (uses_getAdapterKey hA) fun _ =>
    Act.uses_bind (Act.uses_raiseIf _ _) fun _ => Act.uses_raiseIf _ _

theorem uses_observeRecurrence
    (hA : Call.Of A [.ext, .read, .signal, .getKey, .repair, .withdrawal]) (header : Option String)
    (e : ObserveEvent) : (observeRecurrence g header e).Uses A := by
  refine Act.uses_bind (uses_verifyRole g (hA.sub rfl) _ _) fun claims =>
    Act.uses_bind (Act.uses_raiseIf _ _) fun _ =>
      Act.uses_bind (uses_limitObservations g (hA.sub rfl) _ _) fun _ => ?_
  have hrest : Act.Uses A (do
      processRecurrence g e.nodeId e.recurrenceClass (claims.sub.getD "unknown") e.evidence
      pure ({ reply := .success "" } : Response)) :=
    Act.uses_bind (uses_processRecurrence g (hA.sub rfl) _ _ _ _) fun _ => Act.uses_pure _
  dsimp only
  split
  · exact Act.uses_bind (uses_checkContradiction g (hA.sub rfl) e) fun _ => hrest
  · exact hrest

theorem uses_declareSubstitute (hA : Call.Of A [.ext, .read, .substitute])
    (header target source : Option String) (declaredAt : Json) :
    (declareSubstitute g header target source declaredAt).Uses A :=
  Act.uses_bind (uses_verifyRole g (hA.sub rfl) _ _) fun _ => Act.uses_bind (Act.uses_raiseIf _ _) fun _ =>
    Act.uses_bind (uses_store hA rfl) fun _ => Act.uses_bind (Act.uses_raiseIf _ _) fun _ =>
      Act.uses_bind (uses_store hA rfl) fun _ => Act.uses_bind (Act.uses_raiseIf _ _) fun _ =>
        Act.uses_bind (uses_store hA rfl) fun _ => Act.uses_pure _

theorem uses_continuityExpose (hA : Call.Of A [.ext, .read, .exposure])
    (header node status reason : Option String) :
    (continuityExpose g header node status reason).Uses A :=
  Act.uses_bind (uses_verifyRole g (hA.sub rfl) _ _) fun _ => Act.uses_bind (Act.uses_raiseIf _ _) fun _ =>
    Act.uses_bind (Act.uses_raiseIf _ _) fun _ => Act.uses_bind (uses_store hA rfl) fun _ =>
      Act.uses_bind (Act.uses_raiseIf _ _) fun _ => Act.uses_bind (uses_ext hA _ rfl) fun _ =>
        Act.uses_bind (uses_stampNow (hA.sub rfl)) fun _ => Act.uses_bind (uses_store hA rfl) fun _ =>
          Act.uses_pure _

theorem uses_renewTrust (hA : Call.Of A [.ext, .read, .trust]) (header : Option String)
    (x : NodeId) : (renewTrust g header x).Uses A :=
  Act.uses_bind (uses_verifyRole g (hA.sub rfl) _ _) fun _ => Act.uses_bind (uses_store hA rfl) fun _ =>
    Act.uses_bind (Act.uses_raiseIf _ _) fun _ => Act.uses_bind (uses_store hA rfl) fun _ =>
      Act.uses_bind (uses_store hA rfl) fun _ => Act.uses_bind (Act.uses_raiseIf _ _) fun _ =>
        Act.uses_bind (uses_ext hA _ rfl) fun _ => Act.uses_bind (uses_store hA rfl) fun _ =>
          Act.uses_pure _

theorem uses_seedRoot (hA : Call.Of A [.ext, .read, .commit .seedRoot])
    (header rootId : Option String) : (seedRoot g header rootId).Uses A :=
  Act.uses_bind (uses_verifyRole g (hA.sub rfl) _ _) fun _ => Act.uses_bind (Act.uses_raiseIf _ _) fun _ =>
    Act.uses_bind (uses_store hA rfl) fun _ => Act.uses_bind (Act.uses_raiseIf _ _) fun _ =>
      Act.uses_bind (uses_ext hA _ rfl) fun _ => Act.uses_bind (uses_ext hA _ rfl) fun _ =>
        Act.uses_bind (uses_ext hA _ rfl) fun _ => Act.uses_bind (uses_ext hA _ rfl) fun _ =>
          Act.uses_bind (uses_store hA rfl) fun _ => Act.uses_pure _

/-! ## 6. Requests -/

/-- The kinds of calls a request can make. -/
def Request.kinds : Request → List CallKind
  | .submitCandidate _ _ => .shared :: .tx :: submitKinds
  | .contextCompacted _ => [.ext, .read, .commit .compaction, .shared]
  | .designate _ _ => .signal :: .exclusive :: .tx :: recoverKinds
  | .detector _ _ _ => .signal :: .detector :: .exclusive :: recoverKinds
  | .observe _ _ => [.ext, .read, .signal, .getKey, .repair, .withdrawal]
  | .checkpoint _ _ => [.ext, .checkpoint]
  | .declareSubstitute _ _ _ _ => [.ext, .read, .substitute]
  | .declareExternalEffect _ _ _ _ => [.ext, .effect]
  | .seedRoot _ _ => [.ext, .read, .commit .seedRoot]
  | .continuityExpose _ _ _ _ => [.ext, .read, .exposure]
  | .renewTrust _ _ => [.ext, .read, .trust]
  | .calibrate _ _ => [.ext, .calibration]

/-- **Which calls a request can make.** -/
theorem uses_handle (req : Request) (hA : Call.Of A req.kinds) : (req.handle g).Uses A := by
  cases req with
  | submitCandidate bytes body =>
    exact Act.uses_bind (uses_submitChecks g (hA.sub rfl) bytes body) fun _ =>
      uses_withShared (hA.sub rfl) (uses_withTransaction (hA.sub rfl)
        (uses_submitLocked g (hA.sub rfl) _ _ _))
  | contextCompacted e =>
    exact Act.uses_bind (uses_compactionChecks g (hA.sub rfl) e) fun _ =>
      Act.uses_bind (uses_commitShared (hA.sub rfl) _) fun _ => Act.uses_pure _
  | designate header e =>
    exact Act.uses_bind (uses_verifyRole g (hA.sub rfl) _ _) fun _ =>
      Act.uses_bind (uses_limitDesignations g (hA.sub rfl) _ _) fun _ =>
        uses_withExclusive (hA.sub rfl) (uses_withTransaction (hA.sub rfl)
          (uses_designateLocked g (hA.sub rfl) _ _))
  | detector header source raw => exact uses_ingestDetectorEvent g hA header source raw
  | observe header e => exact uses_observeRecurrence g hA header e
  | checkpoint header c =>
    exact Act.uses_bind (uses_verifyRole g (hA.sub rfl) _ _) fun _ =>
      Act.uses_bind (uses_store hA rfl) fun _ => Act.uses_pure _
  | declareSubstitute header target source declaredAt =>
    exact uses_declareSubstitute g hA header target source declaredAt
  | declareExternalEffect header key x type =>
    exact Act.uses_bind (uses_verifyRole g (hA.sub rfl) _ _) fun _ =>
      Act.uses_bind (uses_ext hA _ rfl) fun _ => Act.uses_bind (uses_store hA rfl) fun _ => Act.uses_pure _
  | seedRoot header rootId => exact uses_seedRoot g hA header rootId
  | continuityExpose header node status reason =>
    exact uses_continuityExpose g hA header node status reason
  | renewTrust header x => exact uses_renewTrust g hA header x
  | calibrate header r =>
    exact Act.uses_bind (uses_verifyRole g (hA.sub rfl) _ _) fun _ =>
      Act.uses_bind (Act.uses_raiseIf _ _) fun _ => Act.uses_bind (uses_store hA rfl) fun _ =>
        Act.uses_pure _

end Uses

end GovernorGateway
