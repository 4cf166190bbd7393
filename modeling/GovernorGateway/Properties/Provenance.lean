/-
# Where the records come from

`Request.Credentials` is what a request has to present before its handler goes on: a bearer token
with the role of the endpoint, or a payload whose session token and signature are those of its
identity.  A token is good or not at a MOMENT, so that what counts is what the clock can answer.

* Section 2: a handler without credentials only asks the outside world, EXCEPT `/context-compacted`,
  which reads the graph before it looks at any.  `unauthenticated_invisible` is the consequence for
  a whole interleaving: take those requests away, and the others run as they did.
* Section 3 follows each write of the lineage and of the quarantine events back to the credentials
  of the request that makes it (`Request.May`).
* Section 4 is `records_authorised`: in every state of every interleaving each record is one of the
  first database or was written under such credentials.
-/
import GovernorGateway.Concurrency.Scheduled
import GovernorGateway.Effects.Heard
import GovernorGateway.Effects.Serial
import GovernorGateway.Semantics.Requests

namespace GovernorGateway

open Effects

variable (g : Setup) (answers : Answers)

/-! ## 1. Credentials -/

/-- At a moment the clock can answer, the payload's token speaks for its identity, and its signature
is valid. -/
def Payload.Authentic (p : Payload) : Prop :=
  (∃ t auth, answers (.now .token) (.ok t) ∧
    verifyNhiJwt g.env t p.sessionToken p.identityId = .ok auth) ∧
  verifyCryptographicSignature g.env p = true

/-- At a moment the clock can answer, the bearer token has the role, and these claims. -/
def Grants (header : Option String) (role : String) (claims : Claims) : Prop :=
  ∃ t, answers (.now .token) (.ok t) ∧ verifyRoleJwt g.env t header role = .ok claims

/-- The authorization header of a request and the role its endpoint asks for; the two endpoints of
the agents have none. -/
def Request.bearer : Request → Option (Option String × String)
  | .submitCandidate _ _ | .contextCompacted _ => none
  | .designate header _ | .detector header _ _ | .observe header _
  | .continuityExpose header _ _ _ | .renewTrust header _ => some (header, "designator")
  | .checkpoint header _ | .declareSubstitute header _ _ _ | .declareExternalEffect header _ _ _
  | .seedRoot header _ | .calibrate header _ => some (header, "admin")

/-- What a request has to present. -/
def Request.Credentials : Request → Prop
  | .submitCandidate bytes body =>
    ∃ p, parseSubmission g bytes body = .ok p ∧ p.Authentic g answers
  -- neither check looks at the parents, which are read from the store
  | .contextCompacted e => (compactionPayload g e []).Authentic g answers
  | req => ∃ header role claims, req.bearer = some (header, role) ∧ Grants g answers header role claims

/-! ## 2. Without credentials -/

/-- A handler hears from the outside world what that can answer, and an adapter key that has `K`; of
the rest it knows nothing. -/
def Heard (K : Option String → Prop) : Hearing Call Call.Res Exc
  | .ext e, r => answers e r
  | .getAdapterKey, r => ∀ key, r = .ok key → K key
  | _, _ => True

section Checks

variable {g answers} {β : Type} {A : Call → Prop} {K : Option String → Prop}

theorem ends_ext (e : Ext) : (ext e).Ends (Heard answers K) fun a => answers e (.ok a) :=
  Act.ends_perform (Call.ext e)

theorem ends_getAdapterKey : getAdapterKey.Ends (Heard answers K) K :=
  Prog.Ends.mono (Act.ends_perform Call.getAdapterKey) fun _ hr a ha => hr a ha a rfl

/-- After `verify_role_jwt` the role is granted. -/
theorem ends_verifyRole (header : Option String) (role : String) :
    (verifyRole g header role).Ends (Heard answers K) (Grants g answers header role) := by
  refine Act.ends_bind (ends_ext (.now .token)) fun t ht => ?_
  exact Act.ends_resume fun claims hclaims => ⟨t, ht, hclaims⟩

/-- After `verify_nhi_jwt` the token speaks for the identity. -/
theorem ends_verifyNhi (token identity : Option String) :
    (verifyNhi g token identity).Ends (Heard answers K) fun _ =>
      ∃ t auth, answers (.now .token) (.ok t) ∧ verifyNhiJwt g.env t token identity = .ok auth := by
  refine Act.ends_bind (ends_ext (.now .token)) fun t ht => ?_
  exact Act.ends_resume fun auth hauth => ⟨t, auth, ht, hauth⟩

/-- A submission that passes the checks in front of the lock is authentic, and not too large. -/
theorem ends_submitChecks (bytes : ℕ) (body : SubmitBody) :
    (submitChecks g bytes body).Ends (Heard answers K) fun out =>
      parseSubmission g bytes body = .ok out.1 ∧ out.1.Authentic g answers ∧
        out.1.parentIds.length ≤ 256 := by
  refine Act.ends_bind (Φ := fun p => parseSubmission g bytes body = .ok p)
    (Act.ends_resume fun p hp => hp) fun p hp => ?_
  refine Act.ends_bind (ends_verifyNhi _ _) fun auth htoken => ?_
  refine Act.ends_bind (Act.ends_raiseIf _ _) fun _ hsig => ?_
  refine Act.ends_bind (Act.ends_raiseIf _ _) fun _ hlength => ?_
  refine Act.ends_bind (Act.ends_true _) fun _ _ => Act.ends_pure ⟨hp, ⟨htoken, ?_⟩, ?_⟩
  · simpa using hsig
  · simpa using hlength

/-- So is a compaction. -/
theorem ends_compactionChecks (e : ContextCompactedEvent) :
    (compactionChecks g e).Ends (Heard answers K) fun p =>
      (∃ ps, p = compactionPayload g e ps) ∧ (compactionPayload g e []).Authentic g answers := by
  refine Act.ends_bind (Act.ends_true _) fun dag _ => ?_
  refine Act.ends_bind (Act.ends_true _) fun ps _ => ?_
  refine Act.ends_bind (ends_verifyNhi _ _) fun _ htoken => ?_
  refine Act.ends_bind (Act.ends_raiseIf _ _) fun _ hsig => ?_
  refine Act.ends_bind (Act.ends_true _) fun quarantined _ => ?_
  split
  · have hps : verifyCryptographicSignature g.env (compactionPayload g e ps) = true := by
      simpa using hsig
    exact Act.ends_pure ⟨⟨ps, rfl⟩, htoken, hps⟩
  · exact Act.ends_raise _

end Checks

/-- A call that asks the outside world. -/
def Call.Asks (c : Call) : Prop := ∃ e, c = .ext e

section Barred

variable {g answers} {K : Option String → Prop}

/-- A request for a role it is not granted fails at the check. -/
theorem fails_verifyRole {header : Option String} {role : String}
    (h : ¬ ∃ claims, Grants g answers header role claims) :
    (verifyRole g header role).Fails (Heard answers K) :=
  Prog.Ends.mono (ends_verifyRole header role) fun _ hr a ha => h ⟨a, hr a ha⟩

theorem fails_submitChecks {bytes : ℕ} {body : SubmitBody}
    (h : ¬ (Request.submitCandidate bytes body).Credentials g answers) :
    (submitChecks g bytes body).Fails (Heard answers K) :=
  Prog.Ends.mono (ends_submitChecks bytes body) fun _ hr a ha =>
    h ⟨a.1, (hr a ha).1, (hr a ha).2.1⟩

/-- **A handler without credentials raises.** -/
theorem fails_handle (req : Request) (h : ¬ req.Credentials g answers) :
    (req.handle g).Fails (Heard answers K) := by
  cases req with
  | submitCandidate bytes body => exact Act.fails_bind _ (fails_submitChecks h)
  | contextCompacted e =>
    exact Act.fails_bind _ (Prog.Ends.mono (ends_compactionChecks e) fun _ hr a ha => h (hr a ha).2)
  | _ =>
    refine Act.fails_bind _ (fails_verifyRole fun hc => h ?_)
    obtain ⟨claims, hclaims⟩ := hc
    exact ⟨_, _, claims, rfl, hclaims⟩

variable (g answers) in
/-- The request presents no credentials, and its handler looks at these first.  `/context-compacted`
does not: it reads the graph before. -/
def Request.Barred (req : Request) : Prop :=
  ¬ req.Credentials g answers ∧ ∀ e, req ≠ .contextCompacted e

/-- **A barred handler only asks**: it is stopped before its first call of the database, of the lock
or of the adapter key. -/
theorem asks_handle {req : Request} (h : req.Barred g answers) :
    (req.handle g).Within (Heard answers K) Call.Asks := by
  obtain ⟨hcredentials, hcompaction⟩ := h
  cases req with
  | submitCandidate bytes body =>
    exact Act.within_bind_of_fails (uses_submitChecks g Call.of_ext bytes body).within
      (fails_submitChecks hcredentials)
  | contextCompacted e => exact absurd rfl (hcompaction e)
  | _ =>
    refine Act.within_bind_of_fails (uses_verifyRole g Call.of_ext _ _).within
      (fails_verifyRole fun hc => hcredentials ?_)
    obtain ⟨claims, hclaims⟩ := hc
    exact ⟨_, _, claims, rfl, hclaims⟩

variable {ι : Type} [DecidableEq ι]

/-- What a task hears in a pool is what the outside world can answer, and the adapter key of the
state. -/
theorem heard_taskStep {i : ι} {c : Call} {s s' : Gateway ι} {r : Except Exc c.Res}
    (hK : K s.adapterKey) (h : TaskStep g answers i c s r s') : Heard answers K c r := by
  cases c with
  | ext e => exact h.1
  | getAdapterKey =>
    intro key hkey
    obtain rfl := Except.ok.inj (h.1.symm.trans hkey)
    exact hK
  | _ => trivial

end Barred

/-- **Requests without credentials are invisible**, but for `/context-compacted`.  Whatever runs
together, take them away: the others run as they did, are answered as they were, and reach the same
shared state.  Such a request never calls the database, the lock or the adapter key.  And all that
any request without credentials is ever answered is an error. -/
theorem unauthenticated_invisible {ι : Type} [DecidableEq ι] (req : ι → Request) (s : Gateway ι)
    {p : Pool ι Call Call.Res Exc (Gateway ι) (Except Exc Response)}
    (hrun : Relation.ReflTransGen (Pool.Step (TaskStep g answers)) (s.serve g req) p) :
    (∃ q, Relation.ReflTransGen (Pool.Step (TaskStep g answers)) (s.serve g req) q ∧
      q.state = p.state ∧
      (∀ i, (req i).Barred g answers → q.prog i = ((req i).handle g).tree) ∧
      ∀ i, ¬ (req i).Barred g answers → q.prog i = p.prog i) ∧
    (∀ i, (req i).Barred g answers → ∀ c k, p.prog i = .call c k → ∃ e, c = .ext e) ∧
    ∀ i r, ¬ (req i).Credentials g answers → p.Finished i r → ∃ e, r = .error e := by
  have hH : ∀ (i : ι) (c : Call) (s : Gateway ι) (r : Except Exc c.Res) (s' : Gateway ι),
      TaskStep g answers i c s r s' → Heard answers (fun _ => True) c r :=
    fun _ _ _ _ _ h => heard_taskStep trivial h
  refine ⟨?_, fun i hi c k hprog => ?_, fun i r hi hfin => ?_⟩
  · refine Pool.without (A := Call.Asks) (S := fun i => (req i).Barred g answers) hH ?_ hrun
      fun i hi => asks_handle hi
    rintro i _ s r s' _ ⟨e, rfl⟩ h
    exact h.2
  · have hwithin := Pool.within_invariant (A := fun i c => (req i).Barred g answers → c.Asks)
      (I := fun _ => True) (fun i c s r s' _ => hH i c s r s') (fun _ _ _ _ _ _ _ _ => trivial) hrun
      (fun j => ?_) trivial
    · have hcall := hwithin.2 i
      rw [hprog] at hcall
      exact hcall.1 hi
    · by_cases hj : (req j).Barred g answers
      · exact (asks_handle hj).mono fun _ hc _ => hc
      · exact Prog.within_of_all (fun _ h => absurd h hj) _
  · have hends := Pool.ends_invariant
      (Φ := fun i r => ¬ (req i).Credentials g answers → ∀ a, r = .ok a → False) hH hrun
      (fun j => ?_) i
    · rw [hfin] at hends
      cases r with
      | error e => exact ⟨e, rfl⟩
      | ok a => exact (hends hi a rfl).elim
    · by_cases hj : (req j).Credentials g answers
      · exact Prog.Ends.mono (Prog.ends_true _) fun r _ h => absurd hj h
      · exact Prog.Ends.mono (fails_handle (req j) hj) fun r hr _ => hr

/-! ## 3. The credentials behind a write -/

variable (K : Option String → Prop)

/-- The adapter key of a run is the one at its start, or one the gateway has made. -/
def KeyOf (key₀ key : Option String) : Prop :=
  key = key₀ ∨ ∃ k, answers .generateKey (.ok k) ∧ key = some k

/-- The authorization header of a request that contains and recovers. -/
def Request.designator : Request → Option (Option String)
  | .designate header _ | .detector header _ _ => some header
  | _ => none

/-- What the handlers of this request may commit, and from where.  What a recovery stores is asked
for by a designator and is the work of the gateway, or signed under an adapter key, one that has
`K`. -/
inductive MayCommit : Request → CommitSite → Payload → Prop
  | submission {bytes : ℕ} {body : SubmitBody} {p : Payload} (gap : Option (List NodeId))
      {site : CommitSite} : parseSubmission g bytes body = .ok p → p.Authentic g answers →
      p.parentIds.length ≤ 256 → site = .shadow ∨ site = .admission ∨ site = .rejection →
      MayCommit (.submitCandidate bytes body) site { p with coversIntervalGap := gap }
  | compaction {e : ContextCompactedEvent} (ps : List ParentCommitment) :
      (compactionPayload g e []).Authentic g answers →
      MayCommit (.contextCompacted e) .compaction (compactionPayload g e ps)
  | reconstruction {req : Request} {header : Option String} {claims : Claims} {p : Payload} :
      req.designator = some header → Grants g answers header "designator" claims →
      verifyCryptographicSignature g.env p = true → K p.identityId →
      p.identityId.getD "" ≠ "" → MayCommit req .reconstruction p
  | continuity {req : Request} {header : Option String} {claims : Claims} {site : CommitSite}
      (id key signature token containment timestamp : String) (content : List (String × Json))
      (parents : List ParentCommitment) (weight : ℚ) :
      req.designator = some header → Grants g answers header "designator" claims →
      g.settings.continuityEnabled = true → site = .checkpointReplay ∨ site = .substitution →
      MayCommit req site
        (continuityPayload g id key signature token containment timestamp content parents weight)
  | seed {header rootId : Option String} {claims : Claims} {p : Payload} :
      Grants g answers header "admin" claims → p.payloadId = rootId.getD "" → p.parents = [] →
      p.covers = [] → p.contentDigest = some (contentHash g.env p.stateContent) →
      MayCommit (.seedRoot header rootId) .seedRoot p

/-- The quarantine events the handlers of this request may store, with the ids that enter the
ledger. -/
inductive MayQuarantine : Request → QuarantineEvent → List NodeId → Prop
  | rejected {bytes : ℕ} {body : SubmitBody} {p : Payload} {event : QuarantineEvent} :
      parseSubmission g bytes body = .ok p → p.Authentic g answers →
      event.designatorIdentity = none →
      MayQuarantine (.submitCandidate bytes body) event [p.payloadId]
  | designated {header : Option String} {e : DesignationEvent} {claims : Claims}
      {event : QuarantineEvent} : Grants g answers header "designator" claims →
      event.poisonedRootId = e.poisonedNodeId → event.designationReason = some e.reason →
      event.designatorIdentity = some (claims.sub.getD "unknown") → event.detectorSource = none →
      MayQuarantine (.designate header e) event event.computedBlastRadius
  | detected {header : Option String} {source : String} {raw : RawEvent} {d : DetectorSource}
      {e : DesignationEvent} {claims : Claims} {event : QuarantineEvent} :
      Grants g answers header "designator" claims → detectorRegistry source = some d →
      toDesignation g.env d raw = .ok e → event.poisonedRootId = e.poisonedNodeId →
      event.designationReason = some e.reason →
      event.designatorIdentity = some (claims.sub.getD ("detector:" ++ d.name)) →
      event.detectorSource = some d.name →
      MayQuarantine (.detector header source raw) event event.computedBlastRadius

/-- The calls a request may make. -/
def Request.May (req : Request) : Call → Prop
  | .store (.commitNode site p) => MayCommit g answers K req site p
  | .store (.applyQuarantineTransaction event ids) => MayQuarantine g answers req event ids
  | .setAdapterKey key => K (some key)
  | _ => True

section Within

variable {g answers K} {α β : Type} {A : Call → Prop}

theorem within_withShared {x : Handler α} (hA : Call.Of A [.shared])
    (hx : x.Within (Heard answers K) A) : (withShared x).Within (Heard answers K) A :=
  Act.within_bind (uses_sync hA rfl).within fun _ => Act.within_always hx (uses_sync hA rfl).within

theorem within_withExclusive {x : Handler α} (hA : Call.Of A [.exclusive])
    (hx : x.Within (Heard answers K) A) : (withExclusive x).Within (Heard answers K) A :=
  Act.within_bind (uses_sync hA rfl).within fun _ => Act.within_bind (uses_sync hA rfl).within fun _ =>
    Act.within_always hx (uses_sync hA rfl).within

theorem within_withTransaction {x : Handler α} (hA : Call.Of A [.tx])
    (hx : x.Within (Heard answers K) A) : (withTransaction x).Within (Heard answers K) A := by
  have hbody : (x >>= fun a => sync .commit >>= fun _ => pure a).Within (Heard answers K) A :=
    Act.within_bind hx fun _ => Act.within_bind (uses_sync hA rfl).within fun _ => Act.within_pure _
  refine Act.within_bind (uses_sync hA rfl).within fun _ =>
    Act.within_bind (Act.within_attempt hbody) fun r => ?_
  cases r with
  | ok a => exact Act.within_pure _
  | error e => exact Act.within_bind (uses_sync hA rfl).within fun _ => Act.within_raise _

/-- A call of the store in front of the rest. -/
theorem within_store {c : Store} (hc : A (.store c)) :
    (store c).Within (Heard answers K) A := Act.Uses.within ((Act.uses_perform (Call.store c)).mpr hc)

theorem within_commitShared {site : CommitSite} {p : Payload} (hA : Call.Of A [.shared])
    (hp : A (.store (.commitNode site p))) : (commitShared site p).Within (Heard answers K) A :=
  within_withShared hA (Act.within_bind (within_store hp) fun _ => Act.within_pure _)

end Within

/-- The kinds of calls that commit nothing, quarantine nothing and leave the adapter key. -/
abbrev plainKinds : List CallKind :=
  [.read, .repair, .decision, .reopen, .assign, .withdrawal, .tainted, .audit, .reintegration,
    .trust, .exposure, .signal, .detector, .checkpoint, .substitute, .effect, .calibration, .ext,
    .adapter, .getKey, .shared, .exclusive, .tx]

section May

variable {g answers K} {req : Request}

theorem of_may (req : Request) : Call.Of (req.May g answers K) plainKinds := by
  intro c hc
  cases c with
  | store c =>
    cases c with
    | commitNode site p => exact absurd hc (by simp [Call.kind, Store.kind])
    | applyQuarantineTransaction event ids => exact absurd hc (by simp [Call.kind, Store.kind])
    | _ => trivial
  | setAdapterKey key => exact absurd hc (by simp [Call.kind])
  | _ => trivial

/-- A key that has `K` may become the adapter key. -/
theorem within_setAdapterKey {key : String} (hkey : K (some key)) :
    (setAdapterKey key).Within (Heard answers K) (req.May g answers K) :=
  Act.Uses.within ((Act.uses_perform (R := Call.Res) (Call.setAdapterKey key)).mpr hkey)

/-- A part that makes no other calls. -/
theorem within_plain {α : Type} {x : Handler α}
    (h : x.Uses fun c => c.kind ∈ plainKinds) : x.Within (Heard answers K) (req.May g answers K) :=
  (Prog.Uses.mono h (of_may req)).within

theorem of_plain : Call.Of (fun c => c.kind ∈ plainKinds) plainKinds := fun _ hc => hc

/-! ### Submissions -/

/-- The payload that goes on is the one that was sent, but for the gap. -/
theorem ends_prepareCompaction (p : Payload) :
    (prepareCompaction p).Ends (Heard answers K) fun p' =>
      ∃ gap, p' = { p with coversIntervalGap := gap } := by
  unfold prepareCompaction
  split
  · refine Act.ends_bind (Act.ends_true _) fun gap _ => ?_
    dsimp only
    split
    · exact Act.ends_pure ⟨_, rfl⟩
    · refine Act.ends_bind (Act.ends_true _) fun quarantined _ => ?_
      split
      · exact Act.ends_pure ⟨_, rfl⟩
      · exact Act.ends_raise _
  · exact Act.ends_pure ⟨p.coversIntervalGap, rfl⟩

theorem within_rejectTainted {p : Payload} (root : NodeId)
    (hcommit : req.May g answers K (.store (.commitNode .rejection p)))
    (hreject : ∀ event, event.designatorIdentity = none →
      req.May g answers K (.store (.applyQuarantineTransaction event [p.payloadId]))) :
    (rejectTainted g p root).Within (Heard answers K) (req.May g answers K) := by
  refine Act.within_bind (within_store hcommit) fun _ => ?_
  refine Act.within_bind (within_store trivial) fun ids => ?_
  refine Act.within_bind (within_plain (uses_recurrenceHook g (of_plain.sub rfl) _ _)) fun _ => ?_
  refine Act.within_bind (within_store trivial) fun digest => ?_
  refine Act.within_bind (within_plain (uses_ext of_plain _ rfl)) fun eventId => ?_
  refine Act.within_bind (within_plain (uses_stampNow (of_plain.sub rfl))) fun detected => ?_
  refine Act.within_bind (within_store (hreject _ rfl)) fun event => ?_
  refine Act.within_bind (within_plain (uses_stampNow (of_plain.sub rfl))) fun rejected => ?_
  refine Act.within_bind (within_store trivial) fun _ => ?_
  exact Act.within_bind (within_plain (uses_offerReplacement (of_plain.sub rfl) p root)) fun _ =>
    Act.within_pure _

theorem within_enforce {p : Payload} (status : List ParentStatus)
    (hashes : NodeId → Option String) (decisionId writer : String)
    (hcommit : ∀ site, site = .admission ∨ site = .rejection →
      req.May g answers K (.store (.commitNode site p)))
    (hreject : ∀ event, event.designatorIdentity = none →
      req.May g answers K (.store (.applyQuarantineTransaction event [p.payloadId]))) (d : Decision) :
    (enforce g p status hashes decisionId writer d).Within (Heard answers K) (req.May g answers K) := by
  have hrecord : ∀ blocked reason, (recordDecision g decisionId writer p status blocked
      reason).Within (Heard answers K) (req.May g answers K) :=
    fun _ _ => within_plain (uses_recordDecision g (of_plain.sub rfl) _ _ _ _ _ _)
  cases d with
  | admitted =>
    refine Act.within_bind ?_ fun isNew =>
      Act.within_bind (within_plain (uses_auditAdmission g (of_plain.sub rfl) _ _ _ _ _)) fun _ =>
        Act.within_pure _
    unfold admitWrite
    split
    · exact Act.within_raise _
    · exact within_store (hcommit _ (Or.inl rfl))
  | taintedParent root =>
    exact Act.within_bind (within_rejectTainted root (hcommit _ (Or.inr rfl)) hreject) fun _ =>
      Act.within_bind (hrecord _ _) fun _ => Act.within_pure _
  | lineageInvalid => exact Act.within_bind (hrecord _ _) fun _ => Act.within_pure _
  | verificationFailed => exact Act.within_bind (hrecord _ _) fun _ => Act.within_pure _

theorem within_submitCandidate (bytes : ℕ) (body : SubmitBody) :
    (submitCandidate g bytes body).Within (Heard answers K)
      ((Request.submitCandidate bytes body).May g answers K) := by
  refine Act.within_bind_ends (within_plain (uses_submitChecks g (of_plain.sub rfl) _ _))
    (ends_submitChecks bytes body) ?_
  rintro ⟨p, auth, decisionId⟩ ⟨hparse, hauth, hlength⟩
  refine within_withShared ((of_may _).sub rfl) (within_withTransaction ((of_may _).sub rfl) ?_)
  refine Act.within_bind (within_store trivial) fun _ => ?_
  refine Act.within_bind (Act.uses_raiseIf _ _).within fun _ => ?_
  refine Act.within_bind (within_store trivial) fun exists_ => ?_
  refine Act.within_bind (within_store trivial) fun quarantined => ?_
  refine Act.within_bind (within_store trivial) fun hashes => ?_
  refine Act.within_bind_ends (within_plain (uses_prepareCompaction (of_plain.sub rfl) p))
    (ends_prepareCompaction p) ?_
  rintro _ ⟨gap, rfl⟩
  refine Act.within_bind (within_plain (uses_failClosed (uses_evaluateAdmission (of_plain.sub rfl)
    _ _ _ _))) fun d => ?_
  have hcommit : ∀ site, site = .shadow ∨ site = .admission ∨ site = .rejection →
      MayCommit g answers K (.submitCandidate bytes body) site { p with coversIntervalGap := gap } :=
    fun site hsite => .submission gap hparse hauth hlength hsite
  have hreject : ∀ event : QuarantineEvent, event.designatorIdentity = none →
      MayQuarantine g answers (.submitCandidate bytes body) event [p.payloadId] :=
    fun event hevent => .rejected hparse hauth hevent
  split
  · exact Act.within_bind (within_store (hcommit _ (Or.inl rfl))) fun _ => Act.within_pure _
  · exact within_enforce _ _ _ _ (fun site hsite => hcommit site (Or.inr hsite)) hreject d

/-! ### Recoveries -/

theorem within_contain {x : NodeId} {identity reason : String} {source : Option String}
    (h : ∀ event, event.poisonedRootId = x → event.designationReason = some reason →
      event.designatorIdentity = some identity → event.detectorSource = source →
      MayQuarantine g answers req event event.computedBlastRadius) :
    (contain g x identity reason source).Within (Heard answers K) (req.May g answers K) := by
  refine Act.within_bind (within_store trivial) fun ids => ?_
  refine Act.within_bind (within_plain (uses_recurrenceHook g (of_plain.sub rfl) _ _)) fun _ => ?_
  refine Act.within_bind (within_store trivial) fun digest => ?_
  refine Act.within_bind (within_plain (uses_ext of_plain _ rfl)) fun eventId => ?_
  refine Act.within_bind (within_plain (uses_stampNow (of_plain.sub rfl))) fun detected => ?_
  exact Act.within_bind (within_store (h _ rfl rfl rfl rfl)) fun _ => Act.within_pure _

/-- **The gate commits what it lets through.** -/
theorem within_gate (x : NodeId) (rc : RepairCandidate) (candidate : Option Payload)
    (hcommit : ∀ p, verifyCryptographicSignature g.env p = true → K p.identityId →
      p.identityId.getD "" ≠ "" → MayCommit g answers K req .reconstruction p) :
    (gate g x rc candidate).Within (Heard answers K) (req.May g answers K) := by
  cases candidate with
  | none => exact within_store trivial
  | some c =>
    by_cases hsig : (!verifyCryptographicSignature g.env c) = true
    · simp only [gate, hsig, if_true]
      exact within_store trivial
    simp only [gate, hsig]
    refine Act.within_bind_ends (within_plain (uses_getAdapterKey (of_plain.sub rfl)))
      ends_getAdapterKey fun key hkey => ?_
    split
    · exact within_store trivial
    rename_i hidentity
    obtain ⟨hne, hid⟩ := not_or.mp hidentity
    obtain rfl := not_not.mp hid
    split
    · exact within_store trivial
    · refine Act.within_bind (within_plain (uses_gateEvidence (of_plain.sub rfl))) fun _ => ?_
      refine Act.within_bind (within_store trivial) fun _ => ?_
      refine Act.within_bind (within_commitShared ((of_may req).sub rfl)
        (hcommit c (by simpa using hsig) hkey hne)) fun _ => ?_
      refine Act.within_bind (within_store trivial) fun _ => ?_
      refine Act.within_bind (within_plain (uses_ext of_plain _ rfl)) fun _ => ?_
      refine Act.within_bind (within_store trivial) fun _ => ?_
      refine Act.within_bind (within_plain (uses_stampNow (of_plain.sub rfl))) fun _ => ?_
      exact Act.within_bind (within_store trivial) fun _ => within_store trivial

/-- The candidate the gateway makes itself, under a key of its own. -/
theorem within_inlineCandidate (hK : ∀ k, answers .generateKey (.ok k) → K (some k))
    (rc : RepairCandidate) :
    (inlineCandidate g rc).Within (Heard answers K) (req.May g answers K) := by
  refine Act.within_bind_ends (within_plain (uses_ext of_plain _ rfl)) (ends_ext .generateKey)
    fun key hkey => ?_
  refine Act.within_bind (within_plain (uses_ext of_plain _ rfl)) fun uuid => ?_
  refine Act.within_bind (within_plain (uses_ext of_plain _ rfl)) fun signature => ?_
  exact Act.within_bind (within_setAdapterKey (hK key hkey)) fun _ => Act.within_pure _

/-- Reconstruction commits what the gate has let through. -/
theorem within_attemptReconstruction (hK : ∀ k, answers .generateKey (.ok k) → K (some k))
    (root : NodeId)
    (hcommit : ∀ p, verifyCryptographicSignature g.env p = true → K p.identityId →
      p.identityId.getD "" ≠ "" → MayCommit g answers K req .reconstruction p) :
    (attemptReconstruction g root).Within (Heard answers K) (req.May g answers K) := by
  have hpending : ∀ x rc cache, (reconstructPending g root x rc cache).Within (Heard answers K)
      (req.May g answers K) := by
    intro x rc cache
    unfold reconstructPending
    split
    · exact Act.within_raise _
    · refine Act.within_bind ?_ fun c => within_gate x rc c hcommit
      unfold reconstructionCandidate
      split
      · exact within_plain (uses_ext of_plain _ rfl)
      · exact Act.within_bind (within_inlineCandidate hK rc) fun _ => Act.within_pure _
  refine Act.within_bind (within_store trivial) fun rcs => Act.within_bind ?_ fun _ =>
    Act.within_pure _
  refine Act.within_fold (fun cache row => ?_) rcs none
  unfold reconstructOne
  split
  · exact Act.within_pure _
  · refine Act.within_bind ?_ fun read => ?_
    · cases cache with
      | some c => exact Act.within_pure _
      | none =>
        exact Act.within_attempt (Act.within_bind (within_store trivial) fun _ =>
          Act.within_bind (within_store trivial) fun _ => Act.within_pure _)
    · cases read with
      | error e => exact Act.within_bind (within_store trivial) fun _ => Act.within_pure _
      | ok c =>
        refine Act.within_bind (Act.within_attempt (hpending _ _ _)) fun r => ?_
        cases r with
        | error e => exact Act.within_bind (within_store trivial) fun _ => Act.within_pure _
        | ok u => exact Act.within_pure _

theorem within_expose {site : CommitSite} {p : Payload} {key : String} (status : String)
    (record : ExposureRecord) (hkey : K (some key))
    (hcommit : MayCommit g answers K req site p) :
    (expose site p key status record).Within (Heard answers K) (req.May g answers K) := by
  refine Act.within_bind (within_setAdapterKey hkey) fun _ => ?_
  refine Act.within_bind (within_commitShared ((of_may req).sub rfl) hcommit) fun _ => ?_
  refine Act.within_bind (within_plain (uses_ext of_plain _ rfl)) fun _ => ?_
  refine Act.within_bind (within_plain (uses_stampNow (of_plain.sub rfl))) fun _ => ?_
  exact Act.within_bind (within_store trivial) fun _ => Act.within_pure _

/-- Continuity commits what the gateway has made itself. -/
theorem within_attemptSafeContinuity (hK : ∀ k, answers .generateKey (.ok k) → K (some k))
    (ids : List NodeId) (event : QuarantineEvent)
    (hcommit : ∀ site id key signature token containment timestamp content parents weight,
      g.settings.continuityEnabled = true → site = .checkpointReplay ∨ site = .substitution →
      MayCommit g answers K req site
        (continuityPayload g id key signature token containment timestamp content parents weight)) :
    (attemptSafeContinuity g ids event).Within (Heard answers K) (req.May g answers K) := by
  have hext : ∀ e : Ext, e.kind = .ext → (ext e).Within (Heard answers K) (req.May g answers K) := by
    intro e he
    exact within_plain (uses_ext of_plain e (by rw [he]; rfl))
  have hstamp : stampNow.Within (Heard answers K) (req.May g answers K) :=
    within_plain (uses_stampNow (of_plain.sub rfl))
  unfold attemptSafeContinuity
  split
  · exact Act.within_pure _
  · rename_i henabled
    have henabled : g.settings.continuityEnabled = true := by simpa using henabled
    refine Act.within_bind (within_store trivial) fun deps => ?_
    split
    · exact Act.within_pure _
    · refine Act.within_bind (within_store trivial) fun _ => ?_
      refine Act.within_bind (within_store trivial) fun _ => ?_
      refine Act.within_bind (within_store trivial) fun _ => ?_
      refine Act.within_bind (within_store trivial) fun _ => ?_
      refine Act.within_fold (fun results dep => ?_) deps _
      unfold serveCritical
      split
      · refine Act.within_bind ?_ fun _ => Act.within_pure _
        refine Act.within_bind_ends (hext _ rfl) (ends_ext .generateKey) fun key hkey => ?_
        refine Act.within_bind (hext _ rfl) fun uuid => Act.within_bind (hext _ rfl) fun signature => ?_
        refine Act.within_bind hstamp fun at_ => Act.within_bind (within_expose _ _ (hK key hkey)
          (hcommit _ _ _ _ _ _ _ _ _ _ henabled (Or.inl rfl))) fun _ => Act.within_pure _
      · refine Act.within_bind (hext _ rfl) fun order =>
          Act.within_bind (Act.within_resume _) fun found => ?_
        split
        · refine Act.within_bind ?_ fun _ => Act.within_pure _
          refine Act.within_bind_ends (hext _ rfl) (ends_ext .generateKey) fun key hkey => ?_
          refine Act.within_bind (hext _ rfl) fun uuid => Act.within_bind (hext _ rfl) fun signature => ?_
          refine Act.within_bind hstamp fun at_ => Act.within_bind (within_expose _ _ (hK key hkey)
            (hcommit _ _ _ _ _ _ _ _ _ _ henabled (Or.inr rfl))) fun _ => Act.within_pure _
        · exact Act.within_pure _

theorem within_designatePoison (hK : ∀ k, answers .generateKey (.ok k) → K (some k))
    (header : Option String) (e : DesignationEvent) :
    (designatePoison g header e).Within (Heard answers K)
    ((Request.designate header e).May g answers K) := by
  refine Act.within_bind_ends (within_plain (uses_verifyRole g (of_plain.sub rfl) _ _))
    (ends_verifyRole header "designator") fun claims hgrant => ?_
  refine Act.within_bind (within_plain (uses_limitDesignations g (of_plain.sub rfl) _ _)) fun _ => ?_
  refine within_withExclusive ((of_may _).sub rfl) (within_withTransaction ((of_may _).sub rfl) ?_)
  refine Act.within_bind (within_store trivial) fun exists_ => ?_
  refine Act.within_bind (within_store trivial) fun quarantined => ?_
  split
  · exact Act.within_pure _
  · split
    · exact Act.within_pure _
    · refine Act.within_bind (within_contain fun event h₁ h₂ h₃ h₄ =>
        .designated hgrant h₁ h₂ h₃ h₄) fun contained => ?_
      refine Act.within_bind (within_attemptSafeContinuity hK _ _ ?_) fun continuity => ?_
      · exact fun site id key signature token containment timestamp content parents weight henabled
          hsite => .continuity id key signature token containment timestamp content parents weight rfl
            hgrant henabled hsite
      · exact Act.within_bind (within_attemptReconstruction hK _ fun p hsig hkey hne =>
          .reconstruction rfl hgrant hsig hkey hne) fun _ => Act.within_pure _

theorem within_ingestDetectorEvent (hK : ∀ k, answers .generateKey (.ok k) → K (some k))
    (header : Option String) (source : String) (raw : RawEvent) :
    (ingestDetectorEvent g header source raw).Within (Heard answers K)
      ((Request.detector header source raw).May g answers K) := by
  refine Act.within_bind (within_plain (uses_verifyRole g (of_plain.sub rfl) _ _)) fun _ => ?_
  cases hd : detectorRegistry source with
  | none => exact Act.within_raise _
  | some d =>
    refine Act.within_bind (within_plain (uses_recordRawEvent (of_plain.sub rfl) _ _)) fun _ => ?_
    refine Act.within_bind (Act.uses_raiseIf _ _).within fun _ => ?_
    cases he : toDesignation g.env d raw with
    | error reason =>
      simp only
      exact Act.within_pure _
    | ok e =>
      simp only
      refine Act.within_bind_ends (within_plain (uses_verifyRole g (of_plain.sub rfl) _ _))
        (ends_verifyRole header "designator") fun claims hgrant => ?_
      refine Act.within_bind (within_plain (uses_limitDesignations g (of_plain.sub rfl) _ _))
        fun _ => ?_
      refine Act.within_bind (within_withExclusive ((of_may _).sub rfl) ?_) fun out => ?_
      · refine Act.within_bind (within_store trivial) fun exists_ => ?_
        refine Act.within_bind (within_store trivial) fun quarantined => ?_
        split
        · exact Act.within_raise _
        · split
          · exact Act.within_pure _
          · exact Act.within_bind (within_contain fun event h₁ h₂ h₃ h₄ =>
              .detected hgrant hd he h₁ h₂ h₃ h₄) fun _ => Act.within_pure _
      · cases out with
        | none => exact Act.within_pure _
        | some contained =>
          refine Act.within_bind (within_attemptSafeContinuity hK _ _ ?_) fun continuity => ?_
          · exact fun site id key signature token containment timestamp content parents weight
              henabled hsite => .continuity id key signature token containment timestamp content
                parents weight rfl hgrant henabled hsite
          · exact Act.within_bind (within_attemptReconstruction hK _ fun p hsig hkey hne =>
              .reconstruction rfl hgrant hsig hkey hne) fun _ => Act.within_pure _

/-! ### Requests -/

theorem within_seedRoot (header rootId : Option String) :
    (seedRoot g header rootId).Within (Heard answers K)
    ((Request.seedRoot header rootId).May g answers K) := by
  have hext : ∀ e : Ext, e.kind = .ext →
      (ext e).Within (Heard answers K) ((Request.seedRoot header rootId).May g answers K) := by
    intro e he
    exact within_plain (uses_ext of_plain e (by rw [he]; rfl))
  refine Act.within_bind_ends (within_plain (uses_verifyRole g (of_plain.sub rfl) _ _))
    (ends_verifyRole header "admin") fun claims hgrant => ?_
  refine Act.within_bind (Act.uses_raiseIf _ _).within fun _ => ?_
  refine Act.within_bind (within_store trivial) fun exists_ => ?_
  refine Act.within_bind (Act.uses_raiseIf _ _).within fun _ => ?_
  refine Act.within_bind (hext _ rfl) fun key => Act.within_bind (hext _ rfl) fun signature => ?_
  refine Act.within_bind (hext _ rfl) fun timestamp => Act.within_bind (hext _ rfl) fun fixedAt => ?_
  exact Act.within_bind (within_store (MayCommit.seed hgrant rfl rfl rfl rfl)) fun _ => Act.within_pure _

/-- **A handler makes no write its request does not answer for.** -/
theorem within_handle (hK : ∀ k, answers .generateKey (.ok k) → K (some k))
    (req : Request) :
    (req.handle g).Within (Heard answers K) (req.May g answers K) := by
  cases req with
  | submitCandidate bytes body => exact within_submitCandidate bytes body
  | contextCompacted e =>
    refine Act.within_bind_ends (within_plain (uses_compactionChecks g (of_plain.sub rfl) e))
      (ends_compactionChecks e) ?_
    rintro _ ⟨⟨ps, rfl⟩, hauth⟩
    exact Act.within_bind (within_commitShared ((of_may _).sub rfl) (MayCommit.compaction ps hauth))
      fun _ => Act.within_pure _
  | designate header e => exact within_designatePoison hK header e
  | detector header source raw => exact within_ingestDetectorEvent hK header source raw
  | seedRoot header rootId => exact within_seedRoot header rootId
  | _ => exact within_plain (uses_handle g _ (of_plain.sub rfl))

end May

/-! ## 4. Every record is authorised -/

section Records

variable {g answers} {key₀ : Option String} {ι : Type} [DecidableEq ι]

/-- The records of a database, each one of the first database or written under the credentials of a
request. -/
structure Db.Authorised (g : Setup) (answers : Answers) (key₀ : Option String) (req : ι → Request)
    (db₀ db : Db) : Prop where
  nodes : ∀ n ∈ db.nodes, n ∈ db₀.nodes ∨
    ∃ i site p, MayCommit g answers (KeyOf answers key₀) (req i) site p ∧ n = Lineage.nodeRow g.env.sha256 p
  ledger : ∀ x ∈ db.ledger, x ∈ db₀.ledger ∨
    ∃ i event ids, MayQuarantine g answers (req i) event ids ∧ x ∈ ids
  events : ∀ event ∈ db.quarantineEvents, event ∈ db₀.quarantineEvents ∨
    ∃ i event' ids, MayQuarantine g answers (req i) event' ids ∧
      event = { event' with maxTraversalDepth := some g.settings.maxTraversalDepth }

/-- Every other call leaves the three tables alone. -/
theorem Store.exec_records (d : Db) {c : Store} (hcommit : ∀ site p, c ≠ .commitNode site p)
    (hquarantine : ∀ event ids, c ≠ .applyQuarantineTransaction event ids) :
    (c.exec g d).2.nodes = d.nodes ∧ (c.exec g d).2.ledger = d.ledger ∧
      (c.exec g d).2.quarantineEvents = d.quarantineEvents := by
  cases c with
  | commitNode site p => exact absurd rfl (hcommit site p)
  | applyQuarantineTransaction event ids => exact absurd rfl (hquarantine event ids)
  | computeBlastRadius root =>
    obtain ⟨rcs, h⟩ := Db.computeBlastRadius_snd g.settings.maxTraversalDepth root d
    simp only [Store.exec, h]
    exact ⟨rfl, rfl, rfl⟩
  | recordShadowDecision s =>
    simp only [Store.exec, Db.recordShadowDecision]
    split
    · exact ⟨rfl, rfl, rfl⟩
    · exact ⟨rfl, rfl, rfl⟩
  | _ => exact ⟨rfl, rfl, rfl⟩

variable {req : ι → Request} {db₀ db : Db}

omit [DecidableEq ι] in
/-- **One call**, on what is committed or on a copy of it. -/
theorem Db.Authorised.exec (h : Db.Authorised g answers key₀ req db₀ db) {i : ι} {c : Store}
    (hmay : (req i).May g answers (KeyOf answers key₀) (.store c)) :
    Db.Authorised g answers key₀ req db₀ (c.exec g db).2 := by
  by_cases hcommit : ∃ site p, c = .commitNode site p
  · obtain ⟨site, p, rfl⟩ := hcommit
    refine ⟨fun n hn => ?_, fun x hx => ?_, h.events⟩
    · rcases Lineage.mem_nodes_commitNode.mp hn with hn | ⟨rfl, -⟩
      · exact h.nodes n hn
      · exact Or.inr ⟨i, site, p, hmay, rfl⟩
    · refine h.ledger x ?_
      exact Lineage.commitNode_ledger (p := p) ▸ hx
  by_cases hquarantine : ∃ event ids, c = .applyQuarantineTransaction event ids
  · obtain ⟨event, ids, rfl⟩ := hquarantine
    refine ⟨h.nodes, fun x hx => ?_, fun e he => ?_⟩
    · rcases Lineage.mem_ledger_quarantine.mp hx with hx | hx
      · exact h.ledger x hx
      · exact Or.inr ⟨i, event, ids, hmay, hx⟩
    · rcases Keyed.mem_insertOrReplace.mp he with ⟨he, -⟩ | rfl
      · exact h.events e he
      · exact Or.inr ⟨i, event, ids, hmay, rfl⟩
  · obtain ⟨hnodes, hledger, hevents⟩ := Store.exec_records (g := g) db
      (fun site p hc => hcommit ⟨site, p, hc⟩) fun event ids hc => hquarantine ⟨event, ids, hc⟩
    refine ⟨fun n hn => h.nodes n ?_, fun x hx => h.ledger x ?_, fun e he => h.events e ?_⟩
    · rwa [← hnodes]
    · rwa [← hledger]
    · rwa [← hevents]

/-- The same of the shared state: what is committed, and the copy of the open transaction; and the
key. -/
structure Gateway.Authorised (g : Setup) (answers : Answers) (key₀ : Option String) (req : ι → Request)
    (db₀ : Db) (s : Gateway ι) : Prop where
  db : Db.Authorised g answers key₀ req db₀ s.db
  tx : ∀ j d, s.tx = some (j, d) → Db.Authorised g answers key₀ req db₀ d
  key : KeyOf answers key₀ s.adapterKey

/-- **One step of one task.** -/
theorem Gateway.Authorised.step {s s' : Gateway ι} {i : ι} {c : Call} {r : Except Exc c.Res}
    (hmay : (req i).May g answers (KeyOf answers key₀) c) (ht : TaskStep g answers i c s r s')
    (h : s.Authorised g answers key₀ req db₀) : s'.Authorised g answers key₀ req db₀ := by
  obtain ⟨hdb, htx, hkey⟩ := h
  cases c with
  | ext e =>
    rw [ht.2]
    exact ⟨hdb, htx, hkey⟩
  | getAdapterKey =>
    rw [ht.2]
    exact ⟨hdb, htx, hkey⟩
  | setAdapterKey key =>
    rw [ht.2]
    exact ⟨hdb, htx, hmay⟩
  | store c =>
    simp only [TaskStep] at ht
    split at ht
    · rename_i hs
      rw [ht.2]
      refine ⟨hdb.exec hmay, fun j d hd => ?_, hkey⟩
      rw [hs] at hd
      exact absurd hd (by simp)
    · rename_i j d hs
      split at ht
      · rw [ht.2]
        refine ⟨hdb, fun k d' hd => ?_, hkey⟩
        rw [← (Prod.mk.inj (Option.some.inj hd)).2]
        exact (htx j d hs).exec hmay
      · rw [ht.1]
        exact ⟨hdb, htx, hkey⟩
  | sync k =>
    cases k with
    | begin =>
      rcases ht with ⟨-, -, rfl⟩ | ⟨-, -, rfl⟩
      · refine ⟨hdb, fun j d hd => ?_, hkey⟩
        rwa [← (Prod.mk.inj (Option.some.inj hd)).2]
      · exact ⟨hdb, htx, hkey⟩
    | commit =>
      obtain ⟨d, hs, -, rfl⟩ := ht
      exact ⟨htx i d hs, by simp, hkey⟩
    | rollback =>
      obtain ⟨d, -, -, rfl⟩ := ht
      exact ⟨hdb, by simp, hkey⟩
    | _ =>
      obtain ⟨l, -, -, rfl⟩ := ht
      exact ⟨hdb, htx, hkey⟩

/-- **A whole interleaving**: what is committed, and what is not yet. -/
theorem Gateway.authorised_of_run {s : Gateway ι} (hs : s.tx = none)
    {p : Pool ι Call Call.Res Exc (Gateway ι) (Except Exc Response)}
    (hrun : Relation.ReflTransGen (Pool.Step (TaskStep g answers)) (s.serve g req) p) :
    p.state.Authorised g answers s.adapterKey req s.db := by
  have hstart : s.Authorised g answers s.adapterKey req s.db := by
    refine ⟨⟨fun _ hn => Or.inl hn, fun _ hx => Or.inl hx, fun _ he => Or.inl he⟩, fun j d hd => ?_,
      Or.inl rfl⟩
    rw [hs] at hd
    exact absurd hd (by simp)
  exact (Pool.within_invariant (H := Heard answers (KeyOf answers s.adapterKey))
    (A := fun i => (req i).May g answers (KeyOf answers s.adapterKey))
    (I := Gateway.Authorised g answers s.adapterKey req s.db)
    (fun _ _ _ _ _ h => heard_taskStep h.key) (fun _ _ _ _ _ hmay ht h => h.step hmay ht) hrun
    (fun i => within_handle (fun k hk => Or.inr ⟨k, hk, rfl⟩) (req i)) hstart).1

end Records

/-- **Every record is authorised.**  In every state of every interleaving of any requests, a stored
node, an id in the ledger and a quarantine event are each one of the first database, or were written
by a request that presented the credentials for it; a reconstructed node is signed under the adapter
key of the start, or under one the gateway has made. -/
theorem records_authorised {ι : Type} [DecidableEq ι] (req : ι → Request) {s : Gateway ι}
    (hs : s.tx = none) {p : Pool ι Call Call.Res Exc (Gateway ι) (Except Exc Response)}
    (hrun : Relation.ReflTransGen (Pool.Step (TaskStep g answers)) (s.serve g req) p) :
    Db.Authorised g answers s.adapterKey req s.db p.state.db :=
  (Gateway.authorised_of_run hs hrun).db

/-! ## 5. Two reports of one node -/

/-- A guest and a designator report the root. -/
def reporters (i : Fin 2) : Request :=
  match i with
  | 0 => .detector (some "Bearer guest") "human_report" { nodeId := some "clean-parent-1" }
  | 1 => openReport "clean-parent-1"

def reportersStart : Gateway (Fin 2) := { db := ({} : Db).reset openSetup.env.sha256 }

def reportersEnd : Pool (Fin 2) Call Call.Res Exc (Gateway (Fin 2)) (Except Exc Response) :=
  Pool.schedule (fun i => (openScript (toString i.val)).taskStep openSetup i)
    [(0, fun _ => false), (1, fun _ => false)] (reportersStart.serve openSetup reporters)

theorem reporters_run : Relation.ReflTransGen (Pool.Step (TaskStep openSetup Answers.lawful))
    (reportersStart.serve openSetup reporters) reportersEnd := by
  unfold reportersEnd
  exact Script.schedule_run _ openSetup _ (reportersStart.serve openSetup reporters)

/-- A guest's token is never one of a designator. -/
theorem reporters_guest : ¬ (reporters 0).Credentials openSetup Answers.lawful := by
  rintro ⟨header, role, claims, hbearer, t, -, hclaims⟩
  obtain ⟨rfl, rfl⟩ := Prod.mk.inj (Option.some.inj hbearer)
  have hsame : verifyRoleJwt openSetup.env t (some "Bearer guest") "designator" =
      verifyRoleJwt openSetup.env 0 (some "Bearer guest") "designator" := rfl
  have hdenied : (verifyRoleJwt openSetup.env 0 (some "Bearer guest") "designator").toBool = false := by
    decide +kernel
  rw [← hsame, hclaims] at hdenied
  exact absurd hdenied (by simp [Except.toBool])

theorem reporters_barred : (reporters 0).Barred openSetup Answers.lawful :=
  ⟨reporters_guest, fun _ h => absurd h (by simp [reporters])⟩

theorem unauthenticated_invisible_guest : (∃ q, Relation.ReflTransGen
      (Pool.Step (TaskStep openSetup Answers.lawful)) (reportersStart.serve openSetup reporters) q ∧
      q.state.db.ledger = ["quarantined-node-A", "clean-parent-1"] ∧
      q.prog 0 = ((reporters 0).handle openSetup).tree) ∧
    ∃ e, reportersEnd.prog 0 = .ret (.error e) := by
  obtain ⟨⟨q, hq, hstate, hguest, -⟩, -, herror⟩ :=
    unauthenticated_invisible openSetup Answers.lawful reporters reportersStart reporters_run
  have hledger : reportersEnd.state.db.ledger = ["quarantined-node-A", "clean-parent-1"] := by
    decide +kernel
  refine ⟨⟨q, hq, by rw [hstate, hledger], hguest 0 reporters_barred⟩, ?_⟩
  have hfin : ((reportersEnd.prog 0).result?).isSome = true := by decide +kernel
  obtain ⟨r, hr⟩ := Option.isSome_iff_exists.mp hfin
  obtain ⟨e, rfl⟩ := herror 0 r reporters_guest (Pool.finished_of_result hr)
  exact ⟨e, Pool.finished_of_result hr⟩

theorem records_authorised_reporters : "clean-parent-1" ∈ reportersEnd.state.db.ledger ∧
    ∃ i event ids, MayQuarantine openSetup Answers.lawful (reporters i) event ids ∧
      "clean-parent-1" ∈ ids := by
  have hledger : "clean-parent-1" ∈ reportersEnd.state.db.ledger := by decide +kernel
  refine ⟨hledger, ?_⟩
  rcases (records_authorised openSetup Answers.lawful reporters rfl reporters_run).ledger _ hledger
    with h | h
  · exact absurd h (by decide)
  · exact h

end GovernorGateway
