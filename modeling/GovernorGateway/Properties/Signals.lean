/-
# The withdrawal ledger is explained by the signals

`process_recurrence` reads the blast radius of a node and writes it in ANOTHER call, and the hooks
of a containment read which nodes have an active horizon before that.  So what is written is what
was true when it was read.  It still is, because between the two calls of a request the graph only
grows; and a rollback, which takes nodes away, is the last call of its request but for the lock
(`Sighting`).

`withdrawals_explained` is what remains after any requests, handled one at a time: a withdrawn node
is in reach of the node a stored event names; an event withdraws its own node, with at most
`MAX_WITHDRAWAL_AMPLIFICATION` rows in all, or nothing; and each event has a request that answers
for it (`MaySignal`).
-/
import GovernorGateway.Properties.Durable
import GovernorGateway.Properties.Provenance
import GovernorGateway.Properties.Withdrawals

namespace GovernorGateway

open Effects

/-! ## 1. The requests behind an event -/

/-- The two classes `/observe` accepts. -/
abbrev observedClasses : List String := ["FUNCTIONAL_FAILURE", "VERIFIER_CONTRADICTION"]

/-- The recurrence events the handlers of this request may record. -/
inductive MaySignal (g : Setup) (answers : Answers) : Request → RecurrenceEvent → Prop
  | observed {header : Option String} {e : ObserveEvent} {claims : Claims}
      {event : RecurrenceEvent} :
      Grants g answers header "designator" claims → event.nodeId = e.nodeId →
      event.recurrenceClass = e.recurrenceClass → e.recurrenceClass ∈ observedClasses →
      event.signalSource = claims.sub.getD "unknown" →
      (e.recurrenceClass = "VERIFIER_CONTRADICTION" →
        ∃ key, g.env.ecdsaVerify key (e.adapterSignature.getD "") e.nodeId = true) →
      MaySignal g answers (.observe header e) event
  | rejected {bytes : ℕ} {body : SubmitBody} {p : Payload} {event : RecurrenceEvent} :
      parseSubmission g bytes body = .ok p → p.Authentic g answers →
      event.recurrenceClass = "PROHIBITED_PATH" → event.signalSource = "internal_hook" →
      MaySignal g answers (.submitCandidate bytes body) event
  | contained {req : Request} {header : Option String} {claims : Claims} {event : RecurrenceEvent} :
      req.designator = some header → Grants g answers header "designator" claims →
      event.recurrenceClass = "RENEWED_DESIGNATION" → event.signalSource = "internal_hook" →
      MaySignal g answers req event

/-! ## 2. What a task has read -/

/-- The last traversal of a task, and the ids it has read to have an active horizon. -/
structure Sighting where
  radius : Option (NodeId × List NodeId) := none
  active : List NodeId := []

namespace Sighting

/-- What a call makes its task know. -/
def Step (answers : Answers) : Trans Call Call.Res Exc Sighting
  | .store (.computeBlastRadius x), l, r, l' =>
    ∃ ids, r = .ok ids ∧ l' = { l with radius := some (x, ids) }
  | .store (.getActiveHorizonSet _), l, r, l' => ∃ ids, r = .ok ids ∧ l' = { l with active := ids }
  | .ext e, l, r, l' => answers e r ∧ l' = l
  | .sync .rollback, _, _, l' => l' = {}
  | _, l, _, l' => l' = l

/-- A signal is written from what was read: the whole radius, or nothing with an escalation. -/
def Duty (g : Setup) (answers : Answers) (req : Request) : Trans Call Call.Res Exc Sighting
  | .store (.applyWithdrawalTransaction event ids _), l, _, _ =>
    MaySignal g answers req event ∧
      (event.recurrenceClass ∉ observedClasses → event.nodeId ∈ l.active) ∧
      ∃ radius, l.radius = some (event.nodeId, radius) ∧ ids = event.withdraws radius ∧
        (event.escalated = true ↔ g.settings.maxWithdrawalAmplification < (radius.length : Int))
  | _, _, _, _ => True

end Sighting

/-- A call that records no signal. -/
def Call.Mute (c : Call) : Prop := c.kind ≠ .withdrawal

theorem Call.of_mute {ks : List CallKind} (h : ks.contains .withdrawal = false) :
    Call.Of Call.Mute ks := by
  intro c hc heq
  rw [heq, ← List.contains_iff_mem, h] at hc
  exact absurd hc (by simp)

theorem mute_sync (k : Sync) : (sync k).Uses Call.Mute :=
  (Act.uses_perform (Call.sync k)).mpr (by cases k <;> simp [Call.Mute, Call.kind, Sync.kind])

theorem Call.Mute.duty {g : Setup} {answers : Answers} {req : Request} {c : Call} (hc : c.Mute)
    {l l' : Sighting} {r : Except Exc c.Res} : Sighting.Duty g answers req c l r l' := by
  cases c with
  | store c =>
    cases c with
    | applyWithdrawalTransaction event ids now => exact absurd rfl hc
    | _ => trivial
  | _ => trivial

/-! ## 3. One task -/

section Task

variable {g : Setup} {answers : Answers} {req : Request} {α β : Type}

/-- A program that does its duty, whatever its task knows at first. -/
def Minded (g : Setup) (answers : Answers) (req : Request) (x : Handler α) : Prop :=
  ∀ l, Act.Sat (Sighting.Step answers) (Sighting.Duty g answers req) x (fun _ _ => True) l

theorem minded_uses {x : Handler α} (hx : x.Uses Call.Mute) : Minded g answers req x :=
  fun _ => Prog.Uses.sat (I := fun _ => True) hx (fun _ hc _ _ _ _ _ => ⟨hc.duty, trivial⟩) trivial

theorem minded_store {c : Store} (hc : (c.kind == .withdrawal) = false) :
    Minded g answers req (store c) := by
  refine minded_uses ((Act.uses_perform (Call.store c)).mpr fun heq => ?_)
  rw [show c.kind = .withdrawal from heq] at hc
  exact absurd hc (by decide)

theorem minded_ext (e : Ext) (he : e.kind = .ext) : Minded g answers req (ext e) :=
  minded_uses (uses_ext (Call.of_mute rfl : Call.Of Call.Mute [.ext]) e (by rw [he]; rfl))

theorem minded_pure (a : α) : Minded g answers req (pure a) := fun _ => trivial

theorem minded_bind {x : Handler α} {f : α → Handler β} (hx : Minded g answers req x)
    (hf : ∀ a, Minded g answers req (f a)) : Minded g answers req (x >>= f) := by
  intro l
  rw [Act.sat_bind]
  refine (hx l).mono ?_
  rintro (e | a) l' -
  · trivial
  · exact hf a l'

theorem heard_sighting {c : Call} {l l' : Sighting} {r : Except Exc c.Res}
    (h : Sighting.Step answers c l r l') : Heard answers (fun _ => True) c r := by
  cases c with
  | ext e => exact h.1
  | getAdapterKey => exact fun _ _ => trivial
  | _ => trivial

/-- What a check has shown, the rest can rely on. -/
theorem minded_bind_ends {x : Handler α} {f : α → Handler β} {Φ : α → Prop}
    (hx : Minded g answers req x) (hends : x.Ends (Heard answers fun _ => True) Φ)
    (hf : ∀ a, Φ a → Minded g answers req (f a)) : Minded g answers req (x >>= f) := by
  intro l
  have hheard := Prog.Ends.sat (T := Sighting.Step answers) hends
    (fun _ _ _ _ ht => heard_sighting ht) l
  rw [Act.sat_bind]
  refine ((Prog.Sat.and (hx l) hheard).weaken fun _ _ _ _ h => h.1).mono ?_
  rintro (e | a) l' ⟨-, hshown⟩
  · trivial
  · exact hf a (hshown a rfl) l'

theorem minded_always {x : Handler α} {fin : Handler Unit} (hx : Minded g answers req x)
    (hfin : fin.Uses Call.Mute) : Minded g answers req (Act.always x fin) := by
  intro l
  rw [Act.sat_always]
  refine (hx l).mono fun r l' _ => ?_
  exact (minded_uses hfin l').mono fun out _ _ => by cases out <;> trivial

theorem minded_withTransaction {x : Handler α} (hx : Minded g answers req x) :
    Minded g answers req (withTransaction x) := by
  have hattempt : Minded g answers req
      (Act.attempt (x >>= fun a => sync .commit >>= fun _ => pure a)) := by
    intro l
    rw [Act.sat_attempt]
    exact minded_bind hx
      (fun _ => minded_bind (minded_uses (mute_sync _)) fun _ => minded_pure _) l
  refine minded_bind (minded_uses (mute_sync _)) fun _ => minded_bind hattempt fun r => ?_
  cases r with
  | ok a => exact minded_pure a
  | error e => exact minded_bind (minded_uses (mute_sync _)) fun _ => fun _ => trivial

theorem minded_withShared {x : Handler α} (hx : Minded g answers req x) :
    Minded g answers req (withShared x) :=
  minded_bind (minded_uses (mute_sync _)) fun _ => minded_always hx (mute_sync _)

theorem minded_withExclusive {x : Handler α} (hx : Minded g answers req x) :
    Minded g answers req (withExclusive x) :=
  minded_bind (minded_uses (mute_sync _)) fun _ => minded_bind (minded_uses (mute_sync _)) fun _ =>
    minded_always hx (mute_sync _)

/-! ### Signals -/

/-- Questions to the outside world change nothing a task has read. -/
theorem sighting_ext {x : Handler α} {f : α → Handler β} {Q : Except Exc β → Sighting → Prop}
    {l : Sighting} (hx : x.Uses fun c => ∃ e, c = .ext e)
    (hok : ∀ a, Act.Sat (Sighting.Step answers) (Sighting.Duty g answers req) (f a) Q l)
    (herr : ∀ e, Q (.error e) l) :
    Act.Sat (Sighting.Step answers) (Sighting.Duty g answers req) (x >>= f) Q l := by
  refine Act.Uses.sat_bind (I := fun l' => l' = l) hx ?_ rfl ?_ ?_
  · rintro c ⟨e, rfl⟩ l₁ r l₂ ht rfl
    exact ⟨trivial, ht.2⟩
  · rintro a _ rfl
    exact hok a
  · rintro e _ rfl
    exact herr e

/-- **A signal does its duty** when its request answers for the event, and a hook has found the node
active.  What it has read of the horizons stays. -/
theorem sat_signal {x : NodeId} {cls source : String} {evidence : List (String × Json)}
    {l : Sighting}
    (hmay : ∀ event : RecurrenceEvent, event.nodeId = x → event.recurrenceClass = cls →
      event.signalSource = source → MaySignal g answers req event)
    (hactive : cls ∉ observedClasses → x ∈ l.active) :
    Act.Sat (Sighting.Step answers) (Sighting.Duty g answers req)
      (processRecurrence g x cls source evidence) (fun _ l' => l'.active = l.active) l := by
  have hext : ∀ e : Ext, (ext e).Uses fun c => ∃ e, c = .ext e := fun e =>
    (Act.uses_perform (Call.ext e)).mpr ⟨e, rfl⟩
  have hstamp : stampNow.Uses fun c => ∃ e, c = .ext e :=
    Act.uses_bind (hext _) fun _ => Act.uses_pure _
  rw [processRecurrence, Act.sat_bind]
  rintro r l' ⟨ids, rfl, rfl⟩
  refine ⟨trivial, ?_⟩
  rw [Prog.Sat, onOk_ok]
  refine sighting_ext (hext _) (fun eventId => ?_) fun _ => rfl
  refine sighting_ext hstamp (fun detected => ?_) fun _ => rfl
  refine sighting_ext (hext _) (fun now => ?_) fun _ => rfl
  dsimp only
  split
  · rename_i hlarge
    rintro r l'' rfl
    exact ⟨⟨hmay _ rfl rfl rfl, hactive, ids, rfl, rfl, by simp [hlarge]⟩, rfl⟩
  · rename_i hsmall
    rintro r l'' rfl
    exact ⟨⟨hmay _ rfl rfl rfl, hactive, ids, rfl, rfl, by simp [hsmall]⟩, rfl⟩

/-- The hook of a containment signals what it finds active. -/
theorem minded_recurrenceHook {ids : List NodeId} {cls : String}
    (hmay : ∀ event : RecurrenceEvent, event.recurrenceClass = cls →
      event.signalSource = "internal_hook" → MaySignal g answers req event) :
    Minded g answers req (recurrenceHook g ids cls) := by
  refine minded_bind (minded_ext _ rfl) fun now l => ?_
  rw [Act.sat_bind]
  rintro r l' ⟨active, rfl, rfl⟩
  refine ⟨trivial, ?_⟩
  rw [Prog.Sat, onOk_ok]
  refine (Act.sat_forEach (I := fun l' => l'.active = active) (X := fun _ _ => True) ids
    (fun x _ l₁ h₁ => ?_) rfl).mono fun _ _ _ => trivial
  split
  · rename_i hx
    refine (sat_signal (fun event _ hcls hsource => hmay event hcls hsource) fun _ => ?_).mono ?_
    · rw [h₁]
      exact hx
    · rintro (e | u) l₂ h₂
      · trivial
      · exact h₂.trans h₁
  · exact h₁

/-! ### Handlers -/

theorem minded_rejectTainted {p : Payload} (root : NodeId)
    (hmay : ∀ event : RecurrenceEvent, event.recurrenceClass = "PROHIBITED_PATH" →
      event.signalSource = "internal_hook" → MaySignal g answers req event) :
    Minded g answers req (rejectTainted g p root) := by
  refine minded_bind (minded_store rfl) fun _ => ?_
  refine minded_bind (minded_store rfl) fun ids => ?_
  refine minded_bind (minded_recurrenceHook hmay) fun _ => ?_
  refine minded_bind (minded_store rfl) fun digest => ?_
  refine minded_bind (minded_ext _ rfl) fun eventId => ?_
  refine minded_bind (minded_uses (uses_stampNow (Call.of_mute rfl))) fun detected => ?_
  refine minded_bind (minded_store rfl) fun event => ?_
  refine minded_bind (minded_uses (uses_stampNow (Call.of_mute rfl))) fun rejected => ?_
  refine minded_bind (minded_store rfl) fun _ => ?_
  exact minded_bind (minded_uses (uses_offerReplacement (Call.of_mute rfl) p root)) fun _ =>
    minded_pure _

theorem minded_enforce {p : Payload} (status : List ParentStatus) (hashes : NodeId → Option String)
    (decisionId writer : String)
    (hmay : ∀ event : RecurrenceEvent, event.recurrenceClass = "PROHIBITED_PATH" →
      event.signalSource = "internal_hook" → MaySignal g answers req event) (d : Decision) :
    Minded g answers req (enforce g p status hashes decisionId writer d) := by
  have hrecord : ∀ blocked reason, Minded g answers req (recordDecision g decisionId writer p status
      blocked reason) :=
    fun _ _ => minded_uses (uses_recordDecision g (Call.of_mute rfl) _ _ _ _ _ _)
  cases d with
  | admitted =>
    refine minded_bind ?_ fun isNew =>
      minded_bind (minded_uses (uses_auditAdmission g (Call.of_mute rfl) _ _ _ _ _)) fun _ =>
        minded_pure _
    unfold admitWrite
    split
    · exact fun _ => trivial
    · exact minded_store rfl
  | taintedParent root =>
    exact minded_bind (minded_rejectTainted root hmay) fun _ =>
      minded_bind (hrecord _ _) fun _ => minded_pure _
  | lineageInvalid => exact minded_bind (hrecord _ _) fun _ => minded_pure _
  | verificationFailed => exact minded_bind (hrecord _ _) fun _ => minded_pure _

theorem minded_submitCandidate (bytes : ℕ) (body : SubmitBody) :
    Minded g answers (.submitCandidate bytes body) (submitCandidate g bytes body) := by
  refine minded_bind_ends (minded_uses (uses_submitChecks g (Call.of_mute rfl) _ _))
    (ends_submitChecks bytes body) ?_
  rintro ⟨p, auth, decisionId⟩ ⟨hparse, hauth, -⟩
  refine minded_withShared (minded_withTransaction ?_)
  refine minded_bind (minded_store rfl) fun _ => ?_
  refine minded_bind (minded_uses (Act.uses_raiseIf _ _)) fun _ => ?_
  refine minded_bind (minded_store rfl) fun exists_ => ?_
  refine minded_bind (minded_store rfl) fun quarantined => ?_
  refine minded_bind (minded_store rfl) fun hashes => ?_
  refine minded_bind (minded_uses (uses_prepareCompaction (Call.of_mute rfl) p)) fun p' => ?_
  refine minded_bind (minded_uses (uses_failClosed (uses_evaluateAdmission (Call.of_mute rfl)
    _ _ _ _))) fun d => ?_
  split
  · exact minded_bind (minded_store rfl) fun _ => minded_pure _
  · exact minded_enforce _ _ _ _ (fun event hcls hsource => .rejected hparse hauth hcls hsource) d

/-- A containment under a designator's token. -/
theorem minded_contain {x : NodeId} {identity reason : String} {source : Option String}
    {header : Option String} {claims : Claims} (hreq : req.designator = some header)
    (hgrant : Grants g answers header "designator" claims) :
    Minded g answers req (contain g x identity reason source) := by
  refine minded_bind (minded_store rfl) fun ids => ?_
  refine minded_bind (minded_recurrenceHook fun event hcls hsource =>
    .contained hreq hgrant hcls hsource) fun _ => ?_
  refine minded_bind (minded_store rfl) fun digest => ?_
  refine minded_bind (minded_ext _ rfl) fun eventId => ?_
  refine minded_bind (minded_uses (uses_stampNow (Call.of_mute rfl))) fun detected => ?_
  exact minded_bind (minded_store rfl) fun _ => minded_pure _

theorem minded_attemptSafeContinuity (ids : List NodeId) (event : QuarantineEvent) :
    Minded g answers req (attemptSafeContinuity g ids event) :=
  minded_uses (uses_attemptSafeContinuity g (Call.of_mute rfl) ids event)

theorem minded_attemptReconstruction (root : NodeId) :
    Minded g answers req (attemptReconstruction g root) :=
  minded_uses
    (uses_attemptReconstruction g (Call.of_mute rfl) (fun _ => Call.of_mute rfl) root)

theorem minded_designatePoison (header : Option String) (e : DesignationEvent) :
    Minded g answers (.designate header e) (designatePoison g header e) := by
  refine minded_bind_ends (minded_uses (uses_verifyRole g (Call.of_mute rfl) _ _))
    (ends_verifyRole header "designator") fun claims hgrant => ?_
  refine minded_bind (minded_uses (uses_limitDesignations g (Call.of_mute rfl) _ _)) fun _ => ?_
  refine minded_withExclusive (minded_withTransaction ?_)
  refine minded_bind (minded_store rfl) fun exists_ => ?_
  refine minded_bind (minded_store rfl) fun quarantined => ?_
  split
  · exact minded_pure _
  · split
    · exact minded_pure _
    · refine minded_bind (minded_contain rfl hgrant) fun contained => ?_
      exact minded_bind (minded_attemptSafeContinuity _ _) fun continuity =>
        minded_bind (minded_attemptReconstruction _) fun _ => minded_pure _

theorem minded_ingestDetectorEvent (header : Option String) (source : String) (raw : RawEvent) :
    Minded g answers (.detector header source raw) (ingestDetectorEvent g header source raw) := by
  refine minded_bind (minded_uses (uses_verifyRole g (Call.of_mute rfl) _ _)) fun _ => ?_
  cases detectorRegistry source with
  | none => exact fun _ => trivial
  | some d =>
    refine minded_bind (minded_uses (uses_recordRawEvent (Call.of_mute rfl) _ _)) fun _ => ?_
    refine minded_bind (minded_uses (Act.uses_raiseIf _ _)) fun _ => ?_
    cases toDesignation g.env d raw with
    | error reason => exact minded_pure _
    | ok e =>
      refine minded_bind_ends (minded_uses (uses_verifyRole g (Call.of_mute rfl) _ _))
        (ends_verifyRole header "designator") fun claims hgrant => ?_
      refine minded_bind (minded_uses (uses_limitDesignations g (Call.of_mute rfl) _ _))
        fun _ => ?_
      refine minded_bind (minded_withExclusive ?_) fun out => ?_
      · refine minded_bind (minded_store rfl) fun exists_ => ?_
        refine minded_bind (minded_store rfl) fun quarantined => ?_
        split
        · exact fun _ => trivial
        · split
          · exact minded_pure _
          · exact minded_bind (minded_contain rfl hgrant) fun _ => minded_pure _
      · cases out with
        | none => exact minded_pure _
        | some contained =>
          exact minded_bind (minded_attemptSafeContinuity _ _) fun continuity =>
            minded_bind (minded_attemptReconstruction _) fun _ => minded_pure _

theorem minded_observeRecurrence (header : Option String) (e : ObserveEvent) :
    Minded g answers (.observe header e) (observeRecurrence g header e) := by
  refine minded_bind_ends (minded_uses (uses_verifyRole g (Call.of_mute rfl) _ _))
    (ends_verifyRole header "designator") fun claims hgrant => ?_
  refine minded_bind_ends (minded_uses (Act.uses_raiseIf _ _)) (Act.ends_raiseIf _ _)
    fun _ hclass => ?_
  have hclass : e.recurrenceClass ∈ observedClasses :=
    Decidable.not_not.mp (of_decide_eq_false hclass)
  refine minded_bind (minded_uses (uses_limitObservations g (Call.of_mute rfl) _ _)) fun _ => ?_
  have hsignal : (e.recurrenceClass = "VERIFIER_CONTRADICTION" →
      ∃ key, g.env.ecdsaVerify key (e.adapterSignature.getD "") e.nodeId = true) →
      Minded g answers (.observe header e) (processRecurrence g e.nodeId e.recurrenceClass
        (claims.sub.getD "unknown") e.evidence >>= fun _ =>
          pure ({ reply := .success "" } : Response)) := by
    intro hsigned
    refine minded_bind (fun l => ?_) fun _ => minded_pure _
    exact (sat_signal (fun event hnode hcls hsource =>
      .observed hgrant hnode hcls hclass hsource hsigned) fun h => absurd hclass h).mono
        fun _ _ _ => trivial
  split
  · -- a contradiction is signed
    refine minded_bind_ends (minded_uses (uses_checkContradiction g (Call.of_mute rfl) e))
      (Φ := fun _ => ∃ key, g.env.ecdsaVerify key (e.adapterSignature.getD "") e.nodeId = true) ?_
      fun _ hsigned => hsignal fun _ => hsigned
    refine Act.ends_bind (Act.ends_true _) fun _ _ => Act.ends_bind (Act.ends_true _) fun key _ =>
      Act.ends_bind (Act.ends_true _) fun _ _ => ?_
    refine Prog.Ends.mono (Act.ends_raiseIf _ _) fun r hr a ha => ⟨key.getD "", ?_⟩
    simpa using hr a ha
  · rename_i hne
    exact hsignal fun h => absurd h hne

/-- **Every handler does its duty.** -/
theorem minded_handle (req : Request) : Minded g answers req (req.handle g) := by
  cases req with
  | submitCandidate bytes body => exact minded_submitCandidate bytes body
  | designate header e => exact minded_designatePoison header e
  | detector header source raw => exact minded_ingestDetectorEvent header source raw
  | observe header e => exact minded_observeRecurrence header e
  | _ => exact minded_uses (uses_handle g _ (Call.of_mute rfl))

end Task

/-! ## 4. The books -/

/-- The rows an event has put into the withdrawal ledger. -/
def Db.withdrawnBy (db : Db) (event : RecurrenceEvent) : List Withdrawal :=
  db.withdrawalLedger.filter fun row => row.triggeringEventId = event.eventId

/-- What an event stands for that was recorded under one of the requests `reqs`. -/
structure Db.Vouches (g : Setup) (answers : Answers) (reqs : List Request) (db : Db)
    (event : RecurrenceEvent) : Prop where
  answered : ∃ req ∈ reqs, MaySignal g answers req event
  hooked : event.recurrenceClass ∉ observedClasses →
    event.nodeId ∈ db.reintegrationHorizon.map Horizon.nodeId
  withdrawn : event.escalated = false → event.nodeId ∈ db.withdrawn ∧
    ((db.withdrawnBy event).length : Int) ≤ g.settings.maxWithdrawalAmplification
  escalated : event.escalated = true → db.withdrawnBy event = []

/-- The books of a database that was `db₀`. -/
structure Db.Audited (g : Setup) (answers : Answers) (reqs : List Request) (db db₀ : Db) : Prop where
  wf : db.toLineage.Wf
  triggers : ∀ row ∈ db.withdrawalLedger,
    row.triggeringEventId ∈ db.recurrenceEvents.map RecurrenceEvent.eventId
  events : ∀ event ∈ db.recurrenceEvents,
    event ∈ db₀.recurrenceEvents ∨ db.Vouches g answers reqs event
  rows : ∀ row ∈ db.withdrawalLedger, row ∈ db₀.withdrawalLedger ∨
    ∃ event ∈ db.recurrenceEvents, event.eventId = row.triggeringEventId ∧
      event.escalated = false ∧ db.Vouches g answers reqs event ∧
      Reach.Within db.toLineage.Edge g.settings.maxTraversalDepth.toNat event.nodeId row.nodeId

section Books

variable {g : Setup} {answers : Answers} {reqs : List Request} {db₀ db db' : Db}

/-- Paths stay. -/
theorem Db.Grows.within (h : db.Grows db') {d : ℕ} {x y : NodeId}
    (hxy : Reach.Within db.toLineage.Edge d x y) : Reach.Within db'.toLineage.Edge d x y := by
  refine hxy.transfer (S := fun _ => True) (fun _ _ _ _ => trivial) (fun a b _ _ hab => ?_) trivial
  obtain ⟨e, he, hparent, hchild⟩ := hab
  exact ⟨e, h.edges.subset he, hparent, hchild⟩

theorem Db.Vouches.grow {event : RecurrenceEvent} (h : db.Vouches g answers reqs event)
    (hgrows : db.Grows db') (hrows : db'.withdrawnBy event = db.withdrawnBy event) :
    db'.Vouches g answers reqs event where
  answered := h.answered
  hooked := fun hcls => hgrows.reintegrationHorizon _ (h.hooked hcls)
  withdrawn := by
    intro hsmall
    rw [hrows]
    obtain ⟨hnode, hcount⟩ := h.withdrawn hsmall
    refine ⟨?_, hcount⟩
    obtain ⟨row, hrow, hid⟩ := List.mem_map.mp hnode
    exact List.mem_map.mpr ⟨row, hgrows.withdrawalLedger.subset hrow, hid⟩
  escalated := fun hlarge => hrows.trans (h.escalated hlarge)

/-- Writes of other tables. -/
theorem Db.Audited.grow (h : db.Audited g answers reqs db₀) (hwf : db'.toLineage.Wf)
    (hgrows : db.Grows db') (hevents : db'.recurrenceEvents = db.recurrenceEvents)
    (hledger : db'.withdrawalLedger = db.withdrawalLedger) : db'.Audited g answers reqs db₀ where
  wf := hwf
  triggers := by
    rw [hevents, hledger]
    exact h.triggers
  events := by
    rw [hevents]
    intro event hevent
    exact (h.events event hevent).imp_right fun hs =>
      hs.grow hgrows (by rw [Db.withdrawnBy, Db.withdrawnBy, hledger])
  rows := by
    rw [hevents, hledger]
    intro row hrow
    refine (h.rows row hrow).imp_right ?_
    rintro ⟨event, hevent, hid, hsmall, hs, hpath⟩
    exact ⟨event, hevent, hid, hsmall,
      hs.grow hgrows (by rw [Db.withdrawnBy, Db.withdrawnBy, hledger]), hgrows.within hpath⟩

/-- Every row of a transaction has the id of its event. -/
theorem Db.trigger_of_mem_withdrawals {event : RecurrenceEvent} {now : Time} : ∀ {ids : List NodeId}
    {row : Withdrawal}, row ∈ withdrawals event now ids → row.triggeringEventId = event.eventId
  | [], row, h => absurd h List.not_mem_nil
  | x :: xs, row, h => by
    rw [withdrawals, List.mem_cons, List.mem_map] at h
    rcases h with rfl | ⟨y, -, rfl⟩
    · rfl
    · rfl

theorem RecurrenceEvent.withdraws_small {event : RecurrenceEvent} (h : event.escalated = false)
    (ids : List NodeId) : event.withdraws ids = ids := by
  rw [RecurrenceEvent.withdraws, h]
  rfl

theorem RecurrenceEvent.withdraws_escalated {event : RecurrenceEvent} (h : event.escalated = true)
    (ids : List NodeId) : event.withdraws ids = [] := if_pos h

/-- **A transaction under a free id** adds rows of its own and leaves those of every older event as
they were. -/
theorem Db.Audited.entered (h : db.Audited g answers reqs db₀) {event : RecurrenceEvent}
    (hfresh : event.eventId ∉ db.recurrenceEvents.map RecurrenceEvent.eventId) (ids : List NodeId)
    (now : Time) :
    ∃ new, new.Sublist (Db.withdrawals event now ids) ∧
      (db.applyWithdrawalTransaction event ids now).withdrawalLedger = db.withdrawalLedger ++ new ∧
      (db.applyWithdrawalTransaction event ids now).withdrawnBy event = new ∧
      ∀ e ∈ db.recurrenceEvents,
        (db.applyWithdrawalTransaction event ids now).withdrawnBy e = db.withdrawnBy e := by
  obtain ⟨new, hnew, hfold⟩ := @Keyed.foldl_insertOrIgnore_split _ _ _ Withdrawal.nodeId
    (Db.withdrawals event now ids) db.withdrawalLedger
  have hledger : (db.applyWithdrawalTransaction event ids now).withdrawalLedger =
      db.withdrawalLedger ++ new := hfold
  have htrigger : ∀ row ∈ new, row.triggeringEventId = event.eventId := fun row hrow =>
    Db.trigger_of_mem_withdrawals (hnew.subset hrow)
  refine ⟨new, hnew, hledger, ?_, fun e he => ?_⟩
  · have hold : db.withdrawalLedger.filter
        (fun row => decide (row.triggeringEventId = event.eventId)) = [] := by
      refine List.filter_eq_nil_iff.mpr fun row hrow hid => ?_
      exact hfresh (of_decide_eq_true hid ▸ h.triggers row hrow)
    rw [Db.withdrawnBy, hledger, List.filter_append, hold, List.nil_append]
    exact List.filter_eq_self.mpr fun row hrow => decide_eq_true (htrigger row hrow)
  · have hne : e.eventId ≠ event.eventId := fun heq => hfresh (heq ▸ List.mem_map_of_mem he)
    have hnone : new.filter (fun row => decide (row.triggeringEventId = e.eventId)) = [] := by
      refine List.filter_eq_nil_iff.mpr fun row hrow hid => ?_
      exact hne ((of_decide_eq_true hid).symm.trans (htrigger row hrow))
    rw [Db.withdrawnBy, Db.withdrawnBy, hledger, List.filter_append, hnone, List.append_nil]

/-- The rows of a signal are no more than its radius, and none when it is escalated. -/
theorem Db.vouches_signal {req : Request} {event : RecurrenceEvent} {radius : List NodeId} {now : Time}
    {new : List Withdrawal} (hreq : req ∈ reqs) (hmay : MaySignal g answers req event)
    (hhooked : event.recurrenceClass ∉ observedClasses →
      event.nodeId ∈ db.reintegrationHorizon.map Horizon.nodeId)
    (hescalated : event.escalated = true ↔
      g.settings.maxWithdrawalAmplification < (radius.length : Int))
    (hroot : event.nodeId ∈ radius)
    (hnew : new.Sublist (Db.withdrawals event now (event.withdraws radius)))
    (hby : (db.applyWithdrawalTransaction event (event.withdraws radius) now).withdrawnBy event =
      new) :
    (db.applyWithdrawalTransaction event (event.withdraws radius) now).Vouches g answers reqs
      event where
  answered := ⟨req, hreq, hmay⟩
  hooked := hhooked
  withdrawn := by
    intro hsmall
    have hall := RecurrenceEvent.withdraws_small hsmall radius
    refine ⟨Db.mem_withdrawn_apply.mpr (Or.inr (by rwa [hall])), ?_⟩
    rw [hby]
    have hlength : new.length ≤ radius.length := by
      calc new.length
        _ ≤ (Db.withdrawals event now (event.withdraws radius)).length := hnew.length_le
        _ = ((Db.withdrawals event now (event.withdraws radius)).map Withdrawal.nodeId).length :=
          (List.length_map _).symm
        _ = radius.length := by rw [Db.withdrawals_ids, hall]
    have hbound : ¬ g.settings.maxWithdrawalAmplification < (radius.length : Int) := by
      rw [← hescalated, hsmall]
      simp
    omega
  escalated := by
    intro hlarge
    rw [hby]
    rw [RecurrenceEvent.withdraws_escalated hlarge, Db.withdrawals] at hnew
    exact List.sublist_nil.mp hnew

/-- **A signal is entered.** -/
theorem Db.Audited.signal (h : db.Audited g answers reqs db₀) {req : Request} {event : RecurrenceEvent}
    {radius : List NodeId} {now : Time}
    (hfresh : event.eventId ∉ db.recurrenceEvents.map RecurrenceEvent.eventId)
    (hreq : req ∈ reqs) (hmay : MaySignal g answers req event)
    (hhooked : event.recurrenceClass ∉ observedClasses →
      event.nodeId ∈ db.reintegrationHorizon.map Horizon.nodeId)
    (hescalated : event.escalated = true ↔
      g.settings.maxWithdrawalAmplification < (radius.length : Int))
    (hroot : event.nodeId ∈ radius)
    (hpaths : ∀ y ∈ radius,
      Reach.Within db.toLineage.Edge g.settings.maxTraversalDepth.toNat event.nodeId y) :
    (db.applyWithdrawalTransaction event (event.withdraws radius) now).Audited g answers reqs
      db₀ := by
  have hgrows : db.Grows (db.applyWithdrawalTransaction event (event.withdraws radius) now) :=
    Store.grows_exec g (.applyWithdrawalTransaction event (event.withdraws radius) now) db
  have hevents : (db.applyWithdrawalTransaction event (event.withdraws radius)
      now).recurrenceEvents = db.recurrenceEvents ++ [event] :=
    Keyed.insertOrReplace_of_notMem hfresh
  obtain ⟨new, hnew, hledger, hby, holder⟩ := h.entered hfresh (event.withdraws radius) now
  have hvouches := Db.vouches_signal hreq hmay hhooked hescalated hroot hnew hby
  have htrigger : ∀ row ∈ new, row.triggeringEventId = event.eventId := fun row hrow =>
    Db.trigger_of_mem_withdrawals (hnew.subset hrow)
  refine ⟨h.wf, ?_, ?_, ?_⟩
  · intro row hrow
    rw [hledger] at hrow
    rw [hevents, List.map_append]
    rcases List.mem_append.mp hrow with hrow | hrow
    · exact List.mem_append_left _ (h.triggers row hrow)
    · exact List.mem_append_right _ (by rw [htrigger row hrow]; exact List.mem_singleton_self _)
  · intro e he
    rw [hevents] at he
    rcases List.mem_append.mp he with he | he
    · exact (h.events e he).imp_right fun hs => hs.grow hgrows (holder e he)
    · rw [List.mem_singleton.mp he]
      exact Or.inr hvouches
  · intro row hrow
    rw [hledger] at hrow
    rw [hevents]
    rcases List.mem_append.mp hrow with hrow | hrow
    · refine (h.rows row hrow).imp_right ?_
      rintro ⟨e, he, hid, hsmall, hs, hpath⟩
      exact ⟨e, List.mem_append_left _ he, hid, hsmall, hs.grow hgrows (holder e he), hpath⟩
    · have hsmall : event.escalated = false := by
        by_contra hlarge
        rw [hby.symm.trans (hvouches.escalated (by simpa using hlarge))] at hrow
        exact absurd hrow List.not_mem_nil
      have hmem : row.nodeId ∈ radius := by
        have hids := List.mem_map_of_mem (f := Withdrawal.nodeId) (hnew.subset hrow)
        rwa [Db.withdrawals_ids, RecurrenceEvent.withdraws_small hsmall] at hids
      exact Or.inr ⟨event, List.mem_append_right _ (List.mem_singleton_self _),
        (htrigger row hrow).symm, hsmall, hvouches, hpaths _ hmem⟩

/-- A call keeps the tables of the lineage well formed. -/
theorem Store.wf_exec (h : db.toLineage.Wf) (c : Store) : (c.exec g db).2.toLineage.Wf := by
  by_cases hloud : c.Loud
  · cases c with
    | commitNode site p => exact h.commitNode
    | applyQuarantineTransaction event ids => exact h.quarantine ids
    | updateRepairCandidate x rc => exact h
    | _ => exact absurd hloud id
  · rw [Store.exec_toLineage g db c hloud]
    exact h

/-- Every other call leaves the two tables alone. -/
theorem Store.exec_signals (db : Db) {c : Store} (hc : (c.kind == .withdrawal) = false) :
    (c.exec g db).2.recurrenceEvents = db.recurrenceEvents ∧
      (c.exec g db).2.withdrawalLedger = db.withdrawalLedger := by
  cases c with
  | applyWithdrawalTransaction event ids now => exact absurd hc (by simp [Store.kind])
  | computeBlastRadius root =>
    obtain ⟨rcs, h⟩ := Db.computeBlastRadius_snd g.settings.maxTraversalDepth root db
    simp only [Store.exec, h]
    exact ⟨rfl, rfl⟩
  | recordShadowDecision s =>
    simp only [Store.exec, Db.recordShadowDecision]
    split
    · exact ⟨rfl, rfl⟩
    · exact ⟨rfl, rfl⟩
  | _ => exact ⟨rfl, rfl⟩

end Books

/-! ## 5. Runs -/

/-- No signal is stored under an id that is taken. -/
def SignalIdsFree : Trans Call Call.Res Exc World
  | .store (.applyWithdrawalTransaction event _ _), w, _, _ =>
    event.eventId ∉ w.db.recurrenceEvents.map RecurrenceEvent.eventId
  | _, _, _, _ => True

/-- What has been read is still true of the database. -/
structure Sighting.Holds (g : Setup) (l : Sighting) (db : Db) : Prop where
  radius : ∀ x ids, l.radius = some (x, ids) → x ∈ ids ∧ ∀ y ∈ ids,
    Reach.Within db.toLineage.Edge g.settings.maxTraversalDepth.toNat x y
  active : ∀ x ∈ l.active, x ∈ db.reintegrationHorizon.map Horizon.nodeId

section Runs

variable {g : Setup} {answers : Answers} {req : Request} {reqs : List Request} {db₀ db db' : Db}

theorem Sighting.Holds.grow {l : Sighting} (h : l.Holds g db) (hgrows : db.Grows db') :
    l.Holds g db' where
  radius := by
    intro x ids hids
    obtain ⟨hx, hpaths⟩ := h.radius x ids hids
    exact ⟨hx, fun y hy => hgrows.within (hpaths y hy)⟩
  active := fun x hx => hgrows.reintegrationHorizon _ (h.active x hx)

/-- Nothing has been read. -/
theorem Sighting.holds_nothing : Sighting.Holds g {} db :=
  ⟨fun _ _ h => absurd h (by simp), fun _ h => absurd h List.not_mem_nil⟩

/-- **A call of the store**: what it reads is true, and what it writes can be audited. -/
theorem Sighting.Holds.exec {l : Sighting} {c : Store} (h : l.Holds g db)
    (hbooks : db.Audited g answers reqs db₀) (hreq : req ∈ reqs)
    (hfresh : ∀ event ids now, c = .applyWithdrawalTransaction event ids now →
      event.eventId ∉ db.recurrenceEvents.map RecurrenceEvent.eventId) :
    ∃ m, Sighting.Step answers (.store c) l (c.exec g db).1 m ∧
      (Sighting.Duty g answers req (.store c) l (c.exec g db).1 m →
        m.Holds g (c.exec g db).2 ∧ (c.exec g db).2.Audited g answers reqs db₀) := by
  have hgrows := Store.grows_exec g c db
  have hother : (c.kind == .withdrawal) = false → (c.exec g db).2.Audited g answers reqs db₀ :=
    fun hc => hbooks.grow (Store.wf_exec hbooks.wf c) hgrows (Store.exec_signals db hc).1
      (Store.exec_signals db hc).2
  cases c with
  | computeBlastRadius x =>
    refine ⟨{ l with radius := some (x, (db.computeBlastRadius g.settings.maxTraversalDepth x).1) },
      ⟨_, rfl, rfl⟩, fun _ => ⟨⟨?_, (h.grow hgrows).active⟩, hother rfl⟩⟩
    rintro y ids hids
    obtain ⟨rfl, rfl⟩ := Prod.mk.inj (Option.some.inj hids)
    refine ⟨mem_sortedSet.mpr (Lineage.root_mem_traverse _ _ _), fun z hz => hgrows.within ?_⟩
    exact (Db.mem_computeBlastRadius hbooks.wf).mp hz
  | getActiveHorizonSet now =>
    refine ⟨{ l with active := db.getActiveHorizonSet now }, ⟨_, rfl, rfl⟩,
      fun _ => ⟨⟨h.radius, fun x hx => ?_⟩, hother rfl⟩⟩
    obtain ⟨row, hrow, rfl⟩ := List.mem_map.mp hx
    exact List.mem_map_of_mem (List.mem_filter.mp hrow).1
  | applyWithdrawalTransaction event ids now =>
    refine ⟨l, rfl, ?_⟩
    rintro ⟨hmay, hhooked, radius, hradius, rfl, hescalated⟩
    obtain ⟨hroot, hpaths⟩ := h.radius _ _ hradius
    exact ⟨h.grow hgrows, hbooks.signal (hfresh event _ now rfl) hreq hmay
      (fun hcls => h.active _ (hhooked hcls)) hescalated hroot hpaths⟩
  | updateRepairCandidate x rc =>
    have hwf := Store.wf_exec (g := g) hbooks.wf (.updateRepairCandidate x rc)
    exact ⟨l, rfl, fun _ => ⟨h.grow hgrows, hbooks.grow hwf hgrows rfl rfl⟩⟩
  | _ => exact ⟨l, rfl, fun _ => ⟨h.grow hgrows, hother rfl⟩⟩

/-- The books of the database and of the copy to go back to; and what the request has read is
true. -/
structure World.Audited (g : Setup) (answers : Answers) (reqs : List Request) (db₀ : Db) (l : Sighting)
    (w : World) : Prop where
  both : w.Both fun db => db.Audited g answers reqs db₀
  seen : l.Holds g w.db

/-- **One step.** -/
theorem World.Audited.step {c : Call} {l : Sighting} {w w' : World} {r : Except Exc c.Res}
    (hreq : req ∈ reqs) (h : w.Audited g answers reqs db₀ l)
    (ht : restrict (Step g answers) SignalIdsFree c w r w') :
    ∃ m, Sighting.Step answers c l r m ∧
      (Sighting.Duty g answers req c l r m → w'.Audited g answers reqs db₀ m) := by
  obtain ⟨ht, hfresh⟩ := ht
  obtain ⟨hboth, hseen⟩ := h
  have hkept : (∀ k : Store, c ≠ .store k) → w'.Both fun db => db.Audited g answers reqs db₀ :=
    fun hc => hboth.step (fun k hk => absurd hk (hc k)) ht
  cases c with
  | store c =>
    obtain ⟨m, hm, hrest⟩ := hseen.exec (c := c) hboth.1 hreq (by
      rintro event ids now rfl
      exact hfresh)
    obtain ⟨rfl, rfl⟩ := ht
    refine ⟨m, hm, fun hduty => ?_⟩
    obtain ⟨hholds, hbooks⟩ := hrest hduty
    exact ⟨⟨hbooks, hboth.2⟩, hholds⟩
  | ext e =>
    obtain ⟨hanswer, rfl⟩ := ht
    exact ⟨l, ⟨hanswer, rfl⟩, fun _ => ⟨hboth, hseen⟩⟩
  | getAdapterKey =>
    obtain ⟨-, rfl⟩ := ht
    exact ⟨l, rfl, fun _ => ⟨hboth, hseen⟩⟩
  | setAdapterKey key =>
    obtain ⟨-, rfl⟩ := ht
    exact ⟨l, rfl, fun _ => ⟨hboth, hseen⟩⟩
  | sync k =>
    have hboth' := hkept fun _ h => by cases h
    obtain ⟨-, rfl⟩ := ht
    cases k with
    | rollback => exact ⟨{}, rfl, fun _ => ⟨hboth', Sighting.holds_nothing⟩⟩
    | _ => exact ⟨l, rfl, fun _ => ⟨hboth', hseen⟩⟩

/-- **The withdrawal ledger is explained by the signals.**  Start from a ledger whose rows name
stored events, and handle any requests, one at a time.  Then each row of the withdrawal ledger that
is not one of the first is in reach of the node of a stored event, which was not escalated; and each
event that is not one of the first is one its request answers for, on a reintegrated node when a
hook has raised it, and withdraws its node with at most `MAX_WITHDRAWAL_AMPLIFICATION` rows in all,
or, escalated, nothing. -/
theorem withdrawals_explained {w w' : World} {hs : List Handled} (hsaved : w.saved = none)
    (hwf : w.db.toLineage.Wf)
    (hstart : ∀ row ∈ w.db.withdrawalLedger,
      row.triggeringEventId ∈ w.db.recurrenceEvents.map RecurrenceEvent.eventId)
    (hrun : Run g (Step g answers) w hs w')
    (hfresh : ∀ k ∈ hs, ∀ e ∈ k.trace, SignalIdsFree e.call e.before e.answer e.after) :
    (∀ row ∈ w'.db.withdrawalLedger, row ∈ w.db.withdrawalLedger ∨
      ∃ event ∈ w'.db.recurrenceEvents, event.eventId = row.triggeringEventId ∧
        event.escalated = false ∧ w'.db.Vouches g answers (hs.map Handled.request) event ∧
        Reach.Within w'.db.toLineage.Edge g.settings.maxTraversalDepth.toNat event.nodeId
          row.nodeId) ∧
    ∀ event ∈ w'.db.recurrenceEvents,
      event ∈ w.db.recurrenceEvents ∨ w'.db.Vouches g answers (hs.map Handled.request) event := by
  have hfirst : w.Both fun db => db.Audited g answers (hs.map Handled.request) w.db :=
    World.both_of_saved hsaved ⟨hwf, hstart, fun _ h => Or.inl h, fun _ h => Or.inl h⟩
  have hbooks := (hrun.restrict hfresh).invariant_of (P := Trans.any)
    (Q := fun req => req ∈ hs.map Handled.request) (fun req w₁ hreq h₁ => ?_)
    (fun _ hk => List.mem_map_of_mem hk) hfirst
  · exact ⟨hbooks.1.1.rows, hbooks.1.1.events⟩
  · have hminded : Minded g answers req (req.handle g) := minded_handle req
    refine (Prog.Sat.simulate (I := World.Audited g answers (hs.map Handled.request) w.db) ?_
      (hminded {}) ⟨h₁, Sighting.holds_nothing⟩).mono ?_
    · exact fun c l w₁ r w₂ h ht => h.step hreq ht
    · rintro r w₂ ⟨l, h₂, -⟩
      exact h₂.both

end Runs

/-! ## 6. Two signals, and a submission between them -/

/-- Whether the id of the event is free. -/
def signalIdFree : Call → World → Bool
  | .store (.applyWithdrawalTransaction event _ _), w =>
    event.eventId ∉ w.db.recurrenceEvents.map RecurrenceEvent.eventId
  | _, _ => true

theorem signalIdsFree_of_check {c : Call} {w w' : World} {r : Except Exc c.Res}
    (h : signalIdFree c w = true) : SignalIdsFree c w r w' := by
  cases c with
  | store c =>
    cases c with
    | applyWithdrawalTransaction event ids now =>
      simpa only [signalIdFree, SignalIdsFree, decide_eq_true_eq] using h
    | _ => trivial
  | _ => trivial

/-- A failure of the root, a submission below it, and the failure again. -/
def signalRequests : List Request :=
  [openFailure "clean-parent-1", openSubmission "node-1" ["clean-parent-1"], openFailure "clean-parent-1"]

/-- The first signal withdraws the root, the second what has been built on it. -/
theorem withdrawals_explained_signals : ∃ hs w,
    Run openSetup (Step openSetup Answers.lawful) (World.initial openSetup {} none) hs w ∧
    hs.map Handled.request = signalRequests ∧
    w.db.withdrawalLedger.map (fun row => (row.nodeId, row.triggeringEventId)) =
      [("clean-parent-1", "0"), ("node-1", "2")] ∧
    ∀ row ∈ w.db.withdrawalLedger, ∃ event ∈ w.db.recurrenceEvents,
      event.eventId = row.triggeringEventId ∧
        Reach.Within w.db.toLineage.Edge 8 event.nodeId row.nodeId := by
  obtain ⟨hs, hrun, hreqs, hfresh⟩ := Script.exists_checked_run openSetup signalIdFree
    (P := SignalIdsFree) (fun _ _ _ _ h _ => signalIdsFree_of_check h) (openRun signalRequests)
    (World.initial openSetup {} none) (by decide +kernel)
  have hempty : (World.initial openSetup {} none).db.withdrawalLedger = [] := rfl
  have hexplained := withdrawals_explained rfl (Lineage.wf_reset _ _).1
    (fun row hrow => absurd hrow (by rw [hempty]; exact List.not_mem_nil)) hrun hfresh
  refine ⟨hs, _, hrun, hreqs.trans (openRun_requests _), by decide +kernel, fun row hrow => ?_⟩
  rcases hexplained.1 row hrow with hold | ⟨event, hevent, hid, -, -, hpath⟩
  · rw [hempty] at hold
    exact absurd hold List.not_mem_nil
  · exact ⟨event, hevent, hid, hpath⟩

end GovernorGateway
