/-
# What an observation touches

`/observe` (`src/governor_service.py`) is to record that a node has recurred.  It goes through
`compute_blast_radius`, which is a query by its name and ALSO CLASSIFIES: a compaction that carries
something of the radius gets a record in `repair_candidates`, although nothing has been quarantined.

`observe_frame_iff` says exactly when an observation leaves everything but the recurrence tables as
it was: when it is turned away, or when every record the classification would store is stored
already.
-/
import GovernorGateway.Properties.Withdrawals
import GovernorGateway.Sqlite.Verdict

namespace GovernorGateway

open Effects

/-! ## 1. The frame -/

/-- **Only recurrence state has grown.**  Rows have been appended to `signal_attempts`,
`recurrence_events` and `withdrawal_ledger`; every other table has the rows it had. -/
def OnlyRecurrence (db db' : Db) : Prop :=
  ∃ attempts events rows rcs,
    db' = { db with
      signalAttempts := db.signalAttempts ++ attempts
      recurrenceEvents := db.recurrenceEvents ++ events
      withdrawalLedger := db.withdrawalLedger ++ rows
      repairCandidates := rcs } ∧
    ∀ row, row ∈ rcs ↔ row ∈ db.repairCandidates

/-- The classification on the way of a traversal has nothing to store that is not stored: what it
makes of an affected compaction is the record that compaction has. -/
def Db.Settled (D : Int) (x : NodeId) (db : Db) : Prop :=
  ∀ y ∈ db.affectedCompactions (db.computeBlastRadius D x).1, ∀ rc,
    db.classify (db.toLineage.traverse D x) (db.hasExternalEffects (db.computeBlastRadius D x).1) y =
        some rc →
      ∀ rc', (y, rc') ∈ db.repairCandidates ↔ rc' = rc

theorem Db.settled_iff {D : Int} {x : NodeId} {db : Db} : db.Settled D x ↔
    ∀ row, row ∈ (db.computeBlastRadius D x).2.repairCandidates ↔ row ∈ db.repairCandidates :=
  Db.classifyAll_same_iff.symm

/-! ## 2. Who is let through -/

variable {g : Setup} {answers : Answers} {header : Option String} {e : ObserveEvent}

/-- The signature a contradiction needs. -/
def ObserveEvent.Signed (g : Setup) (key : Option String) (e : ObserveEvent) : Prop :=
  e.adapterSignature.getD "" ≠ "" ∧ key.getD "" ≠ "" ∧
    g.env.ecdsaVerify (key.getD "") (e.adapterSignature.getD "") e.nodeId = true

/-- The rate limits let the signal through. -/
def Db.RateAllows (g : Setup) (source since : String) (db : Db) : Prop :=
  (db.countRecentSignals source since : Int) < g.settings.recurrenceSignalRateLimit ∧
    (db.countRecentSignalsGlobal since : Int) < g.settings.recurrenceSignalGlobalLimit

/-- The observation gets past the checks, its token being checked at `t` and the window of the rate
limit ending at `t'`. -/
def ObserveAccepted (g : Setup) (db : Db) (key : Option String) (t t' : Time)
    (header : Option String) (e : ObserveEvent) : Prop :=
  ∃ claims, verifyRoleJwt g.env t header "designator" = .ok claims ∧
    e.recurrenceClass ∈ ["FUNCTIONAL_FAILURE", "VERIFIER_CONTRADICTION"] ∧
    db.RateAllows g (claims.sub.getD "unknown")
      (Clock.stamp (t' - Clock.seconds g.settings.continuationHorizonSeconds)) ∧
    (e.recurrenceClass = "VERIFIER_CONTRADICTION" → e.Signed g key)

/-- What the clock shows to the two checks, and that ids are fresh. -/
def ObservedAt (t t' : Time) : Trans Call Call.Res Exc World
  | .ext (.now .token), _, r, _ => r = .ok t
  | .ext (.now .rateWindow), _, r, _ => r = .ok t'
  | .store (.applyWithdrawalTransaction event _ _), w, _, _ =>
    event.eventId ∉ w.db.recurrenceEvents.map RecurrenceEvent.eventId
  | _, _, _, _ => True

section Checks

variable {t t' : Time} {w : World}

theorem sat_verifyRole (role : String) :
    Act.Sat (restrict (Step g answers) (ObservedAt t t')) Trans.any (verifyRole g header role)
      (fun r w' => w' = w ∧ r = verifyRoleJwt g.env t header role) w := by
  rw [verifyRole, Act.sat_bind]
  intro r w₁ hstep
  obtain ⟨⟨-, hw₁⟩, hr⟩ := hstep
  change r = .ok t at hr
  subst w₁ hr
  exact ⟨trivial, rfl, rfl⟩

theorem sat_recordSignal (hlaw : answers.Lawful) (source : String) (x : NodeId)
    (kind outcome : String) :
    Act.Sat (restrict (Step g answers) (ObservedAt t t')) Trans.any (recordSignal source x kind outcome)
      (fun r w' => r = .ok () ∧ w.db.Attempted w'.db ∧ w'.adapterKey = w.adapterKey) w := by
  rw [recordSignal, Act.sat_bind]
  intro r w₁ hstep
  obtain ⟨⟨hr, hw₁⟩, -⟩ := hstep
  subst w₁
  obtain ⟨now, rfl⟩ := hlaw _ _ hr
  refine ⟨trivial, ?_⟩
  rintro r w₂ ⟨⟨rfl, rfl⟩, -⟩
  exact ⟨trivial, rfl, ⟨_, rfl⟩, rfl⟩

/-- The two limits, counted in the state the request finds. -/
theorem sat_limitObservations (hlaw : answers.Lawful) (source : String) (x : NodeId) :
    Act.Sat (restrict (Step g answers) (ObservedAt t t')) Trans.any (limitObservations g source x)
      (fun r w' => w.db.Attempted w'.db ∧ w'.adapterKey = w.adapterKey ∧
        (r = .ok () ↔ w.db.RateAllows g source
          (Clock.stamp (t' - Clock.seconds g.settings.continuationHorizonSeconds)))) w := by
  have hlimited : ∀ detail : String, ¬ w.db.RateAllows g source
      (Clock.stamp (t' - Clock.seconds g.settings.continuationHorizonSeconds)) →
      Act.Sat (restrict (Step g answers) (ObservedAt t t')) Trans.any
        (recordSignal source x "recurrence" "RATE_LIMITED" >>= fun _ =>
          (Act.raise (.text 429 detail) : Handler Unit))
        (fun r w' => w.db.Attempted w'.db ∧ w'.adapterKey = w.adapterKey ∧
          (r = .ok () ↔ w.db.RateAllows g source
            (Clock.stamp (t' - Clock.seconds g.settings.continuationHorizonSeconds)))) w := by
    intro detail hnot
    rw [Act.sat_bind]
    refine (sat_recordSignal hlaw source x "recurrence" "RATE_LIMITED").mono ?_
    rintro r w' ⟨rfl, hattempted, hkey⟩
    exact ⟨hattempted, hkey, fun h => absurd h (by simp), fun h => absurd h hnot⟩
  rw [limitObservations, rateWindowStart, Act.sat_bind, Act.sat_bind]
  intro r w₁ hstep
  obtain ⟨⟨-, hw₁⟩, hr⟩ := hstep
  change r = .ok t' at hr
  subst w₁ hr
  refine ⟨trivial, ?_⟩
  change Act.Sat _ _ (store (.countRecentSignals source _) >>= _) _ w
  rw [Act.sat_bind]
  rintro r w₁ ⟨⟨rfl, rfl⟩, -⟩
  refine ⟨trivial, ?_⟩
  change Act.Sat _ _ (if g.settings.recurrenceSignalRateLimit ≤ (w.db.countRecentSignals source _ : Int)
    then _ else _) _ w
  split
  · rename_i hreached
    exact hlimited _ fun h => absurd h.1 (by omega)
  · rename_i hbelow
    rw [Act.sat_bind]
    rintro r w₁ ⟨⟨rfl, rfl⟩, -⟩
    refine ⟨trivial, ?_⟩
    change Act.Sat _ _ (if g.settings.recurrenceSignalGlobalLimit ≤
      (w.db.countRecentSignalsGlobal _ : Int) then _ else _) _ w
    split
    · rename_i hreached
      exact hlimited _ fun h => absurd h.2 (by omega)
    · rename_i hbelow'
      refine (sat_recordSignal hlaw source x "recurrence" "PENDING").mono ?_
      rintro r w' ⟨rfl, hattempted, hkey⟩
      exact ⟨hattempted, hkey, fun _ => ⟨by omega, by omega⟩, fun _ => rfl⟩

theorem sat_checkContradiction {C : Trans Call Call.Res Exc World} :
    Act.Sat (restrict (Step g answers) C) Trans.any (checkContradiction g e)
      (fun r w' => w' = w ∧ (r = .ok () ↔ e.Signed g w.adapterKey)) w := by
  rw [checkContradiction, Act.sat_bind, Act.sat_raiseIf]
  constructor
  · intro hempty
    refine ⟨rfl, fun h => absurd h (by simp), fun h => ?_⟩
    exact absurd (of_decide_eq_true hempty) h.1
  · intro hsignature
    change Act.Sat _ _ (getAdapterKey >>= _) _ w
    rw [Act.sat_bind]
    rintro r w₁ ⟨⟨rfl, rfl⟩, -⟩
    refine ⟨trivial, ?_⟩
    change Act.Sat _ _ (Act.raiseIf (decide (w₁.adapterKey.getD "" = "")) _ >>= _) _ w₁
    rw [Act.sat_bind, Act.sat_raiseIf]
    constructor
    · intro hkey
      refine ⟨rfl, fun h => absurd h (by simp), fun h => ?_⟩
      exact absurd (of_decide_eq_true hkey) h.2.1
    · intro hkey
      change Act.Sat _ _ (Act.raiseIf (!g.env.ecdsaVerify _ _ _) _) _ w₁
      rw [Act.sat_raiseIf]
      constructor
      · intro hforged
        refine ⟨rfl, fun h => absurd h (by simp), fun h => ?_⟩
        rw [h.2.2] at hforged
        exact absurd hforged (by simp)
      · intro hvalid
        refine ⟨rfl, fun _ => ⟨?_, ?_, ?_⟩, fun _ => rfl⟩
        · exact of_decide_eq_false hsignature
        · exact of_decide_eq_false hkey
        · simpa using hvalid

/-- An observation that is let through does what `process_recurrence` does; one that is not leaves
nothing but its attempt. -/
theorem sat_observeRecurrence (hlaw : answers.Lawful) :
    Act.Sat (restrict (Step g answers) (ObservedAt t t')) Trans.any (observeRecurrence g header e)
      (fun _ w' =>
        (¬ ObserveAccepted g w.db w.adapterKey t t' header e ∧ w.db.Attempted w'.db) ∨
        (ObserveAccepted g w.db w.adapterKey t t' header e ∧ ∃ source event db₁,
          w.db.Attempted db₁ ∧ Db.Signalled g e.nodeId e.recurrenceClass source event db₁ w'.db ∧
            event.eventId ∉ db₁.recurrenceEvents.map RecurrenceEvent.eventId)) w := by
  rw [observeRecurrence, Act.sat_bind]
  refine (sat_verifyRole "designator").mono ?_
  rintro r w₁ ⟨rfl, hclaims⟩
  cases r with
  | error exc =>
    refine Or.inl ⟨?_, Db.Attempted.refl _⟩
    rintro ⟨claims, hclaims', -⟩
    exact absurd (hclaims.trans hclaims') (by simp)
  | ok claims =>
    -- the claims are the only ones the acceptance can be about
    have hunique : ∀ claims', verifyRoleJwt g.env t header "designator" = .ok claims' →
        claims' = claims := fun claims' h => Except.ok.inj (h.symm.trans hclaims.symm)
    change Act.Sat _ _ (Act.raiseIf (decide (e.recurrenceClass ∉
      ["FUNCTIONAL_FAILURE", "VERIFIER_CONTRADICTION"])) _ >>= _) _ w₁
    rw [Act.sat_bind, Act.sat_raiseIf]
    constructor
    · intro hunknown
      refine Or.inl ⟨?_, Db.Attempted.refl _⟩
      rintro ⟨-, -, hclass, -⟩
      exact absurd hclass (of_decide_eq_true hunknown)
    · intro hknown
      have hclass : e.recurrenceClass ∈ ["FUNCTIONAL_FAILURE", "VERIFIER_CONTRADICTION"] :=
        not_not.mp (of_decide_eq_false hknown)
      change Act.Sat _ _ (limitObservations g (claims.sub.getD "unknown") e.nodeId >>= _) _ w₁
      rw [Act.sat_bind]
      refine (sat_limitObservations hlaw (claims.sub.getD "unknown") e.nodeId).mono ?_
      rintro r w₂ ⟨hattempted, hkey, hrate⟩
      cases r with
      | error exc =>
        refine Or.inl ⟨?_, hattempted⟩
        rintro ⟨claims', hclaims', -, hallowed, -⟩
        rw [hunique claims' hclaims'] at hallowed
        exact absurd (hrate.mpr hallowed) (by simp)
      | ok u =>
        have hprocess : (e.recurrenceClass = "VERIFIER_CONTRADICTION" → e.Signed g w₁.adapterKey) →
            Act.Sat (restrict (Step g answers) (ObservedAt t t')) Trans.any
              (processRecurrence g e.nodeId e.recurrenceClass (claims.sub.getD "unknown")
                  e.evidence >>= fun _ => pure ({ reply := .success "" } : Response))
              (fun _ w' =>
                (¬ ObserveAccepted g w₁.db w₁.adapterKey t t' header e ∧ w₁.db.Attempted w'.db) ∨
                (ObserveAccepted g w₁.db w₁.adapterKey t t' header e ∧ ∃ source event db₁,
                  w₁.db.Attempted db₁ ∧
                    Db.Signalled g e.nodeId e.recurrenceClass source event db₁ w'.db ∧
                    event.eventId ∉ db₁.recurrenceEvents.map RecurrenceEvent.eventId)) w₂ := by
          intro hsigned
          rw [Act.sat_bind]
          refine (signalled_of_step hlaw e.nodeId e.recurrenceClass (claims.sub.getD "unknown")
            e.evidence w₂).mono ?_
          rintro r w₃ ⟨rfl, event, hsignalled, ids, now, db₁, hevents, hfresh⟩
          change event.eventId ∉ db₁.recurrenceEvents.map RecurrenceEvent.eventId at hfresh
          rw [hevents] at hfresh
          refine Or.inr ⟨⟨claims, hclaims.symm, hclass, hrate.mp rfl, hsigned⟩, _, event, w₂.db,
            hattempted, hsignalled, hfresh⟩
        change Act.Sat _ _ (if e.recurrenceClass = "VERIFIER_CONTRADICTION" then _ else _) _ w₂
        split
        · rename_i hcontradiction
          rw [Act.sat_bind]
          refine sat_checkContradiction.mono ?_
          rintro r w₃ ⟨rfl, hsigned⟩
          rw [hkey] at hsigned
          cases r with
          | error exc =>
            refine Or.inl ⟨?_, hattempted⟩
            rintro ⟨-, -, -, -, hsigned'⟩
            exact absurd (hsigned.mpr (hsigned' hcontradiction)) (by simp)
          | ok u => exact hprocess fun _ => hsigned.mp rfl
        · rename_i hfailure
          exact hprocess fun h => absurd h hfailure

end Checks

/-! ## 3. Exactly when the frame holds -/

theorem Db.Attempted.onlyRecurrence {db db' : Db} (h : db.Attempted db') : OnlyRecurrence db db' := by
  obtain ⟨rows, rfl⟩ := h
  exact ⟨rows, [], [], db.repairCandidates, by simp, fun _ => Iff.rfl⟩

/-- A signal keeps the frame exactly when its traversal has nothing new to store. -/
theorem Db.Signalled.onlyRecurrence_iff {x : NodeId} {cls source : String} {event : RecurrenceEvent}
    {db db₁ db' : Db} (hattempted : db.Attempted db₁)
    (h : Db.Signalled g x cls source event db₁ db')
    (hfresh : event.eventId ∉ db₁.recurrenceEvents.map RecurrenceEvent.eventId) :
    OnlyRecurrence db db' ↔ db.Settled g.settings.maxTraversalDepth x := by
  obtain ⟨attempts, rfl⟩ := hattempted
  obtain ⟨now, -, rfl⟩ := h
  -- the attempts are no part of what the traversal looks at
  have hsettled : db.Settled g.settings.maxTraversalDepth x ↔ Db.Settled g.settings.maxTraversalDepth x
      { db with signalAttempts := db.signalAttempts ++ attempts } := Iff.rfl
  obtain ⟨rcs, hrcs⟩ := Db.computeBlastRadius_snd g.settings.maxTraversalDepth x
    { db with signalAttempts := db.signalAttempts ++ attempts }
  obtain ⟨rows, hrows⟩ : db.withdrawalLedger <+:
      (Db.withdrawals event now (event.withdraws (Db.computeBlastRadius g.settings.maxTraversalDepth x
        { db with signalAttempts := db.signalAttempts ++ attempts }).1)).foldl
          (Keyed.insertOrIgnore Withdrawal.nodeId) db.withdrawalLedger :=
    Keyed.prefix_foldl_insertOrIgnore _ _
  have hevents := Keyed.insertOrReplace_of_notMem hfresh
  rw [hsettled, Db.settled_iff, hrcs]
  constructor
  · rintro ⟨attempts', events, rows', rcs', hdb, hall⟩
    have hrcs' : rcs = rcs' := congrArg Db.repairCandidates hdb
    rw [← hrcs'] at hall
    exact hall
  · intro hall
    refine ⟨attempts, [event], rows, rcs, ?_, hall⟩
    rw [hrows, ← hevents]
    rfl

/-- **The frame of an observation.**  Whatever the observation and its outcome, the tables other
than the three recurrence tables are as before exactly when the request is turned away by its
checks, or the classification on the way of the traversal finds all it would store stored. -/
theorem observe_frame_iff (hlaw : answers.Lawful) {t t' : Time} {w w' : World}
    {r : Except Exc Response} {tr : List (Event Call Call.Res Exc World)}
    (hexec : Exec (Step g answers) ((Request.observe header e).handle g).tree w tr r w')
    (hclock : ∀ k ∈ tr, ObservedAt t t' k.call k.before k.answer k.after) :
    OnlyRecurrence w.db w'.db ↔ ¬ ObserveAccepted g w.db w.adapterKey t t' header e ∨
      w.db.Settled g.settings.maxTraversalDepth e.nodeId := by
  have hsat := @sat_observeRecurrence g answers header e t t' w hlaw
  rcases (Prog.Sat.sound hsat (hexec.restrict hclock)).2 with ⟨hrefused, hattempted⟩ |
    ⟨haccepted, source, event, db₁, hattempted, hsignalled, hfresh⟩
  · exact ⟨fun _ => Or.inl hrefused, fun _ => hattempted.onlyRecurrence⟩
  · rw [hsignalled.onlyRecurrence_iff hattempted hfresh]
    constructor
    · exact Or.inr
    · rintro (hrefused | hsettled)
      · exact absurd haccepted hrefused
      · exact hsettled

/-! ## 4. Two observations -/

/-- Whether the call is what `ObservedAt 0 0` says of it. -/
def observedCheck : Call → World → Bool
  | .store (.applyWithdrawalTransaction event _ _), w =>
    event.eventId ∉ w.db.recurrenceEvents.map RecurrenceEvent.eventId
  | _, _ => true

theorem exists_observed (x : NodeId) (w : World)
    (hcheck : ((openFailure x).handle openSetup).tree.passes ((openScript "7").step openSetup)
      observedCheck w = true) :
    ∃ tr, Exec (Step openSetup Answers.lawful) ((openFailure x).handle openSetup).tree w tr
        ((openScript "7").handle openSetup (openFailure x) w).1
        ((openScript "7").handle openSetup (openFailure x) w).2 ∧
      ∀ k ∈ tr, ObservedAt 0 0 k.call k.before k.answer k.after := by
  refine Prog.run_exec (fun c w => Script.step_spec (g := openSetup) (o := openScript "7") c w) ?_
    _ w hcheck
  intro c w h
  cases c with
  | store c =>
    cases c with
    | applyWithdrawalTransaction event ids now =>
      have hfresh : event.eventId ∉ w.db.recurrenceEvents.map RecurrenceEvent.eventId :=
        of_decide_eq_true h
      exact hfresh
    | _ => trivial
  | ext a =>
    cases a with
    | now use => cases use <;> first | exact rfl | trivial
    | _ => trivial
  | _ => trivial

/-- A failure of a node that nothing carries leaves the frame. -/
theorem observe_frame_leaf : ∃ tr r w', Exec (Step openSetup Answers.lawful)
    ((openFailure "draft").handle openSetup).tree
    (openWorld [openSubmission "draft" ["clean-parent-1"]] none) tr r w' ∧
      w'.db.withdrawn = ["draft"] ∧
      OnlyRecurrence (openWorld [openSubmission "draft" ["clean-parent-1"]] none).db w'.db := by
  obtain ⟨tr, hexec, hclock⟩ := exists_observed "draft"
    (openWorld [openSubmission "draft" ["clean-parent-1"]] none) (by decide +kernel)
  refine ⟨tr, _, _, hexec, by decide +kernel, ?_⟩
  refine (observe_frame_iff (fun _ _ h => h) hexec hclock).mpr (Or.inr ?_)
  have hnone : (openWorld [openSubmission "draft" ["clean-parent-1"]] none).db.affectedCompactions
      ((openWorld [openSubmission "draft" ["clean-parent-1"]] none).db.computeBlastRadius
        openSetup.settings.maxTraversalDepth "draft").1 = [] := by decide +kernel
  intro y hy
  rw [hnone] at hy
  exact absurd hy (by simp)

/-- **A failure that decides about a compaction.**  The root has failed; the summary of it is
declared irreducible for good, although nothing has been quarantined. -/
theorem observe_frame_summary : ¬ ∀ hs w tr r w', Run openSetup (Step openSetup Answers.lawful)
    (World.initial openSetup {} none) hs w →
      Exec (Step openSetup Answers.lawful) ((openFailure "clean-parent-1").handle openSetup).tree w
        tr r w' → OnlyRecurrence w.db w'.db := by
  intro hall
  obtain ⟨hs, hrun, -⟩ := exists_open_run [openSummary "summary-0" ["clean-parent-1"]] none
  obtain ⟨tr, hexec⟩ := Prog.exists_exec (T := Step openSetup Answers.lawful)
    (fun c w => Script.step_spec (g := openSetup) (o := openScript "7") c w)
    ((openFailure "clean-parent-1").handle openSetup).tree
    (openWorld [openSummary "summary-0" ["clean-parent-1"]] none)
  obtain ⟨_, _, _, rcs, hdb, hsame⟩ := hall hs _ tr _ _ hrun hexec
  have hbefore : (openWorld [openSummary "summary-0" ["clean-parent-1"]] none).db.repairCandidates.map
      Prod.fst = [] := by decide +kernel
  have hafter : rcs.map Prod.fst = ["summary-0"] := by
    have hrcs := congrArg (fun db : Db => db.repairCandidates.map Prod.fst) hdb
    exact hrcs.symm.trans (by decide +kernel)
  have hmem : "summary-0" ∈ rcs.map Prod.fst := by
    rw [hafter]
    exact List.mem_singleton_self _
  obtain ⟨row, hrow, -⟩ := List.mem_map.mp hmem
  have hold := List.mem_map_of_mem (f := Prod.fst) ((hsame row).mp hrow)
  rw [hbefore] at hold
  exact absurd hold (by simp)

end GovernorGateway
