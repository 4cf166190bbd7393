/-
# Verification separation, end to end

The Rego rule refuses a candidate that brings evaluative planner output along: a score, a
justification, a confidence or reasoning tokens.  It looks for the four keys in the submission it is
SHOWN.  What it is shown is put together by `evaluate_admission`, which copies `justification` and
nothing else out of the content; and a copied `false` does not hold in a rule body.

`OtherwiseAdmissible` is what every other check of `/submit-candidate` asks.  A submission that
meets it is admitted unless its justification is there and not `false` (`separation_iff`), so a
score, a confidence or reasoning tokens are let through.
-/
import GovernorGateway.Properties.FailClosed

namespace GovernorGateway

open Effects

variable {g : Setup} {answers : Answers}

/-! ## 1. What a submission is checked for -/

/-- The keys that the verification policy looks for. -/
def evaluativeKeys : List String :=
  ["planner_score", "justification", "confidence_rating", "reasoning_tokens"]

/-- The content has one of them, with whatever value. -/
def Payload.Evaluative (p : Payload) : Prop :=
  ∃ key ∈ evaluativeKeys, (Json.find? p.stateContent key).isSome = true

/-- The justification of a payload, as the rule sees it. -/
def Payload.justified (p : Payload) : Bool := Policy.holds (Json.find? p.stateContent "justification")

/-- Before the lock, at the time `token`: the payload parses, its token is valid and its claims are
`auth`, it is signed and has no more than 256 parents. -/
structure PassesChecks (g : Setup) (bytes : ℕ) (p : Payload) (token : Time) (auth : Claims) : Prop where
  parse : parseSubmission g bytes (.payload p) = .ok p
  credentials : verifyNhiJwt g.env token p.sessionToken p.identityId = .ok auth
  signature : verifyCryptographicSignature g.env p = true
  parents : p.parentIds.length ≤ 256

/-- Under the lock, at the time `policy`: the id is new and clean, a compaction covers nothing
quarantined, the declared hashes are right, and both policies allow the write AS IT WOULD BE WITHOUT
a justification. -/
structure PassesPolicies (p : Payload) (policy : Time) (auth : Claims) (L : Lineage) : Prop where
  unquarantined : p.payloadId ∉ L.ledger
  new : p.payloadId ∉ L.nodeIds
  covers : p.nodeType = some .compaction → ∀ x ∈ p.covers, x ∉ L.ledger
  hashes : L.HashesMatch p
  write : Policy.allowStateWrite (integrityInput p (· ∈ L.nodeIds) (· ∈ L.ledger)) = true
  reintegration : Policy.allowReintegration
    { verificationInput p (· ∈ L.ledger) auth policy with justification := none } = true

/-- **Every other check.** -/
def OtherwiseAdmissible (g : Setup) (bytes : ℕ) (p : Payload) (token policy : Time) (L : Lineage) :
    Prop :=
  ∃ auth, PassesChecks g bytes p token auth ∧ PassesPolicies p policy auth L

/-- The request has stored a new node that is not quarantined. -/
def AdmitsNode (L L' : Lineage) : Prop := ∃ x ∈ L'.nodeIds, x ∉ L.nodeIds ∧ x ∉ L'.ledger

theorem not_admitsNode_self (L : Lineage) : ¬ AdmitsNode L L := fun ⟨_, hx, hnew, _⟩ => hnew hx

/-- The readings of a run: the two times that decide, the engine answers by the repository's
policies, and the uuid of the decision is not taken. -/
def SubmittedAt (token policy : Time) : Trans Call Call.Res Exc World
  | .ext (.now .token), _, r, _ => r = .ok token
  | .ext (.now .policy), _, r, _ => r = .ok policy
  | .ext .uuid, w, r, _ =>
    ∃ u, r = .ok u ∧ u ∉ w.db.shadowDecisions.map ShadowDecision.decisionId
  | .ext (.opa q), _, r, _ => r = .ok (Policy.rego q)
  | _, _, _, _ => True

/-! ## 2. Before the lock -/

section Run

variable {token policy : Time}

/-- What the checks in front of the lock find, exactly. -/
theorem submitChecks_at (bytes : ℕ) (p : Payload) (w : World) :
    Act.Sat (restrict (Step g answers) (SubmittedAt token policy)) Trans.any
      (submitChecks g bytes (.payload p))
      (onOk (fun out w' => w' = w ∧ out.1 = p ∧ PassesChecks g bytes p token out.2.1 ∧
          out.2.2 ∉ w.db.shadowDecisions.map ShadowDecision.decisionId)
        fun _ w' => w' = w ∧ ∀ auth, ¬ PassesChecks g bytes p token auth) w := by
  rw [submitChecks]
  cases hparse : parseSubmission g bytes (.payload p) with
  | error e =>
    refine ⟨rfl, fun auth h => ?_⟩
    rw [h.parse] at hparse
    exact absurd hparse (by simp)
  | ok q =>
    obtain rfl := parseSubmission_payload hparse
    change Act.Sat _ _ (verifyNhi g q.sessionToken q.identityId >>= _) _ _
    rw [Act.sat_bind, verifyNhi, Act.sat_bind]
    rintro r w₁ ⟨⟨-, rfl⟩, rfl⟩
    refine ⟨trivial, ?_⟩
    simp only [Prog.Sat, onOk_ok]
    cases htoken : verifyNhiJwt g.env token q.sessionToken q.identityId with
    | error e =>
      refine ⟨rfl, fun auth h => ?_⟩
      rw [h.credentials] at htoken
      exact absurd htoken (by simp)
    | ok auth =>
      change Act.Sat _ _ (Act.raiseIf _ _ >>= _) _ _
      rw [Act.sat_bind, Act.sat_raiseIf]
      refine ⟨fun hsig => ⟨rfl, fun auth' h => ?_⟩, fun hsig => ?_⟩
      · rw [h.signature] at hsig
        exact absurd hsig (by simp)
      rw [onOk_ok, Act.sat_bind, Act.sat_raiseIf]
      refine ⟨fun hlen => ⟨rfl, fun auth' h => ?_⟩, fun hlen => ?_⟩
      · exact absurd h.parents (by simpa using hlen)
      rw [onOk_ok, Act.sat_bind]
      rintro r w₂ ⟨⟨-, rfl⟩, u, rfl, hu⟩
      exact ⟨trivial, rfl, rfl, ⟨hparse, htoken, by simpa using hsig, by simpa using hlen⟩, hu⟩

/-! ## 3. The decision -/

/-- What the policies decide. -/
def ruled (p : Payload) (exists_ quarantined : NodeId → Bool) (auth : Claims) (policy : Time) :
    Decision :=
  if Policy.allowStateWrite (integrityInput p exists_ quarantined) = true then
    if Policy.allowReintegration (verificationInput p quarantined auth policy) = true then .admitted
    else .verificationFailed
  else integrityRefusal p quarantined

theorem evaluateAdmission_at (p : Payload) (exists_ quarantined : NodeId → Bool) (auth : Claims)
    (w : World) :
    Act.Sat (restrict (Step g answers) (SubmittedAt token policy)) Trans.any
      (failClosed (evaluateAdmission p exists_ quarantined auth))
      (fun r w' => r = .ok (ruled p exists_ quarantined auth policy) ∧ w' = w) w := by
  rw [failClosed, Act.sat_bind, Act.sat_attempt, evaluateAdmission, Act.sat_bind]
  rintro r w₁ ⟨⟨-, rfl⟩, rfl⟩
  refine ⟨trivial, ?_⟩
  change Act.Sat _ _ (Act.attempt _ >>= _) _ _
  rw [Act.sat_bind, Act.sat_attempt]
  rintro r w₂ ⟨⟨-, rfl⟩, rfl⟩
  refine ⟨trivial, ?_⟩
  simp only [onOk_ok, Policy.rego, ruled]
  cases Policy.allowStateWrite (integrityInput p exists_ quarantined) with
  | false => exact ⟨rfl, rfl⟩
  | true =>
    cases Policy.allowReintegration (verificationInput p quarantined auth policy) with
    | false => exact ⟨rfl, rfl⟩
    | true => exact ⟨rfl, rfl⟩

/-- The verification policy is that of the submission without a justification, and of this. -/
theorem allowReintegration_justified (p : Payload) (quarantined : NodeId → Bool) (auth : Claims)
    (policy : Time) :
    Policy.allowReintegration (verificationInput p quarantined auth policy) =
      (!p.justified && Policy.allowReintegration
        { verificationInput p quarantined auth policy with justification := none }) := by
  simp only [Policy.allowReintegration, Policy.hasEvaluativePlannerOutput, Payload.justified,
    verificationInput, Policy.holds, Bool.not_false, Bool.true_and, Bool.and_assoc]
  rfl

/-! ## 4. The locked section -/

/-- The declared hashes are right exactly when none of them differs from what was read. -/
theorem hashMismatch_none_iff {db : Db} {p : Payload} :
    p.parents.findSome? (hashMismatch (db.getNodeContentHashes p.parentIds)) = none ↔
      db.toLineage.HashesMatch p := by
  refine ⟨hashesMatch_of_none rfl, fun hmatch => List.findSome?_eq_none_iff.mpr fun c hc => ?_⟩
  have hmem : c.parentNodeId ∈ p.parentIds := List.mem_map_of_mem hc
  rw [hashMismatch, Db.getNodeContentHashes, if_pos hmem]
  cases hn : Keyed.lookup NodeRow.nodeId db.nodes c.parentNodeId with
  | none => simp
  | some n =>
    have hdeclared := hmatch c hc n hn
    simp only [Option.map_some, Option.getD_some]
    rw [if_neg]
    rintro ⟨hne, hdiff⟩
    exact hdiff (hdeclared hne)

/-- The policies only look at the maps where they were read. -/
theorem ruled_read (db : Db) (p : Payload) (gap : Option (List NodeId)) (auth : Claims)
    (policy : Time) :
    ruled { p with coversIntervalGap := gap } (db.nodesExist p.parentIds)
        (db.areQuarantined p.parentIds) auth policy =
      ruled p (· ∈ db.nodeIds) (· ∈ db.ledger) auth policy := by
  have hstatus : parentStatus p (db.nodesExist p.parentIds) (db.areQuarantined p.parentIds) =
      parentStatus p (· ∈ db.nodeIds) (· ∈ db.ledger) := by
    refine List.map_congr_left fun x hx => ?_
    simp [Db.nodesExist, Db.areQuarantined, hx]
  have hfilter : p.parentIds.filter (db.areQuarantined p.parentIds) =
      p.parentIds.filter (· ∈ db.ledger) := by
    refine List.filter_congr fun x hx => ?_
    simp [Db.areQuarantined, hx]
  have hwrite : Policy.allowStateWrite (integrityInput { p with coversIntervalGap := gap }
      (db.nodesExist p.parentIds) (db.areQuarantined p.parentIds)) =
      Policy.allowStateWrite (integrityInput p (· ∈ db.nodeIds) (· ∈ db.ledger)) := by
    change Policy.allowStateWrite ⟨{ p with coversIntervalGap := gap }, parentStatus p _ _⟩ = _
    rw [hstatus]
    rfl
  have hverify : verificationInput { p with coversIntervalGap := gap }
      (db.areQuarantined p.parentIds) auth policy =
      verificationInput p (· ∈ db.ledger) auth policy := by
    rw [verificationInput, verificationInput]
    change VerificationInput.mk _ _ _ _ (p.parentIds.filter _) _ _ _ = _
    rw [hfilter]
    rfl
  have hrefusal : integrityRefusal { p with coversIntervalGap := gap }
      (db.areQuarantined p.parentIds) = integrityRefusal p (· ∈ db.ledger) := by
    rw [integrityRefusal, integrityRefusal, ← hfilter]
    rfl
  rw [ruled, ruled, hwrite, hverify, hrefusal]

/-- A denied write is none that was admitted. -/
theorem NewQuarantined.not_admitsNode {α : Type} {L : Lineage} {a : α} {w' : World}
    (h : NewQuarantined L (.ok a : Except Exc α) w') : ¬ AdmitsNode L w'.lin := by
  rintro ⟨x, hx, hnew, hclean⟩
  rcases h x hx with hold | hledger
  · exact hnew hold
  · exact hclean hledger

/-- The section admits a node, or it is not to. -/
def Settled (L : Lineage) (admissible : Prop) {α : Type} : Except Exc α → World → Prop :=
  onOk (fun _ w' => AdmitsNode L w'.lin ↔ admissible) fun _ _ => ¬ admissible

/-- **The admitted write** commits a new node, unless a hash is wrong or the id is taken. -/
theorem admit_at (hlaw : answers.Lawful) (p : Payload) (status : List ParentStatus)
    {decisionId : String} (writer : String) {w : World}
    (hfresh : decisionId ∉ w.db.shadowDecisions.map ShadowDecision.decisionId)
    (hid : p.payloadId ∉ w.lin.ledger) :
    Act.Sat (restrict (Step g answers) (SubmittedAt token policy)) Trans.any
      (enforce g p status (w.db.getNodeContentHashes p.parentIds) decisionId writer .admitted)
      (Settled w.lin (p.payloadId ∉ w.lin.nodeIds ∧ w.lin.HashesMatch p)) w := by
  rw [enforce, Act.sat_bind, admitWrite]
  split
  · rename_i e hsome
    rintro ⟨-, hmatch⟩
    rw [hashMismatch_none_iff.mpr hmatch] at hsome
    exact absurd hsome (by simp)
  · rename_i hnone
    have hmatch := hashMismatch_none_iff.mp hnone
    rintro r w₁ ⟨⟨rfl, rfl⟩, -⟩
    refine ⟨trivial, ?_⟩
    by_cases hnew : p.payloadId ∈ w.lin.nodeIds
    · have hsame : w.db.commitNode g.env.sha256 p = (false, w.db) := by
        rw [Db.commitNode, Lineage.commitNode_of_mem hnew]
      simp only [Prog.Sat, Store.exec, hsame, onOk_ok]
      exact ⟨fun h => absurd h (not_admitsNode_self w.lin), fun h => absurd hnew h.1⟩
    · have hisNew : (w.db.commitNode g.env.sha256 p).1 = true := by
        rw [Db.commitNode, Lineage.commitNode, if_neg hnew]
      have hadmits : AdmitsNode w.lin (w.db.commitNode g.env.sha256 p).2.toLineage := by
        refine ⟨p.payloadId, Lineage.mem_nodeIds_commitNode.mpr (Or.inr rfl), hnew, ?_⟩
        change p.payloadId ∉ (w.lin.commitNode g.env.sha256 p).2.ledger
        rwa [Lineage.commitNode_ledger]
      simp only [Prog.Sat, Store.exec, onOk_ok, hisNew]
      rw [Act.sat_bind, auditAdmission, if_pos rfl, Act.sat_bind, recordDecision, Act.sat_bind,
        stampNow, Act.sat_bind]
      rintro r w₂ ⟨⟨hanswer, rfl⟩, -⟩
      obtain ⟨t, rfl⟩ := hlaw _ _ hanswer
      refine ⟨trivial, ?_⟩
      change Act.Sat _ _ (store (.recordShadowDecision _)) _ _
      rintro r w₃ ⟨⟨rfl, rfl⟩, -⟩
      refine ⟨trivial, ?_⟩
      simp only [Prog.Sat, Store.exec, Db.recordShadowDecision]
      rw [if_neg (by exact hfresh)]
      rintro r w₄ ⟨⟨rfl, rfl⟩, -⟩
      exact ⟨trivial, fun _ => ⟨hnew, hmatch⟩, fun _ => hadmits⟩

/-- The decision and what follows it, once the covers are known to be clean. -/
theorem decide_at (hlaw : answers.Lawful) (hmode : g.settings.enforcementMode = .enforce) (p : Payload)
    (gap : Option (List NodeId)) (auth : Claims) {decisionId : String} {w : World}
    (hfresh : decisionId ∉ w.db.shadowDecisions.map ShadowDecision.decisionId)
    (hid : p.payloadId ∉ w.lin.ledger)
    (hcovers : p.nodeType = some .compaction → ∀ x ∈ p.covers, x ∉ w.lin.ledger) :
    Act.Sat (restrict (Step g answers) (SubmittedAt token policy)) Trans.any
      (failClosed (evaluateAdmission { p with coversIntervalGap := gap } (w.db.nodesExist p.parentIds)
        (w.db.areQuarantined p.parentIds) auth) >>= fun decision =>
          match g.settings.enforcementMode with
          | .shadow => do
            let _ ← store (.commitNode .shadow { p with coversIntervalGap := gap })
            pure { reply := .null }
          | .enforce =>
            enforce g { p with coversIntervalGap := gap }
              (parentStatus { p with coversIntervalGap := gap } (w.db.nodesExist p.parentIds)
                (w.db.areQuarantined p.parentIds)) (w.db.getNodeContentHashes p.parentIds) decisionId
              (auth.sub.getD "unknown") decision)
      (Settled w.lin (p.justified = false ∧ PassesPolicies p policy auth w.lin)) w := by
  rw [Act.sat_bind]
  refine (evaluateAdmission_at _ _ _ auth w).mono ?_
  rintro r w₁ ⟨rfl, rfl⟩
  simp only [onOk_ok, hmode, ruled_read]
  have hrefused : ∀ {decision : Decision}, decision ≠ .admitted →
      ¬ (p.justified = false ∧ PassesPolicies p policy auth w₁.lin) →
      Act.Sat (restrict (Step g answers) (SubmittedAt token policy)) Trans.any
        (enforce g { p with coversIntervalGap := gap }
          (parentStatus { p with coversIntervalGap := gap } (w₁.db.nodesExist p.parentIds)
            (w₁.db.areQuarantined p.parentIds)) (w₁.db.getNodeContentHashes p.parentIds) decisionId
          (auth.sub.getD "unknown") decision)
        (Settled w₁.lin (p.justified = false ∧ PassesPolicies p policy auth w₁.lin)) w₁ := by
    intro decision hdenied hnot
    refine (newQuarantined_enforce _ _ _ _ _ hdenied rfl).mono ?_
    rintro (e | a) w₂ h₂
    · exact hnot
    · exact ⟨fun h => absurd h (NewQuarantined.not_admitsNode h₂), fun h => absurd h hnot⟩
  have hjustified := allowReintegration_justified p (· ∈ w₁.lin.ledger) auth policy
  cases hwrite : Policy.allowStateWrite (integrityInput p (· ∈ w₁.lin.nodeIds) (· ∈ w₁.lin.ledger)) with
  | false =>
    rw [ruled, hwrite]
    refine hrefused (integrityRefusal_ne_admitted p _) fun h => ?_
    rw [h.2.write] at hwrite
    exact absurd hwrite (by simp)
  | true =>
    cases hreintegration : Policy.allowReintegration
        (verificationInput p (· ∈ w₁.lin.ledger) auth policy) with
    | false =>
      rw [ruled, hwrite, hreintegration]
      refine hrefused (by simp) fun h => ?_
      rw [hreintegration, h.1, h.2.reintegration] at hjustified
      exact absurd hjustified (by simp)
    | true =>
      rw [ruled, hwrite, hreintegration]
      rw [hreintegration] at hjustified
      obtain ⟨hnone, hrest⟩ := Bool.and_eq_true_iff.mp hjustified.symm
      refine (admit_at hlaw { p with coversIntervalGap := gap } _ _ hfresh hid).mono ?_
      have hiff : (p.payloadId ∉ w₁.lin.nodeIds ∧ w₁.lin.HashesMatch p) ↔
          p.justified = false ∧ PassesPolicies p policy auth w₁.lin :=
        ⟨fun h => ⟨by simpa using hnone, hid, h.1, hcovers, h.2, hwrite, hrest⟩,
          fun h => ⟨h.2.new, h.2.hashes⟩⟩
      rintro (e | a) w₂ h₂
      · exact fun h => h₂ (hiff.mpr h)
      · exact Iff.trans h₂ hiff

/-- **The locked section** admits a new node exactly when both policies, and every other check,
pass. -/
theorem submitLocked_at (hlaw : answers.Lawful) (hmode : g.settings.enforcementMode = .enforce)
    (p : Payload) (auth : Claims) {decisionId : String} {w : World}
    (hfresh : decisionId ∉ w.db.shadowDecisions.map ShadowDecision.decisionId) :
    Act.Sat (restrict (Step g answers) (SubmittedAt token policy)) Trans.any
      (submitLocked g p auth decisionId)
      (Settled w.lin (p.justified = false ∧ PassesPolicies p policy auth w.lin)) w := by
  rw [submitLocked]
  refine read_at (fun _ _ => trivial) rfl ?_
  rw [Act.sat_bind, Act.sat_raiseIf]
  refine ⟨fun hq h => ?_, fun hq => ?_⟩
  · exact h.2.unquarantined (by simpa [Db.areQuarantined] using hq)
  have hid : p.payloadId ∉ w.lin.ledger := by simpa [Db.areQuarantined] using hq
  refine read_at (fun _ _ => trivial) rfl (read_at (fun _ _ => trivial) rfl
    (read_at (fun _ _ => trivial) rfl ?_))
  rw [Act.sat_bind, prepareCompaction]
  split
  · rename_i hcomp
    refine read_at (fun _ _ => trivial) rfl ?_
    split
    · rename_i hnil
      refine decide_at hlaw hmode p _ auth hfresh hid fun _ x hx => ?_
      rw [hnil] at hx
      exact absurd hx (by simp)
    · refine read_at (fun _ _ => trivial) rfl ?_
      split
      · rename_i hfilter
        refine decide_at hlaw hmode p _ auth hfresh hid fun _ x hx hledger => ?_
        have hnot := List.filter_eq_nil_iff.mp hfilter x hx
        exact hnot (by simpa [Db.areQuarantined, hx] using hledger)
      · rename_i hfilter
        intro h
        refine hfilter (List.filter_eq_nil_iff.mpr fun x hx => ?_)
        simpa [Db.areQuarantined, hx] using h.2.covers hcomp x hx
  · rename_i hcomp
    exact decide_at hlaw hmode p p.coversIntervalGap auth hfresh hid fun h => absurd h hcomp

/-! ## 5. Separation -/

/-- **When a new node is admitted.** -/
theorem submitCandidate_at (hlaw : answers.Lawful) (hmode : g.settings.enforcementMode = .enforce)
    (bytes : ℕ) (p : Payload) (w : World) :
    Act.Sat (restrict (Step g answers) (SubmittedAt token policy)) Trans.any
      (submitCandidate g bytes (.payload p))
      (fun _ w' => AdmitsNode w.lin w'.lin ↔
        p.justified = false ∧ OtherwiseAdmissible g bytes p token policy w.lin) w := by
  rw [submitCandidate, Act.sat_bind]
  refine (submitChecks_at bytes p w).mono ?_
  rintro (e | ⟨q, auth, decisionId⟩) w₁ h₁
  · obtain ⟨rfl, hnone⟩ := h₁
    refine ⟨fun h => absurd h (not_admitsNode_self _), ?_⟩
    rintro ⟨-, auth, h, -⟩
    exact absurd h (hnone auth)
  · obtain ⟨rfl, rfl, hpasses, hfresh⟩ := h₁
    have hiff : (q.justified = false ∧ PassesPolicies q policy auth w₁.lin) ↔
        q.justified = false ∧ OtherwiseAdmissible g bytes q token policy w₁.lin := by
      refine and_congr_right fun _ => ⟨fun h => ⟨auth, hpasses, h⟩, ?_⟩
      rintro ⟨auth', hpasses', h⟩
      have hsame : Except.ok auth' = Except.ok auth :=
        hpasses'.credentials.symm.trans hpasses.credentials
      rwa [Except.ok.inj hsame] at h
    refine sat_withShared (fun _ _ _ _ => trivial) (sat_withTransaction (fun _ _ _ _ => trivial)
      (uses_submitLocked g (Call.of_noTx rfl) q auth decisionId) ?_)
    refine (submitLocked_at hlaw hmode q auth (w := { w₁ with saved := some w₁.db }) hfresh).mono ?_
    rintro (e | a) w₂ h₂
    · exact ⟨fun h => absurd h (not_admitsNode_self _), fun h => absurd (hiff.mpr h) h₂⟩
    · exact Iff.trans h₂ hiff

/-- **Verification separation.**  A payload that carries evaluative planner output is kept out IF
AND ONLY IF its justification is there and not `false`, or another check keeps it out. -/
theorem separation_iff (hlaw : answers.Lawful) (hmode : g.settings.enforcementMode = .enforce)
    {bytes : ℕ} {p : Payload} {w w' : World} {tr : List (Event Call Call.Res Exc World)}
    {r : Except Exc Response}
    (hexec : Exec (Step g answers) ((Request.submitCandidate bytes (.payload p)).handle g).tree w tr r w')
    (hreads : ∀ k ∈ tr, SubmittedAt token policy k.call k.before k.answer k.after) :
    (p.Evaluative → ¬ AdmitsNode w.lin w'.lin) ↔
      (p.Evaluative → p.justified = true ∨ ¬ OtherwiseAdmissible g bytes p token policy w.lin) := by
  have hadmits := (Prog.Sat.sound (submitCandidate_at hlaw hmode bytes p w) (hexec.restrict hreads)).2
  refine forall_congr' fun _ => ?_
  rw [hadmits, not_and_or, Bool.not_eq_false]

end Run

/-! ## 6. Two keys -/

/-- A payload with the given content; the hash of the open deployment makes the same of every
one. -/
def openContent (content : List (String × Json)) : Request :=
  .submitCandidate 512 (.payload
    { openPayload "agent" "node-1" ["clean-parent-1"] with
      stateContent := content, contentDigest := some zeros64 })

/-- Whether the uuid is not taken. -/
def submittedCheck : Call → World → Bool
  | .ext .uuid, w => "1" ∉ w.db.shadowDecisions.map ShadowDecision.decisionId
  | _, _ => true

theorem exists_submitted (content : List (String × Json)) (w : World)
    (hcheck : ((openContent content).handle openSetup).tree.passes ((openScript "1").step openSetup)
      submittedCheck w = true) :
    ∃ tr, Exec (Step openSetup Answers.lawful) ((openContent content).handle openSetup).tree w tr
        ((openScript "1").handle openSetup (openContent content) w).1
        ((openScript "1").handle openSetup (openContent content) w).2 ∧
      ∀ k ∈ tr, SubmittedAt 0 0 k.call k.before k.answer k.after := by
  refine Prog.run_exec (fun c w => Script.step_spec (g := openSetup) (o := openScript "1") c w) ?_
    _ w hcheck
  intro c w h
  cases c with
  | ext e =>
    cases e with
    | now use => cases use <;> first | exact rfl | trivial
    | uuid => exact ⟨"1", rfl, of_decide_eq_true h⟩
    | opa q => exact rfl
    | _ => trivial
  | _ => trivial

/-- A justification keeps its payload out. -/
theorem separation_justification : ∃ tr r w', Exec (Step openSetup Answers.lawful)
    ((openContent [("justification", .str "the sources agree")]).handle openSetup).tree
    (World.initial openSetup {} none) tr r w' ∧
      ¬ AdmitsNode (World.initial openSetup {} none).lin w'.lin := by
  obtain ⟨tr, hexec, hreads⟩ := exists_submitted [("justification", .str "the sources agree")]
    (World.initial openSetup {} none) (by decide +kernel)
  refine ⟨tr, _, _, hexec, ?_⟩
  exact (separation_iff (fun _ _ h => h) rfl hexec hreads).mpr (fun _ => Or.inl rfl)
    ⟨"justification", by decide, rfl⟩

/-- **A score is let through.** -/
theorem separation_score : ¬ ∀ tr r w', Exec (Step openSetup Answers.lawful)
    ((openContent [("planner_score", .int 97)]).handle openSetup).tree
    (World.initial openSetup {} none) tr r w' →
      (∀ k ∈ tr, SubmittedAt 0 0 k.call k.before k.answer k.after) →
        ¬ AdmitsNode (World.initial openSetup {} none).lin w'.lin := by
  intro hall
  obtain ⟨tr, hexec, hreads⟩ := exists_submitted [("planner_score", .int 97)]
    (World.initial openSetup {} none) (by decide +kernel)
  exact hall tr _ _ hexec hreads
    ⟨"node-1", by decide +kernel, by decide +kernel, by decide +kernel⟩

end GovernorGateway
