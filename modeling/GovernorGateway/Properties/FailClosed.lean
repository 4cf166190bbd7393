/-
# Fail-closed admission

Whatever the policy engine does, over whatever transport: a policy call gives back some JSON value
or raises some exception, and nothing else is assumed of it here.  The other properties of this
development ask for an engine that evaluates the repository's policies; THIS ONE does not.

A new node outside the ledger then stands for a permission that was really given: the combined call
returned an object with both decisions truthy, or it gave no object, both separate calls were made
and both returned something truthy (`fail_closed`).  What raises leaves the database as it was, and
what is stored without a permission is the payload of a rejection, whose id enters the ledger with
it.
-/
import GovernorGateway.Properties.FastPath
import GovernorGateway.Semantics.Scripted

namespace GovernorGateway

open Effects

variable {g : Setup} {answers : Answers} {C P : Trans Call Call.Res Exc World}

/-! ## 1. What is made of an answer -/

/-- `result.get(name, False)`, as a condition. -/
def granted (fields : List (String × Json)) (name : String) : Bool :=
  ((Json.find? fields name).getD (.bool false)).truthy

/-- What `evaluate_admission` sees of a value that `evaluate_opa_policy` has returned: an object is
two decisions when the combined policy was asked, and anything else is a condition. -/
def PolicyQuery.seen : PolicyQuery → Json → PolicyAnswer
  | .combined _ _, .obj fields => .dict (granted fields "allow_state_write")
      (granted fields "allow_reintegration") (granted fields "is_irreducible")
  | _, v => .bool v.truthy

/-- The query is asked somewhere on the trace. -/
def Asked (tr : List (Event Call Call.Res Exc World)) (q : PolicyQuery) : Prop :=
  ∃ e ∈ tr, e.call = .ext (.opa q)

/-- **The permission.**  `result` is what the policy calls return or raise. -/
def Permits (result : PolicyQuery → Except Exc Json) (asked : PolicyQuery → Prop)
    (i : IntegrityInput) (v : VerificationInput) : Prop :=
  (∃ fields, result (.combined i v) = .ok (.obj fields) ∧
      granted fields "allow_state_write" = true ∧ granted fields "allow_reintegration" = true) ∨
    ((∀ fields, result (.combined i v) ≠ .ok (.obj fields)) ∧
      (asked (.integrity i) ∧ ∃ a, result (.integrity i) = .ok a ∧ a.truthy = true) ∧
      asked (.verification v) ∧ ∃ a, result (.verification v) = .ok a ∧ a.truthy = true)

/-! ## 2. No permission, no admission -/

/-- The calls of a run without a permission: the policy answers with what it was given, its queries
are among those that are asked, and no combined one leads to a permission. -/
def Unpermitted (result : PolicyQuery → Except Exc Json) (asked : PolicyQuery → Prop) :
    Trans Call Call.Res Exc World
  | .ext (.opa q), _, r, _ => r = (result q).map q.seen ∧ asked q ∧
      ∀ i v, q = .combined i v → ¬ Permits result asked i v
  | _, _, _, _ => True

theorem integrityRefusal_ne_admitted (p : Payload) (quarantined : NodeId → Bool) :
    integrityRefusal p quarantined ≠ .admitted := by
  unfold integrityRefusal
  split <;> simp

section Denied

variable {result : PolicyQuery → Except Exc Json} {asked : PolicyQuery → Prop}

/-- The world is as it was, and the write is not to be admitted. -/
def Denied (w : World) : Except Exc Decision → World → Prop :=
  onOk (fun d w' => d ≠ .admitted ∧ w' = w) fun _ _ => True

theorem denied_sequentially {p : Payload} {quarantined : NodeId → Bool} {i : IntegrityInput}
    {v : VerificationInput} (hno : ∀ fields, result (.combined i v) ≠ .ok (.obj fields))
    (hpermits : ¬ Permits result asked i v) (w : World) :
    Act.Sat (restrict (Step g answers) (Unpermitted result asked)) Trans.any
      (evaluateSequentially p quarantined i v) (Denied w) w := by
  rw [evaluateSequentially, Act.sat_bind]
  rintro r w₁ ⟨⟨-, rfl⟩, hr, hasked, -⟩
  refine ⟨trivial, ?_⟩
  cases hintegrity : result (.integrity i) with
  | error e =>
    rw [hintegrity] at hr
    obtain rfl := hr
    trivial
  | ok a =>
    rw [hintegrity] at hr
    obtain rfl : r = .ok (.bool a.truthy) := hr
    cases ha : a.truthy with
    | false => exact ⟨integrityRefusal_ne_admitted p quarantined, rfl⟩
    | true =>
      change Act.Sat _ _ (ext (.opa (.verification v)) >>= _) _ _
      rw [Act.sat_bind]
      rintro r w₂ ⟨⟨-, rfl⟩, hr, hasked', -⟩
      refine ⟨trivial, ?_⟩
      cases hverification : result (.verification v) with
      | error e =>
        rw [hverification] at hr
        obtain rfl := hr
        trivial
      | ok b =>
        rw [hverification] at hr
        obtain rfl : r = .ok (.bool b.truthy) := hr
        cases hb : b.truthy with
        | false => exact ⟨by simp, rfl⟩
        | true =>
          have hboth : Permits result asked i v :=
            Or.inr ⟨hno, ⟨hasked, a, hintegrity, ha⟩, hasked', b, hverification, hb⟩
          exact absurd hboth hpermits

/-- **The decision.**  Every way to it that gives no permission ends without `ADMITTED`. -/
theorem denied_evaluateAdmission (p : Payload) (exists_ quarantined : NodeId → Bool) (auth : Claims)
    (w : World) :
    Act.Sat (restrict (Step g answers) (Unpermitted result asked)) Trans.any
      (failClosed (evaluateAdmission p exists_ quarantined auth)) (Denied w) w := by
  rw [failClosed, Act.sat_bind, Act.sat_attempt]
  have hdecision : Act.Sat (restrict (Step g answers) (Unpermitted result asked)) Trans.any
      (evaluateAdmission p exists_ quarantined auth) (Denied w) w := by
    rw [evaluateAdmission, Act.sat_bind]
    rintro r w₁ ⟨⟨-, rfl⟩, -⟩
    refine ⟨trivial, ?_⟩
    cases r with
    | error e => trivial
    | ok now =>
      change Act.Sat _ _ (Act.attempt _ >>= _) _ _
      rw [Act.sat_bind, Act.sat_attempt]
      rintro r w₂ ⟨⟨-, rfl⟩, hr, -, hpermits⟩
      refine ⟨trivial, ?_⟩
      have hpermits := hpermits _ _ rfl
      cases hresult : result (.combined (integrityInput p exists_ quarantined)
          (verificationInput p quarantined auth now)) with
      | error e =>
        rw [hresult] at hr
        obtain rfl := hr
        cases e with
        | policy m => exact denied_sequentially (by simp [hresult]) hpermits _
        | _ => trivial
      | ok v =>
        rw [hresult] at hr
        cases v with
        | obj fields =>
          obtain rfl : r = .ok (.dict (granted fields "allow_state_write")
            (granted fields "allow_reintegration") (granted fields "is_irreducible")) := hr
          simp only [onOk_ok]
          cases hwrite : granted fields "allow_state_write" with
          | false => exact ⟨integrityRefusal_ne_admitted p quarantined, rfl⟩
          | true =>
            cases hreintegration : granted fields "allow_reintegration" with
            | false => exact ⟨by simp, rfl⟩
            | true => exact absurd (Or.inl ⟨fields, hresult, hwrite, hreintegration⟩) hpermits
        | _ =>
          obtain rfl := hr
          exact denied_sequentially (by simp [hresult]) hpermits _
  refine hdecision.mono ?_
  rintro (e | d) w' h'
  · cases e <;> trivial
  · exact h'

/-! ## 3. The section -/

/-- A quiet call leaves the lineage alone, whatever the outside world answers. -/
theorem lin_of_quiet {c : Call} (hc : c.Quiet) {w w' : World} {r : Except Exc c.Res}
    (ht : Step g answers c w r w') : w'.lin = w.lin := by
  cases c with
  | store c =>
    obtain ⟨-, rfl⟩ := ht
    exact Store.exec_toLineage g w.db c hc
  | ext e =>
    obtain ⟨-, rfl⟩ := ht
    rfl
  | sync k => exact absurd hc id
  | getAdapterKey =>
    obtain ⟨-, rfl⟩ := ht
    rfl
  | setAdapterKey key =>
    obtain ⟨-, rfl⟩ := ht
    rfl

/-- A quiet part in front of the rest of a handler. -/
theorem quiet_bind {α β : Type} {x : Handler α} {f : α → Handler β} {L : Lineage}
    {Q : Except Exc β → World → Prop} {w : World} (hx : QuietPart x) (hw : w.lin = L)
    (hok : ∀ a w', w'.lin = L → Act.Sat (restrict (Step g answers) C) Trans.any (f a) Q w')
    (herr : ∀ e w', Q (.error e) w') :
    Act.Sat (restrict (Step g answers) C) Trans.any (x >>= f) Q w :=
  hx.sat_bind (I := fun w' => w'.lin = L)
    (fun _ hc _ _ _ ht h => ⟨trivial, (lin_of_quiet hc ht.1).trans h⟩) hw hok
    fun e w' _ => herr e w'

/-- Every new node is in the ledger; or an exception has ended it all. -/
def NewQuarantined {α : Type} (L : Lineage) : Except Exc α → World → Prop :=
  onOk (fun _ w' => ∀ x ∈ w'.lin.nodeIds, x ∈ L.nodeIds ∨ x ∈ w'.lin.ledger) fun _ _ => True

theorem NewQuarantined.of_lin {L : Lineage} {w' : World} (h : w'.lin = L) :
    ∀ x ∈ w'.lin.nodeIds, x ∈ L.nodeIds ∨ x ∈ w'.lin.ledger := by
  rw [h]
  exact fun x hx => Or.inl hx

/-- The `TAINTED_PARENT` branch stores one payload, and puts its id into the ledger. -/
theorem newQuarantined_rejectTainted (p : Payload) (root : NodeId) {L : Lineage} {w : World}
    (hw : w.lin = L) :
    Act.Sat (restrict (Step g answers) C) Trans.any (rejectTainted g p root) (NewQuarantined L) w := by
  rw [rejectTainted, Act.sat_bind]
  rintro r w₁ ⟨⟨rfl, rfl⟩, -⟩
  refine ⟨trivial, ?_⟩
  have hcommit : World.lin { w with db := (w.db.commitNode g.env.sha256 p).2 } =
      (L.commitNode g.env.sha256 p).2 := by
    rw [← hw]
    rfl
  refine quiet_bind (quiet_store (by simp [Store.Loud])) hcommit (fun ids w₂ h₂ => ?_)
    fun _ _ => trivial
  refine quiet_bind (uses_recurrenceHook g (Call.of_quiet rfl) _ _) h₂ (fun _ w₃ h₃ => ?_)
    fun _ _ => trivial
  refine quiet_bind (quiet_store (by simp [Store.Loud])) h₃ (fun digest w₄ h₄ => ?_)
    fun _ _ => trivial
  refine quiet_bind (quiet_ext _) h₄ (fun eventId w₅ h₅ => ?_) fun _ _ => trivial
  refine quiet_bind (uses_stampNow (Call.of_quiet rfl)) h₅ (fun detected w₆ h₆ => ?_)
    fun _ _ => trivial
  rw [Act.sat_bind]
  rintro r w₇ ⟨⟨rfl, rfl⟩, -⟩
  refine ⟨trivial, ?_⟩
  have happly : World.lin { w₆ with db := (w₆.db.applyQuarantineTransaction
      g.settings.maxTraversalDepth
      { quarantineEventId := eventId, detectedAtUtc := detected, poisonedRootId := root,
        computedBlastRadius := ids, monotonicLedgerDigestPostTransition := digest }
      [p.payloadId]).2 } = (L.commitNode g.env.sha256 p).2.quarantine [p.payloadId] := by
    rw [← h₆]
    rfl
  refine quiet_bind (uses_stampNow (Call.of_quiet rfl)) happly (fun rejected w₈ h₈ => ?_)
    fun _ _ => trivial
  refine quiet_bind (quiet_store (by simp [Store.Loud])) h₈ (fun _ w₉ h₉ => ?_) fun _ _ => trivial
  refine quiet_bind (uses_offerReplacement (Call.of_quiet rfl) p root) h₉ (fun _ w₁₀ h₁₀ => ?_)
    fun _ _ => trivial
  intro x hx
  rw [h₁₀, Lineage.quarantine_nodeIds, Lineage.mem_nodeIds_commitNode] at hx
  rw [h₁₀, Lineage.mem_ledger_quarantine]
  rcases hx with hx | rfl
  · exact Or.inl hx
  · exact Or.inr (Or.inr (List.mem_singleton_self _))

/-- What follows any other decision than to admit. -/
theorem newQuarantined_enforce (p : Payload) (status : List ParentStatus)
    (hashes : NodeId → Option String) (decisionId writer : String) {decision : Decision}
    (hdenied : decision ≠ .admitted) {L : Lineage} {w : World} (hw : w.lin = L) :
    Act.Sat (restrict (Step g answers) C) Trans.any
      (enforce g p status hashes decisionId writer decision) (NewQuarantined L) w := by
  cases decision with
  | admitted => exact absurd rfl hdenied
  | taintedParent root =>
    rw [enforce, Act.sat_bind]
    refine (newQuarantined_rejectTainted p root hw).mono ?_
    rintro (e | a) w₁ h₁
    · trivial
    refine quiet_bind (L := w₁.lin) (uses_recordDecision g (Call.of_quiet rfl) _ _ _ _ _ _) rfl
      (fun _ w₂ h₂ => ?_) fun _ _ => trivial
    change ∀ x ∈ w₂.lin.nodeIds, x ∈ L.nodeIds ∨ x ∈ w₂.lin.ledger
    rw [h₂]
    exact h₁
  | lineageInvalid =>
    exact quiet_bind (uses_recordDecision g (Call.of_quiet rfl) _ _ _ _ _ _) hw
      (fun _ w₁ h₁ => NewQuarantined.of_lin h₁) fun _ _ => trivial
  | verificationFailed =>
    exact quiet_bind (uses_recordDecision g (Call.of_quiet rfl) _ _ _ _ _ _) hw
      (fun _ w₁ h₁ => NewQuarantined.of_lin h₁) fun _ _ => trivial

/-- **The locked section without a permission.** -/
theorem newQuarantined_submitLocked (hmode : g.settings.enforcementMode = .enforce) (p : Payload)
    (auth : Claims) (decisionId : String) (w : World) :
    Act.Sat (restrict (Step g answers) (Unpermitted result asked)) Trans.any
      (submitLocked g p auth decisionId) (NewQuarantined w.lin) w := by
  rw [submitLocked]
  refine quiet_bind (quiet_store (by simp [Store.Loud])) rfl (fun idQuarantined w₁ h₁ => ?_)
    fun _ _ => trivial
  rw [Act.sat_bind, Act.sat_raiseIf]
  refine ⟨fun _ => trivial, fun _ => ?_⟩
  refine quiet_bind (quiet_store (by simp [Store.Loud])) h₁ (fun exists_ w₂ h₂ => ?_)
    fun _ _ => trivial
  refine quiet_bind (quiet_store (by simp [Store.Loud])) h₂ (fun quarantined w₃ h₃ => ?_)
    fun _ _ => trivial
  refine quiet_bind (quiet_store (by simp [Store.Loud])) h₃ (fun hashes w₄ h₄ => ?_)
    fun _ _ => trivial
  refine quiet_bind (uses_prepareCompaction (Call.of_quiet rfl) p) h₄ (fun p' w₅ h₅ => ?_)
    fun _ _ => trivial
  rw [Act.sat_bind]
  refine (denied_evaluateAdmission p' exists_ quarantined auth w₅).mono ?_
  rintro (e | decision) w₆ h₆
  · trivial
  obtain ⟨hdenied, rfl⟩ := h₆
  simp only [onOk_ok, hmode]
  exact newQuarantined_enforce p' _ hashes decisionId _ hdenied h₅

end Denied

/-! ## 4. Fail-closed -/

/-- **Fail-closed admission.**  Let the policy calls return or raise what `result` says, which is
anything.  A submission leaves a new node outside the ledger only if it asked for the combined
decision and was PERMITTED: by that, or by the two separate calls. -/
theorem fail_closed (hmode : g.settings.enforcementMode = .enforce)
    {result : PolicyQuery → Except Exc Json}
    (hopa : ∀ q r, answers (.opa q) r → r = (result q).map q.seen) {bytes : ℕ} {body : SubmitBody}
    {w w' : World} {tr : List (Event Call Call.Res Exc World)} {r : Except Exc Response}
    (hexec : Exec (Step g answers) ((Request.submitCandidate bytes body).handle g).tree w tr r w')
    {x : NodeId} (hnew : x ∉ w.db.nodeIds) (hstored : x ∈ w'.db.nodeIds) (hclean : x ∉ w'.db.ledger) :
    ∃ i v, Asked tr (.combined i v) ∧ Permits result (Asked tr) i v := by
  by_contra hnone
  have hcalls : ∀ e ∈ tr, Unpermitted result (Asked tr) e.call e.before e.answer e.after := by
    intro e he
    have ht := hexec.steps e he
    obtain ⟨c, w₁, r, w₂⟩ := e
    cases c with
    | ext e =>
      cases e with
      | opa q =>
        refine ⟨hopa q r ht.1, ⟨_, he, rfl⟩, ?_⟩
        rintro i v rfl hpermits
        exact hnone ⟨i, v, ⟨_, he, rfl⟩, hpermits⟩
      | _ => trivial
    | _ => trivial
  have hsat : Act.Sat (restrict (Step g answers) (Unpermitted result (Asked tr))) Trans.any
      (submitCandidate g bytes body)
      (fun _ w' => ∀ x ∈ w'.lin.nodeIds, x ∈ w.lin.nodeIds ∨ x ∈ w'.lin.ledger) w := by
    refine sat_submission (fun _ _ _ _ => trivial) (fun _ _ _ _ => trivial) bytes body
      (fun _ _ x hx => Or.inl hx) fun p auth decisionId _ => ?_
    refine (newQuarantined_submitLocked hmode p auth decisionId { w with saved := some w.db }).mono ?_
    rintro (e | a) w₁ h₁
    · exact fun x hx => Or.inl hx
    · exact h₁
  rcases (Prog.Sat.sound hsat (hexec.restrict hcalls)).2 x hstored with hold | hledger
  · exact hnew hold
  · exact hclean hledger

/-! ## 5. A permission in two steps -/

/-- A script, with a policy engine of its own. -/
def Script.withPolicy (o : Script) (result : PolicyQuery → Except Exc Json) : Answers
  | .opa q, r => r = (result q).map q.seen
  | e, r => r = .ok (o.answer e)

/-- What a call does under it. -/
def Script.policyStep (o : Script) (result : PolicyQuery → Except Exc Json) (g : Setup) :
    (c : Call) → World → Except Exc c.Res × World
  | .ext (.opa q), w => ((result q).map q.seen, w)
  | c, w => o.step g c w

theorem Script.policyStep_spec {o : Script} {result : PolicyQuery → Except Exc Json} (c : Call)
    (w : World) :
    Step g (o.withPolicy result) c w (o.policyStep result g c w).1 (o.policyStep result g c w).2 := by
  cases c with
  | ext e => cases e <;> exact ⟨rfl, rfl⟩
  | store c => exact ⟨rfl, rfl⟩
  | sync k => exact ⟨rfl, rfl⟩
  | getAdapterKey => exact ⟨rfl, rfl⟩
  | setAdapterKey key => exact ⟨rfl, rfl⟩

/-- A server without the combined package: an empty answer for that, and a decision for each of the
two others, one of them no truth value. -/
def separateAnswers (q : PolicyQuery) : Except Exc Json :=
  evaluateOpaPolicy .rest (match q with
    | .combined _ _ => .ok (.obj [])
    | .integrity _ => .ok (.obj [("result", .obj [("allow_state_write", .bool true)])])
    | .verification _ => .ok (.obj [("result", .obj [("allow_reintegration", .str "yes")])]))

/-- A write that this server lets in, in two steps. -/
theorem fail_closed_separate : ∃ tr r w',
    Exec (Step openSetup ((openScript "1").withPolicy separateAnswers))
      ((openSubmission "node-1" ["clean-parent-1"]).handle openSetup).tree
      (World.initial openSetup {} none) tr r w' ∧
    "node-1" ∈ w'.db.nodeIds ∧
    ∃ i v, Asked tr (.combined i v) ∧ Permits separateAnswers (Asked tr) i v := by
  obtain ⟨tr, hexec⟩ := Prog.exists_exec
    (T := Step openSetup ((openScript "1").withPolicy separateAnswers))
    (fun c w => Script.policyStep_spec (g := openSetup) c w)
    ((openSubmission "node-1" ["clean-parent-1"]).handle openSetup).tree
    (World.initial openSetup {} none)
  refine ⟨tr, _, _, hexec, by decide +kernel, ?_⟩
  exact fail_closed (x := "node-1") rfl (fun q r h => h) hexec (by decide) (by decide +kernel)
    (by decide +kernel)

end GovernorGateway
