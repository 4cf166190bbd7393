/-
# What a submission can do to the lineage

`SubmitOutcome` lists the three things the locked section of `/submit-candidate` can do in
enforcement mode, with everything that is known in each case: refuse and change nothing, commit a
payload whose parents exist and are clean, or commit a payload with a tainted parent and put its id
into the ledger.  `sat_submitLocked` says that it does nothing else.

The engine's verdict enters through `DecisionSound`: whatever way the policies are asked, a
decision to admit means that every parent exists and is clean, and every other decision tells
whether one was tainted.
-/
import GovernorGateway.Semantics.Section

namespace GovernorGateway

open Effects

/-! ## 1. The decision -/

/-- What a decision says about the declared parents. -/
def DecisionSound (p : Payload) (exists_ quarantined : NodeId → Bool) : Decision → Prop
  | .admitted => ∀ x ∈ p.parentIds, exists_ x = true ∧ quarantined x = false
  | .taintedParent root => ∃ rest, p.parentIds.filter quarantined = root :: rest
  | .lineageInvalid => p.parentIds.filter quarantined = []
  | .verificationFailed => p.parentIds.filter quarantined = []

theorem decisionSound_integrityRefusal (p : Payload) (exists_ quarantined : NodeId → Bool) :
    DecisionSound p exists_ quarantined (integrityRefusal p quarantined) := by
  unfold integrityRefusal
  split
  · rename_i h
    exact h
  · rename_i x rest h
    exact ⟨rest, h⟩

/-- The integrity policy allows a write only when every parent exists and is clean. -/
theorem parents_of_allowStateWrite {p : Payload} {exists_ quarantined : NodeId → Bool}
    (h : Policy.allowStateWrite (integrityInput p exists_ quarantined) = true) :
    ∀ x ∈ p.parentIds, exists_ x = true ∧ quarantined x = false := by
  intro x hx
  exact Policy.not_quarantined_of_allowStateWrite h ⟨x, exists_ x, quarantined x⟩
    (List.mem_map.mpr ⟨x, hx, rfl⟩)

theorem filter_eq_nil_of_clean {p : Payload} {exists_ quarantined : NodeId → Bool}
    (h : ∀ x ∈ p.parentIds, exists_ x = true ∧ quarantined x = false) :
    p.parentIds.filter quarantined = [] := by
  rw [List.filter_eq_nil_iff]
  intro x hx
  rw [(h x hx).2]
  exact Bool.false_ne_true

variable {σ : Type} {g : Setup} {T P : Trans Call Call.Res Exc σ} {lin : σ → Lineage}

/-- What is known of a part that decides: a decision it returns is sound, and the lineage is as
before. -/
def Decides (lin : σ → Lineage) (s : σ) (p : Payload) (exists_ quarantined : NodeId → Bool) :
    Except Exc Decision → σ → Prop :=
  onOk (fun d s' => DecisionSound p exists_ quarantined d ∧ lin s' = lin s)
    (fun _ s' => lin s' = lin s)

/-- The answer of a lawful engine to a query with a truth value. -/
theorem Ext.Lawful.bool {q : PolicyQuery} {a : PolicyAnswer} {b : Bool}
    (h : Ext.Lawful (.opa q) (.ok a)) (hq : Policy.rego q = .bool b) : a.truthy = b := by
  rcases h with ⟨e, he⟩ | h | ⟨i, v, rfl, -⟩
  · exact absurd he (by simp)
  · obtain rfl := Except.ok.inj h
    rw [hq]
    rfl
  · exact absurd hq (by simp [Policy.rego])

theorem sat_evaluateSequentially (h : Acts g T lin) (hP : ∀ c s r s', c.Quiet → P c s r s')
    (p : Payload) (exists_ quarantined : NodeId → Bool) (v : VerificationInput) (s₀ s : σ)
    (hs : lin s = lin s₀) :
    Act.Sat T P (evaluateSequentially p quarantined (integrityInput p exists_ quarantined) v)
      (Decides lin s₀ p exists_ quarantined) s := by
  refine h.ext_bind hP ?_ fun e s' hs' => hs'.trans hs
  intro a s₁ ha hs₁
  have ha := ha.bool (b := Policy.allowStateWrite (integrityInput p exists_ quarantined)) rfl
  cases hw : Policy.allowStateWrite (integrityInput p exists_ quarantined) with
  | false =>
    rw [hw] at ha
    rw [ha]
    exact ⟨decisionSound_integrityRefusal p exists_ quarantined, hs₁.trans hs⟩
  | true =>
    rw [hw] at ha
    rw [ha]
    have hclean := parents_of_allowStateWrite hw
    refine h.ext_bind hP ?_ fun e s' hs' => (hs'.trans hs₁).trans hs
    intro b s₂ _ hs₂
    cases b.truthy with
    | false => exact ⟨filter_eq_nil_of_clean hclean, (hs₂.trans hs₁).trans hs⟩
    | true => exact ⟨hclean, (hs₂.trans hs₁).trans hs⟩

/-- **`evaluate_admission` decides soundly** when the engine evaluates the repository's policies,
by the combined package or by the two separate ones. -/
theorem sat_evaluateAdmission (h : Acts g T lin) (hP : ∀ c s r s', c.Quiet → P c s r s')
    (p : Payload) (exists_ quarantined : NodeId → Bool) (auth : Claims) (s : σ) :
    Act.Sat T P (evaluateAdmission p exists_ quarantined auth)
      (Decides lin s p exists_ quarantined) s := by
  refine h.ext_bind hP ?_ fun e s' hs' => hs'
  intro now s₁ _ hs₁
  rw [Act.sat_bind, Act.sat_attempt]
  intro r s₂ ht
  refine ⟨hP _ _ _ _ trivial, ?_⟩
  obtain ⟨hlaw, hl⟩ := h.ext ht
  have hs₂ : lin s₂ = lin s := hl.trans hs₁
  rcases hlaw with ⟨e, rfl⟩ | rfl | ⟨i, v, -, rfl⟩
  · -- an engine error: `PolicyEvaluationError` falls back, anything else is raised
    cases e with
    | policy m => exact sat_evaluateSequentially h hP p exists_ quarantined _ s s₂ hs₂
    | http status d => exact hs₂
    | readTimeout => exact hs₂
    | other m => exact hs₂
  · simp only [onOk_ok, Policy.rego]
    cases hw : Policy.allowStateWrite (integrityInput p exists_ quarantined) with
    | false => exact ⟨decisionSound_integrityRefusal p exists_ quarantined, hs₂⟩
    | true =>
      have hclean := parents_of_allowStateWrite hw
      cases Policy.allowReintegration (verificationInput p quarantined auth now) with
      | false => exact ⟨filter_eq_nil_of_clean hclean, hs₂⟩
      | true => exact ⟨hclean, hs₂⟩
  · exact sat_evaluateSequentially h hP p exists_ quarantined _ s s₂ hs₂

theorem sat_failClosed (h : Acts g T lin) (hP : ∀ c s r s', c.Quiet → P c s r s')
    (p : Payload) (exists_ quarantined : NodeId → Bool) (auth : Claims) (s : σ) :
    Act.Sat T P (failClosed (evaluateAdmission p exists_ quarantined auth))
      (Decides lin s p exists_ quarantined) s := by
  rw [failClosed, Act.sat_bind, Act.sat_attempt]
  refine (sat_evaluateAdmission h hP p exists_ quarantined auth s).mono ?_
  rintro (e | d) s' hs'
  · cases e with
    | policy m => exact hs'
    | http status d => exact hs'
    | readTimeout => exact hs'
    | other m => exact hs'
  · exact hs'

/-! ## 2. The outcomes -/

/-- 200 with `idempotent = false`. -/
def Response.Admits (a : Response) : Prop := a = { reply := .committed false }

/-- 403 `TAINTED_PARENT`. -/
def Response.Rejects (a : Response) : Prop :=
  ∃ event replacement, a = { status := 403, reply := .tainted event replacement }

/-- REQ-001: a declared hash is that of the stored parent, if that has one. -/
def Lineage.HashesMatch (L : Lineage) (p : Payload) : Prop :=
  ∀ c ∈ p.parents, ∀ n, Keyed.lookup NodeRow.nodeId L.nodes c.parentNodeId = some n →
    n.contentHash ≠ "" → c.parentContentHash.getD "" = n.contentHash

/-- What the locked section can answer and leave behind, from the lineage `L`.  `K` is what the
setting the section runs in guarantees about the write that decides it: the commit, or the ledger
write of a rejection. -/
inductive SubmitOutcome (K : CommitSite → Payload → Lineage → Prop) (sha256 : String → String)
    (p : Payload) (L : Lineage) : Response → Lineage → Prop
  | refused {a : Response} (ha : ¬ (a.Admits ∨ a.Rejects))
      (hclean : ∀ x ∈ p.parentIds, x ∉ L.ledger) : SubmitOutcome K sha256 p L a L
  | admitted (gap : Option (List NodeId)) (hid : p.payloadId ∉ L.ledger)
      (hparents : ∀ x ∈ p.parentIds, x ∈ L.nodeIds ∧ x ∉ L.ledger)
      (hcovers : p.nodeType = some .compaction → ∀ x ∈ p.covers, x ∉ L.ledger)
      (hhashes : L.HashesMatch p)
      (hK : K .admission { p with coversIntervalGap := gap } L) :
      SubmitOutcome K sha256 p L
        { reply := .committed (!(L.commitNode sha256 { p with coversIntervalGap := gap }).1) }
        (L.commitNode sha256 { p with coversIntervalGap := gap }).2
  | rejected {a : Response} (gap : Option (List NodeId)) (ha : a.Rejects)
      (hid : p.payloadId ∉ L.ledger) (htainted : ∃ x ∈ p.parentIds, x ∈ L.ledger)
      (hcovers : p.nodeType = some .compaction → ∀ x ∈ p.covers, x ∉ L.ledger)
      (hK : K .rejection { p with coversIntervalGap := gap } L) :
      SubmitOutcome K sha256 p L a
        ((L.commitNode sha256 { p with coversIntervalGap := gap }).2.quarantine [p.payloadId])

/-- The event of a containment at `x`, seen from the lineage `L` it is recorded in: its blast
radius is the traversal, and its digest is that of the ledger with the blast radius and `extra`
added. -/
structure EventFor (g : Setup) (L : Lineage) (extra : List NodeId) (event : QuarantineEvent) :
    Prop where
  radius : event.computedBlastRadius =
    sortedSet (L.traverse g.settings.maxTraversalDepth event.poisonedRootId)
  digest : event.monotonicLedgerDigestPostTransition =
    g.env.sha256 (Json.dumpsList (sortedSet (L.ledger ++ (event.computedBlastRadius ++ extra))))

/-! ## 3. The steps of the section -/

theorem sat_prepareCompaction (h : Acts g T lin) (hP : ∀ c s r s', c.Quiet → P c s r s')
    {β : Type} {f : Payload → Handler β} {F : β → σ → Prop} (p : Payload) (s : σ)
    (hok : ∀ gap s', lin s' = lin s →
      (p.nodeType = some .compaction → ∀ x ∈ p.covers, x ∉ (lin s).ledger) →
      Act.Sat T P (f { p with coversIntervalGap := gap }) (onOk F fun _ _ => True) s') :
    Act.Sat T P (prepareCompaction p >>= f) (onOk F fun _ _ => True) s := by
  rw [Act.sat_bind]
  unfold prepareCompaction
  split
  · rename_i hcomp
    refine h.read_bind hP (by simp [Store.Loud]) ?_ fun _ _ _ => trivial
    intro db gap s₁ _ _ hs₁
    split
    · rename_i hnil
      refine hok (some gap) s₁ hs₁ fun _ x hx => ?_
      rw [hnil] at hx
      exact absurd hx (by simp)
    · refine h.read_bind hP (by simp [Store.Loud]) ?_ fun _ _ _ => trivial
      intro db₂ quarantined s₂ hdb₂ hq hs₂
      obtain rfl := Except.ok.inj hq
      split
      · rename_i hfilter
        refine hok (some gap) s₂ (hs₂.trans hs₁) fun _ x hx hledger => ?_
        have hx' := List.filter_eq_nil_iff.mp hfilter x hx
        rw [← hs₁, ← hdb₂] at hledger
        exact hx' (by simp [Db.areQuarantined, hx, hledger])
      · trivial
  · rename_i hcomp
    exact hok p.coversIntervalGap s rfl fun hc => absurd hc hcomp

/-- The `TAINTED_PARENT` branch: the rejected payload is stored and its id, ONLY its id, enters
the ledger. -/
theorem sat_rejectTainted (h : Acts g T lin) (hP : ∀ c s r s', c.Quiet → P c s r s')
    (p : Payload) (root : NodeId) (s : σ)
    {K : Prop}
    (hcommit : ∀ r s', T (.store (.commitNode .rejection p)) s r s' →
      P (.store (.commitNode .rejection p)) s r s')
    (happly : ∀ event s₁ r s', EventFor g (lin s₁) [p.payloadId] event →
      event.poisonedRootId = root → event.designatorIdentity = none →
      lin s₁ = ((lin s).commitNode g.env.sha256 p).2 →
      T (.store (.applyQuarantineTransaction event [p.payloadId])) s₁ r s' →
      P (.store (.applyQuarantineTransaction event [p.payloadId])) s₁ r s' ∧ K) :
    Act.Sat T P (rejectTainted g p root)
      (onOk (fun _ s' => K ∧ lin s' =
        ((lin s).commitNode g.env.sha256 p).2.quarantine [p.payloadId]) fun _ _ => True) s := by
  refine h.commit_bind (K := True) (fun r s' ht => ⟨hcommit r s' ht, trivial⟩) ?_
    fun _ _ _ => trivial
  intro s₁ _ hs₁
  refine h.read_bind hP (by simp [Store.Loud]) ?_ fun _ _ _ => trivial
  intro db₂ ids s₂ hdb₂ hids hs₂
  obtain rfl := Except.ok.inj hids
  refine h.quiet_bind hP (uses_recurrenceHook g (Call.of_quiet rfl) _ _) ?_ fun _ _ _ => trivial
  intro _ s₃ hs₃
  refine h.read_bind hP (by simp [Store.Loud]) ?_ fun _ _ _ => trivial
  intro db₄ digest s₄ hdb₄ hdigest hs₄
  obtain rfl := Except.ok.inj hdigest
  refine h.quiet_bind hP (quiet_ext _) ?_ fun _ _ _ => trivial
  intro eventId s₅ hs₅
  refine h.quiet_bind hP (uses_stampNow (Call.of_quiet rfl)) ?_ fun _ _ _ => trivial
  intro detected s₆ hs₆
  have hs₆₁ : lin s₆ = lin s₁ := by rw [hs₆, hs₅, hs₄, hs₃, hs₂]
  have hledger : db₄.ledger = (lin s₆).ledger := by
    rw [hs₆₁, ← hs₂, ← hs₃, ← hdb₄]
  refine h.quarantine_bind (K := K) ?_ ?_ fun _ _ _ => trivial
  · intro r s' ht
    refine happly _ s₆ r s' ⟨?_, ?_⟩ rfl rfl (hs₆₁.trans hs₁) ht
    · rw [hs₆₁, ← hdb₂]
      rfl
    · rw [← hledger]
      rfl
  · intro s₇ hK hs₇
    refine h.quiet_bind hP (uses_stampNow (Call.of_quiet rfl)) ?_ fun _ _ _ => trivial
    intro rejected s₈ hs₈
    refine h.quiet_bind hP (quiet_store (by simp [Store.Loud])) ?_ fun _ _ _ => trivial
    intro _ s₉ hs₉
    refine h.quiet_bind hP (uses_offerReplacement (Call.of_quiet rfl) p root) ?_ fun _ _ _ => trivial
    intro replacement s₁₀ hs₁₀
    refine ⟨hK, ?_⟩
    rw [hs₁₀, hs₉, hs₈, hs₇, hs₆₁, hs₁]

/-- An admitted write commits the payload, unless a declared hash is wrong. -/
theorem sat_admitWrite (h : Acts g T lin) (p : Payload) (hashes : NodeId → Option String) (s : σ)
    {K : Prop}
    (hcommit : ∀ r s', T (.store (.commitNode .admission p)) s r s' →
      P (.store (.commitNode .admission p)) s r s' ∧ K) :
    Act.Sat T P (admitWrite p hashes)
      (onOk (fun isNew s' => K ∧ p.parents.findSome? (hashMismatch hashes) = none ∧
          (isNew, lin s') = (lin s).commitNode g.env.sha256 p) fun _ _ => True) s := by
  unfold admitWrite
  split
  · trivial
  · rename_i hnone
    intro r s' ht
    obtain ⟨hp, hK⟩ := hcommit r s' ht
    refine ⟨hp, ?_⟩
    rcases h.store ht with ⟨e, rfl, -⟩ | ⟨db, hdb, rfl, hs'⟩
    · trivial
    · refine ⟨hK, hnone, ?_⟩
      rw [hs', ← hdb]
      rfl

/-- What was compared is what is stored. -/
theorem hashesMatch_of_none {L : Lineage} {db : Db} (hdb : db.toLineage = L) {p : Payload}
    (h : p.parents.findSome? (hashMismatch (db.getNodeContentHashes p.parentIds)) = none) :
    L.HashesMatch p := by
  intro c hc n hn hne
  have hmem : c.parentNodeId ∈ p.parentIds := List.mem_map_of_mem hc
  have hstored : db.getNodeContentHashes p.parentIds c.parentNodeId = some n.contentHash := by
    rw [Db.getNodeContentHashes, if_pos hmem, hdb, hn]
    rfl
  have hnone := List.findSome?_eq_none_iff.mp h c hc
  by_contra hdiff
  simp [hashMismatch, hstored, hne, hdiff] at hnone

/-- What a submission of `p` may be asked to show (`P`), and may use (`K`), about its own calls,
when its section starts from the lineage `L`. -/
structure SubmitCalls (g : Setup) (T P : Trans Call Call.Res Exc σ) (lin : σ → Lineage)
    (p : Payload) (L : Lineage) (K : CommitSite → Payload → Lineage → Prop) : Prop where
  quiet : ∀ c s r s', c.Quiet → P c s r s'
  admitted : ∀ gap s r s', lin s = L →
    T (.store (.commitNode .admission { p with coversIntervalGap := gap })) s r s' →
    P (.store (.commitNode .admission { p with coversIntervalGap := gap })) s r s' ∧
      K .admission { p with coversIntervalGap := gap } L
  reject : ∀ gap s r s', lin s = L →
    T (.store (.commitNode .rejection { p with coversIntervalGap := gap })) s r s' →
    P (.store (.commitNode .rejection { p with coversIntervalGap := gap })) s r s'
  apply : ∀ event gap s r s',
    lin s = (L.commitNode g.env.sha256 { p with coversIntervalGap := gap }).2 →
    EventFor g (lin s) [p.payloadId] event → event.designatorIdentity = none →
    event.poisonedRootId ∈ p.parentIds → event.poisonedRootId ∈ L.ledger →
    T (.store (.applyQuarantineTransaction event [p.payloadId])) s r s' →
    P (.store (.applyQuarantineTransaction event [p.payloadId])) s r s' ∧
      K .rejection { p with coversIntervalGap := gap } L

/-- What the section has read of the lineage `L` by the time it decides. -/
structure SubmitReads (L : Lineage) (p : Payload) (exists_ quarantined : NodeId → Bool)
    (hashes : NodeId → Option String) : Prop where
  id : p.payloadId ∉ L.ledger
  exists_ : ∀ x ∈ p.parentIds, exists_ x = true → x ∈ L.nodeIds
  quarantined : ∀ x ∈ p.parentIds, (quarantined x = true ↔ x ∈ L.ledger)
  covers : p.nodeType = some .compaction → ∀ x ∈ p.covers, x ∉ L.ledger
  hashes : ∃ db : Db, db.toLineage = L ∧ hashes = db.getNodeContentHashes p.parentIds

section Phases

variable {K : CommitSite → Payload → Lineage → Prop} {p : Payload} {L : Lineage} {s : σ}
  {exists_ quarantined : NodeId → Bool} {hashes : NodeId → Option String}

theorem SubmitReads.clean (hreads : SubmitReads L p exists_ quarantined hashes)
    (hfilter : p.parentIds.filter quarantined = []) : ∀ x ∈ p.parentIds, x ∉ L.ledger :=
  fun x hx hl => List.filter_eq_nil_iff.mp hfilter x hx ((hreads.quarantined x hx).mpr hl)

/-- The write is admitted: its parents are stored and clean, and it is committed. -/
theorem sat_enforce_admitted (h : Acts g T lin) (hcalls : SubmitCalls g T P lin p L K)
    (hreads : SubmitReads L p exists_ quarantined hashes) (hs : lin s = L)
    (hsound : DecisionSound p exists_ quarantined .admitted) (gap : Option (List NodeId))
    (status : List ParentStatus) (decisionId writer : String) :
    Act.Sat T P (enforce g { p with coversIntervalGap := gap } status hashes decisionId writer .admitted)
      (onOk (fun a s' => SubmitOutcome K g.env.sha256 p L a (lin s')) fun _ _ => True) s := by
  obtain ⟨db, hdb, rfl⟩ := hreads.hashes
  have hparents : ∀ x ∈ p.parentIds, x ∈ L.nodeIds ∧ x ∉ L.ledger := by
    intro x hx
    obtain ⟨hstored, hclean⟩ := hsound x hx
    refine ⟨hreads.exists_ x hx hstored, fun hl => ?_⟩
    rw [(hreads.quarantined x hx).mpr hl] at hclean
    exact absurd hclean (by simp)
  rw [enforce, Act.sat_bind]
  refine (sat_admitWrite (K := K .admission { p with coversIntervalGap := gap } L) h _ _ s
    fun r s' ht => hcalls.admitted _ _ _ _ hs ht).mono ?_
  rintro (e | isNew) s₁ hs₁
  · trivial
  · obtain ⟨hK, hnone, hcommit⟩ := hs₁
    rw [hs] at hcommit
    obtain ⟨hnew, hlin⟩ := Prod.mk.injEq .. ▸ hcommit
    refine h.quiet_bind hcalls.quiet (uses_auditAdmission g (Call.of_quiet rfl) _ _ _ _ isNew) ?_
      fun _ _ _ => trivial
    intro _ s₂ hs₂
    change SubmitOutcome _ _ _ _ { reply := .committed (!isNew) } (lin s₂)
    rw [hs₂, hnew, hlin]
    exact .admitted gap hreads.id hparents hreads.covers (hashesMatch_of_none hdb hnone) hK

/-- A parent is in the ledger: the payload is stored, and its id enters the ledger. -/
theorem sat_enforce_tainted (h : Acts g T lin) (hcalls : SubmitCalls g T P lin p L K)
    (hreads : SubmitReads L p exists_ quarantined hashes) (hs : lin s = L) {root : NodeId}
    (hsound : DecisionSound p exists_ quarantined (.taintedParent root)) (gap : Option (List NodeId))
    (status : List ParentStatus) (decisionId writer : String) :
    Act.Sat T P
      (enforce g { p with coversIntervalGap := gap } status hashes decisionId writer (.taintedParent root))
      (onOk (fun a s' => SubmitOutcome K g.env.sha256 p L a (lin s')) fun _ _ => True) s := by
  obtain ⟨rest, hroot⟩ := hsound
  have hmem : root ∈ p.parentIds ∧ quarantined root = true := by
    rw [← List.mem_filter, hroot]
    exact List.mem_cons_self
  have hledger : root ∈ L.ledger := (hreads.quarantined root hmem.1).mp hmem.2
  rw [enforce, Act.sat_bind]
  refine (sat_rejectTainted (K := K .rejection { p with coversIntervalGap := gap } L) h
    hcalls.quiet _ root s (fun r s' ht => ?_) ?_).mono ?_
  · exact hcalls.reject _ _ _ _ hs ht
  · intro event s₁ r s' hev hrt hdes hs₁ ht
    rw [hs] at hs₁
    exact hcalls.apply event gap s₁ r s' hs₁ hev hdes (hrt ▸ hmem.1) (hrt ▸ hledger) ht
  · rintro (e | a) s₁ hs₁
    · trivial
    · rw [onOk_ok, hs] at hs₁
      refine h.quiet_bind hcalls.quiet (uses_recordDecision g (Call.of_quiet rfl) _ _ _ _ _ _) ?_
        fun _ _ _ => trivial
      intro _ s₂ hs₂
      change SubmitOutcome _ _ _ _ _ (lin s₂)
      rw [hs₂, hs₁.2]
      exact .rejected gap ⟨_, _, rfl⟩ hreads.id ⟨root, hmem.1, hledger⟩ hreads.covers hs₁.1

/-- Any other decision is recorded, and that is all. -/
theorem sat_refuse (h : Acts g T lin) (hcalls : SubmitCalls g T P lin p L K) (hs : lin s = L)
    (hclean : ∀ x ∈ p.parentIds, x ∉ L.ledger) {a : Response} (ha : ¬ (a.Admits ∨ a.Rejects))
    (q : Payload) (status : List ParentStatus) (decisionId writer reason : String) :
    Act.Sat T P (recordDecision g decisionId writer q status true reason >>= fun _ => pure a)
      (onOk (fun a s' => SubmitOutcome K g.env.sha256 p L a (lin s')) fun _ _ => True) s := by
  refine h.quiet_bind hcalls.quiet (uses_recordDecision g (Call.of_quiet rfl) _ _ _ _ _ _) ?_
    fun _ _ _ => trivial
  intro _ s₁ hs₁
  change SubmitOutcome _ _ _ _ a (lin s₁)
  rw [hs₁, hs]
  exact .refused ha hclean

/-- What is done with a decision, one case for each. -/
theorem sat_enforce (h : Acts g T lin) (hcalls : SubmitCalls g T P lin p L K)
    (hreads : SubmitReads L p exists_ quarantined hashes) (hs : lin s = L) {decision : Decision}
    (hsound : DecisionSound p exists_ quarantined decision) (gap : Option (List NodeId))
    (status : List ParentStatus) (decisionId writer : String) :
    Act.Sat T P (enforce g { p with coversIntervalGap := gap } status hashes decisionId writer decision)
      (onOk (fun a s' => SubmitOutcome K g.env.sha256 p L a (lin s')) fun _ _ => True) s := by
  have hplain : ∀ {status : ℕ} {reason : String},
      ¬ (Response.Admits { status := status, reply := .refused reason } ∨
        Response.Rejects { status := status, reply := .refused reason }) := by
    intro status reason
    simp [Response.Admits, Response.Rejects]
  cases decision with
  | admitted => exact sat_enforce_admitted h hcalls hreads hs hsound gap status decisionId writer
  | taintedParent root => exact sat_enforce_tainted h hcalls hreads hs hsound gap status decisionId writer
  | lineageInvalid => exact sat_refuse h hcalls hs (hreads.clean hsound) hplain _ _ _ _ _
  | verificationFailed => exact sat_refuse h hcalls hs (hreads.clean hsound) hplain _ _ _ _ _

/-- **The locked section of `/submit-candidate`, in enforcement mode.** -/
theorem sat_submitLocked (h : Acts g T lin) (hmode : g.settings.enforcementMode = .enforce) (p : Payload)
    (auth : Claims) (decisionId : String) (s : σ) (hcalls : SubmitCalls g T P lin p (lin s) K) :
    Act.Sat T P (submitLocked g p auth decisionId)
      (onOk (fun a s' => SubmitOutcome K g.env.sha256 p (lin s) a (lin s')) fun _ _ => True) s := by
  have hP := hcalls.quiet
  refine h.read_bind hP (by simp [Store.Loud]) ?_ fun _ _ _ => trivial
  intro db₁ idQuarantined s₁ hdb₁ hq₁ hs₁
  obtain rfl := Except.ok.inj hq₁
  rw [Act.sat_bind, Act.sat_raiseIf]
  refine ⟨fun _ => trivial, fun hid => ?_⟩
  refine h.read_bind hP (by simp [Store.Loud]) ?_ fun _ _ _ => trivial
  intro db₂ exists_ s₂ hdb₂ hex hs₂
  obtain rfl := Except.ok.inj hex
  refine h.read_bind hP (by simp [Store.Loud]) ?_ fun _ _ _ => trivial
  intro db₃ quarantined s₃ hdb₃ hq hs₃
  obtain rfl := Except.ok.inj hq
  refine h.read_bind hP (by simp [Store.Loud]) ?_ fun _ _ _ => trivial
  intro db₄ hashes s₄ hdb₄ hh hs₄
  obtain rfl := Except.ok.inj hh
  have hs₄ : lin s₄ = lin s := by rw [hs₄, hs₃, hs₂, hs₁]
  refine sat_prepareCompaction h hP p s₄ ?_
  intro gap s₅ hs₅ hcovers
  rw [hs₄] at hs₅ hcovers
  -- all of it was read from the lineage the section started with
  have hreads : SubmitReads (lin s) p (db₂.nodesExist p.parentIds) (db₃.areQuarantined p.parentIds)
      (db₄.getNodeContentHashes p.parentIds) := by
    refine ⟨?_, fun x hx hb => ?_, fun x hx => ?_, hcovers, db₄, ?_, rfl⟩
    · rw [← hdb₁]
      simpa [Db.areQuarantined] using hid
    · rw [← hs₁, ← hdb₂]
      simpa [Db.nodesExist, hx] using hb
    · rw [← hs₁, ← hs₂, ← hdb₃]
      simp [Db.areQuarantined, hx]
    · rw [hdb₄, hs₃, hs₂, hs₁]
  rw [Act.sat_bind]
  refine (sat_failClosed h hP _ _ _ auth s₅).mono ?_
  rintro (e | decision) s₆ hd
  · trivial
  · obtain ⟨hsound, hs₆⟩ := hd
    simp only [onOk_ok, hmode]
    exact sat_enforce h hcalls hreads (hs₆.trans hs₅) hsound gap _ _ _

end Phases

/-! ## 4. Before the lock -/

/-- What is parsed is the payload that was sent. -/
theorem parseSubmission_body {bytes : ℕ} {body : SubmitBody} {p : Payload}
    (h : parseSubmission g bytes body = .ok p) : body = .payload p := by
  unfold parseSubmission at h
  split at h
  · exact absurd h (by simp)
  · cases body with
    | notJson => exact absurd h (by simp)
    | malformed message aboutAlgorithm => exact absurd h (by simp)
    | payload q =>
      simp only at h
      split at h
      · rw [Except.ok.inj h]
      · exact absurd h (by simp)

theorem parseSubmission_payload {bytes : ℕ} {p q : Payload}
    (h : parseSubmission g bytes (.payload p) = .ok q) : q = p :=
  (SubmitBody.payload.inj (parseSubmission_body h)).symm

section Before

variable {τ : Type} {T : Trans Call Call.Res Exc τ} (hT : ∀ e s r s', T (.ext e) s r s' → s' = s)

include hT

theorem asking_bind {β : Type} {e : Ext} {f : e.Res → Handler β} {Q : Except Exc β → τ → Prop}
    {s : τ} (hok : ∀ a, Act.Sat T Trans.any (f a) Q s) (herr : ∀ x, Q (.error x) s) :
    Act.Sat T Trans.any (ext e >>= f) Q s := by
  rw [Act.sat_bind]
  intro r s' ht
  obtain rfl := hT e s r s' ht
  cases r with
  | error x => exact ⟨trivial, herr x⟩
  | ok a => exact ⟨trivial, hok a⟩

/-- What has been checked when the lock is taken; asking the outside world is all that is done. -/
theorem sat_submitChecks (bytes : ℕ) (body : SubmitBody) (s : τ) :
    Act.Sat T Trans.any (submitChecks g bytes body)
      (onOk (fun out s' => s' = s ∧ parseSubmission g bytes body = .ok out.1 ∧
          (∃ t auth, verifyNhiJwt g.env t out.1.sessionToken out.1.identityId = .ok auth) ∧
          verifyCryptographicSignature g.env out.1 = true ∧ out.1.parentIds.length ≤ 256)
        fun _ s' => s' = s) s := by
  rw [submitChecks]
  cases hparse : parseSubmission g bytes body with
  | error e => exact rfl
  | ok p =>
    change Act.Sat _ _ (verifyNhi g p.sessionToken p.identityId >>= _) _ _
    rw [Act.sat_bind, verifyNhi]
    refine asking_bind hT (fun t => ?_) fun _ => rfl
    cases htoken : verifyNhiJwt g.env t p.sessionToken p.identityId with
    | error e => exact rfl
    | ok auth =>
      change Act.Sat _ _ (Act.raiseIf _ _ >>= _) _ _
      rw [Act.sat_bind, Act.sat_raiseIf]
      refine ⟨fun _ => rfl, fun hsig => ?_⟩
      rw [onOk_ok, Act.sat_bind, Act.sat_raiseIf]
      refine ⟨fun _ => rfl, fun hlen => ?_⟩
      refine asking_bind hT (fun u => ⟨rfl, rfl, ⟨t, auth, htoken⟩, ?_, ?_⟩) fun _ => rfl
      · simpa using hsig
      · simpa using hlen

end Before

end GovernorGateway
