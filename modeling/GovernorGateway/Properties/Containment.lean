/-
# Transitive containment over runs

The gateway's promise is that a quarantined node taints whatever was derived from it: in every state
of every run, a stored node that names a quarantined id is quarantined itself
(`Lineage.Contained`).

The endpoints keep this promise EXCEPT where they do not look: `ContainmentOk` lists these places,
one condition for each kind of write, on the state the write finds.  A run whose writes all meet
their conditions is contained throughout (`contained_of_run`), and then a designation that answers
200 has contained everything below the node it was about, along paths of any length
(`designate_complete_of_run`).
-/
import GovernorGateway.Semantics.Scripted

namespace GovernorGateway

open Effects

/-! ## 1. The conditions -/

/-- The condition on a write, in the state it finds:

* an admitted payload covers nothing quarantined, or its id is taken and nothing is stored;
* a replayed checkpoint does not fall back on a quarantined root;
* a candidate that has passed the gate names nothing quarantined, or its id is taken;
* a designation is not cut off by the depth bound;
* nothing outside the ledger names the id of a rejected payload, except the payload itself. -/
def ContainmentOk (g : Setup) : Trans Call Call.Res Exc World
  | .store (.commitNode .admission p), w, _, _ =>
    p.payloadId ∈ w.lin.nodeIds ∨ ∀ x ∈ p.covers, x ∉ w.lin.ledger
  | .store (.commitNode .checkpointReplay p), w, _, _ =>
    p.Names "clean-parent-1" → "clean-parent-1" ∉ w.lin.ledger
  | .store (.commitNode .reconstruction p), w, _, _ =>
    p.payloadId ∈ w.lin.nodeIds ∨ ∀ x, p.Names x → x ∉ w.lin.ledger
  | .store (.applyQuarantineTransaction event ids), w, _, _ =>
    if event.designatorIdentity.isSome then
      w.lin.DepthCovers g.settings.maxTraversalDepth event.poisonedRootId
    else
      ∀ n ∈ w.lin.nodes, ∀ x ∈ ids, n.payload.Names x → n.nodeId ∈ w.lin.ledger ∨ n.nodeId ∈ ids
  | _, _, _, _ => True

/-! ## 2. What each write keeps -/

/-- The invariant of a run. -/
structure Lineage.Sound (L : Lineage) : Prop where
  wf : L.Wf
  contained : L.Contained

namespace Lineage.Sound

variable {L : Lineage} {sha256 : String → String} {p : Payload}

theorem commitNode (h : L.Sound)
    (hp : p.payloadId ∈ L.nodeIds ∨ ∀ x, p.Names x → x ∉ L.ledger) :
    (L.commitNode sha256 p).2.Sound :=
  ⟨h.wf.commitNode, contained_commitNode h.contained (hp.imp_right Or.inr)⟩

/-- A rejection: the payload itself is quarantined, so only what names its ID can escape. -/
theorem reject (h : L.Sound)
    (hid : ∀ n ∈ (L.commitNode sha256 p).2.nodes, ∀ x ∈ [p.payloadId], n.payload.Names x →
      n.nodeId ∈ (L.commitNode sha256 p).2.ledger ∨ n.nodeId ∈ [p.payloadId]) :
    ((L.commitNode sha256 p).2.quarantine [p.payloadId]).Sound := by
  refine ⟨h.wf.commitNode.quarantine _, ?_⟩
  intro n hn x hx hnames
  rw [mem_ledger_quarantine] at hx ⊢
  rcases hx with hx | hx
  · rcases mem_nodes_commitNode.mp hn with hn | ⟨rfl, -⟩
    · rw [commitNode_ledger] at hx ⊢
      exact Or.inl (h.contained n hn x hx hnames)
    · exact Or.inr (List.mem_singleton.mpr rfl)
  · exact hid n hn x hx hnames

/-- A designation that the depth bound does not cut off. -/
theorem contain (h : L.Sound) {D : Int} {root : NodeId} (hD : L.DepthCovers D root) :
    (L.quarantine (sortedSet (L.traverse D root))).Sound :=
  ⟨h.wf.quarantine _,
    (contained_quarantine_traverse_iff h.wf h.contained fun _ => mem_sortedSet).mpr hD⟩

end Lineage.Sound

section Run

variable {g : Setup} {answers : Answers}

/-- **Every write of a run that meets the conditions keeps containment.** -/
theorem requestCalls_containment :
    RequestCalls g (restrict (Step g answers) (ContainmentOk g)) Trans.any Lineage.Sound
      (fun _ _ => True) (fun _ _ _ => True) where
  quiet := fun _ _ _ _ _ => trivial
  sync := fun _ _ _ _ => trivial
  commit := by
    rintro site p w r w' hsite ⟨-, hok⟩
    refine ⟨trivial, fun hrej hL hfacts => ?_⟩
    cases site with
    | shadow => exact absurd hfacts id
    | reconstruction => exact absurd rfl hsite
    | admission =>
      refine hL.commitNode (hok.imp_right fun hcovers x hx => ?_)
      rcases hx with hx | hx
      · exact (hfacts.2.1 x hx).2
      · exact hcovers x hx
    | rejection => exact absurd rfl hrej
    | compaction => exact hL.commitNode (Or.inr hfacts.1)
    | substitution => exact hL.commitNode (Or.inr hfacts.1)
    | seedRoot => exact hL.commitNode (Or.inr fun x hx => absurd hx (hfacts x))
    | checkpointReplay =>
      refine hL.commitNode (Or.inr fun x hx => ?_)
      rcases hfacts x hx with hclean | rfl
      · exact hclean
      · exact hok hx
  reject := by
    rintro event p L w r w' hL hw hev hdes ⟨-, hok⟩
    refine ⟨trivial, fun _ => hL.reject ?_⟩
    simp only [ContainmentOk, hdes, Option.isSome_none, Bool.false_eq_true, if_false, hw] at hok
    exact hok
  contain := by
    rintro event w r w' hL hev hdes ⟨-, hok⟩
    refine ⟨trivial, ?_⟩
    simp only [ContainmentOk, hdes, if_true] at hok
    rw [hev.radius]
    exact hL.contain hok
  pending := fun _ _ _ _ _ _ _ => trivial
  adapter := fun _ _ _ _ _ => trivial
  reconstruct := by
    rintro rc p w r w' hL - - ⟨-, hok⟩
    exact ⟨trivial, hL.commitNode hok⟩

/-- A harmless call meets every condition. -/
theorem containmentOk_of_harmless {c : Call} {w w' : World} {r : Except Exc c.Res}
    (h : c.Harmless) : ContainmentOk g c w r w' := by
  cases c with
  | store c =>
    cases c with
    | commitNode site p =>
      rcases h with rfl | rfl
      · trivial
      · trivial
    | applyQuarantineTransaction event ids => exact absurd h id
    | _ => trivial
  | _ => trivial

end Run

/-! ## 3. A run that does not meet the conditions

The initial root is summarised by `summary-1`; then a payload is submitted under the ROOT'S id with
a tainted parent.  The rejection quarantines the root and does not look for what was derived from
it. -/

section Reuse

variable (sha256 : String → String)

/-- The commitment of the summary to the root. -/
def rootCommitment : ParentCommitment where
  parentNodeId := "clean-parent-1"
  parentContentHash := some zeros64
  edgeClass := some .carried

/-- The payload of the summary. -/
def summaryPayload : Payload :=
  compactionPayload (sampleSetup sha256)
    (sampleCompaction "summary-1" ["clean-parent-1"] "llm_summary") [rootCommitment]

/-- The tables with the root and its summary. -/
def summarised : Lineage :=
  ((World.initial (sampleSetup sha256) {} none).lin.commitNode sha256 (summaryPayload sha256)).2

theorem summarised_eq : summarised sha256 =
    { nodes := [Lineage.nodeRow sha256 { payloadId := "clean-parent-1" },
        Lineage.nodeRow sha256 (summaryPayload sha256)],
      edges := [⟨"summary-1", "clean-parent-1", .carried⟩], ledger := ["quarantined-node-A"] } := by
  rfl

/-- After the two requests the root is quarantined and its summary is not. -/
theorem exists_reuse_run {sha256 : String → String} (hsha : ∀ s, hex64 (sha256 s) = true) :
    ∃ hs w, Run (sampleSetup sha256) (Step (sampleSetup sha256) Answers.lawful)
        (World.initial (sampleSetup sha256) {} none) hs w ∧
      w.lin = (summarised sha256).quarantine ["clean-parent-1"] ∧ w.db.signalAttempts = [] := by
  let w₀ := World.initial (sampleSetup sha256) {} none
  have hsummary := sample_compaction_commits "summary-1" ["clean-parent-1"] "llm_summary"
    [rootCommitment] (g := sampleSetup sha256) (o := { now := 0, uuid := "" }) (C := Trans.any)
    (w := w₀) (P := Trans.any) (fun _ _ _ _ _ => trivial) rfl rfl
    (by simp [w₀, World.initial_ledger])
  obtain ⟨k₁, -, hexec₁, -, -, hafter₁⟩ :=
    exists_handled (.contextCompacted (sampleCompaction "summary-1" ["clean-parent-1"]
      "llm_summary")) hsummary
  have hlin₁ : k₁.after.lin = summarised sha256 := by rw [hafter₁]; rfl
  have hrej := sample_rejectable hsha (t := 0) (L := k₁.after.lin) "clean-parent-1"
    "quarantined-node-A" (by rw [hlin₁, summarised_eq]; simp)
    (by rw [hlin₁, summarised_eq]; simp)
  have hreject := submitCandidate_rejects (g := sampleSetup sha256) (o := { now := 0, uuid := "" })
    (C := Trans.any) (w := k₁.after) rfl hrej (by rw [hafter₁]; simp [w₀, World.initial, Db.reset,
      Db.commitNode, Db.cleared]) (P := Trans.any) (fun _ _ _ _ _ => trivial) (K := True)
    fun _ _ _ _ _ _ _ _ _ _ => ⟨trivial, trivial⟩
  obtain ⟨k₂, -, hexec₂, -, -, hjournal, gap, hlin₂⟩ := exists_handled (.submitCandidate 512
    (.payload (samplePayload sha256 "clean-parent-1" ["quarantined-node-A"]))) hreject
  refine ⟨[k₁, k₂], k₂.after, .cons hexec₁ (.cons hexec₂ (.nil _)), ?_, ?_⟩
  · rw [hlin₂, Lineage.commitNode_of_mem, hlin₁]
    · rfl
    · rw [hlin₁, summarised_eq]
      simp [Lineage.nodeIds, Lineage.nodeRow, samplePayload]
  · have hsignals := congrArg Journal.signalAttempts hjournal
    rw [hafter₁] at hsignals
    exact hsignals

end Reuse

/-! ## 4. Transitive containment -/

section Containment

variable {g : Setup} {answers : Answers}

theorem World.sound_initial (db : Db) (adapterKey : Option String) :
    (World.initial g db adapterKey).lin.Sound :=
  ⟨(Lineage.wf_reset g.env.sha256 db).1, (Lineage.wf_reset g.env.sha256 db).2⟩

/-- **Transitive containment.**  From the state after `reset`, run any requests one after the other.
If every write finds a state that meets its condition, then in every state reached every stored node
that names a quarantined id is quarantined. -/
theorem contained_of_run (hlaw : answers.Lawful) (hmode : g.settings.enforcementMode = .enforce)
    {db : Db} {adapterKey : Option String} {hs : List Handled} {w' : World}
    (hrun : Run g (Step g answers) (World.initial g db adapterKey) hs w')
    (hok : ∀ k ∈ hs, ∀ e ∈ k.trace, ContainmentOk g e.call e.before e.answer e.after) :
    w'.lin.Contained ∧ ∀ k ∈ hs, k.after.lin.Contained := by
  obtain ⟨hend, hall⟩ := (hrun.restrict hok).invariant (P := Trans.any)
    (I := fun w => w.lin.Sound)
    (fun req w hw => requestCalls_containment.sat_handle hlaw hmode req hw)
    (World.sound_initial db adapterKey)
  exact ⟨hend.contained, fun k hk => (hall k hk).1.contained⟩

/-- The summary of a quarantined root is not quarantined. -/
theorem not_contained_reuse : ¬ ∃ sha256 : String → String, (∀ s, hex64 (sha256 s) = true) ∧
    ∀ hs w, Run (sampleSetup sha256) (Step (sampleSetup sha256) Answers.lawful)
      (World.initial (sampleSetup sha256) {} none) hs w → w.lin.Contained := by
  rintro ⟨sha256, hsha, hall⟩
  obtain ⟨hs, w, hrun, hlin, -⟩ := exists_reuse_run hsha
  have hcontained := hall hs w hrun
  rw [hlin, summarised_eq] at hcontained
  have hmem := hcontained (Lineage.nodeRow sha256 (summaryPayload sha256)) (by simp)
    "clean-parent-1" (by simp) (Or.inr (by simp [Lineage.nodeRow, summaryPayload,
      compactionPayload, sampleCompaction]))
  simp [Lineage.nodeRow, summaryPayload, compactionPayload, sampleCompaction] at hmem

/-- The run in which the initial root is summarised. -/
theorem contained_after_summary : ∃ hs w,
    Run (sampleSetup fun _ => zeros64) (Step (sampleSetup fun _ => zeros64) Answers.lawful)
      (World.initial (sampleSetup fun _ => zeros64) {} none) hs w ∧
    w.lin.nodeIds = ["clean-parent-1", "summary-1"] ∧ w.lin.Contained := by
  obtain ⟨k, -, hexec, htrace, -, hafter⟩ := exists_handled
    (.contextCompacted (sampleCompaction "summary-1" ["clean-parent-1"] "llm_summary"))
    (sample_compaction_commits "summary-1" ["clean-parent-1"] "llm_summary" [rootCommitment]
      (o := { now := 0, uuid := "" })
      (g := sampleSetup fun _ => zeros64)
      (w := World.initial (sampleSetup fun _ => zeros64) {} none) (P := ContainmentOk _)
      (fun _ _ _ _ => containmentOk_of_harmless) rfl rfl
      (by simp [World.initial_ledger]))
  have hrun : Run (sampleSetup fun _ => zeros64)
      (Step (sampleSetup fun _ => zeros64) Answers.lawful)
      (World.initial (sampleSetup fun _ => zeros64) {} none) [k] k.after := .cons hexec (.nil _)
  refine ⟨[k], k.after, hrun, by rw [hafter]; rfl, ?_⟩
  refine (contained_of_run (fun _ _ h => h) rfl hrun ?_).1
  intro j hj
  rw [List.mem_singleton.mp hj]
  exact htrace

/-! ## 5. Designation -/

/-- **Designation is complete.**  In such a run, a designation that answers 200, whether it
contained the node or found it in the ledger, leaves everything that can be reached from the node in
the ledger. -/
theorem designate_complete_of_run (hlaw : answers.Lawful)
    (hmode : g.settings.enforcementMode = .enforce) {db : Db} {adapterKey : Option String}
    {hs : List Handled} {w' : World}
    (hrun : Run g (Step g answers) (World.initial g db adapterKey) hs w')
    (hok : ∀ k ∈ hs, ∀ e ∈ k.trace, ContainmentOk g e.call e.before e.answer e.after)
    {k : Handled} (hk : k ∈ hs) {header : Option String} {e : DesignationEvent} {a : Response}
    (hreq : k.request = .designate header e) (hout : k.outcome = .ok a) (h200 : a.status = 200)
    {y : NodeId} (hy : Relation.ReflTransGen k.after.lin.Edge e.poisonedNodeId y) :
    y ∈ k.after.lin.ledger := by
  obtain ⟨w, hw, hexec, hafter⟩ := (hrun.restrict hok).mem_invariant (I := fun w => w.lin.Sound)
    (fun req w hw => requestCalls_containment.sat_handle hlaw hmode req hw)
    (World.sound_initial db adapterKey) hk
  rw [hreq] at hexec
  have hpost := (Prog.Sat.sound
    (requestCalls_containment.sat_designatePoison hlaw header e hw) hexec).2
  rw [hout] at hpost
  exact Lineage.Contained.reachable hafter.wf hafter.contained (hpost.2 h200 hw.wf) hy

/-- A designation of the root then answers 200, "already in quarantine ledger", and the summary
stays where it is. -/
theorem designate_incomplete_reuse : ¬ ∃ sha256 : String → String,
    (∀ s, hex64 (sha256 s) = true) ∧
    ∀ hs w, Run (sampleSetup sha256) (Step (sampleSetup sha256) Answers.lawful)
      (World.initial (sampleSetup sha256) {} none) hs w →
      ∀ k ∈ hs, ∀ header e a, k.request = .designate header e → k.outcome = .ok a →
        a.status = 200 → ∀ y, Relation.ReflTransGen k.after.lin.Edge e.poisonedNodeId y →
          y ∈ k.after.lin.ledger := by
  rintro ⟨sha256, hsha, hall⟩
  obtain ⟨hs, w, hrun, hlin, hsignals⟩ := exists_reuse_run hsha
  have hdesignate := designate_already (g := sampleSetup sha256) (o := { now := 0, uuid := "" })
    (C := Trans.any) (P := Trans.any) (w := w) (e := ⟨"clean-parent-1", "poisoned"⟩)
    (fun _ _ _ _ _ => trivial) sample_designator (by simp [sampleSetup]) hsignals
    (by rw [hlin, summarised_eq]; simp [Lineage.nodeIds, Lineage.nodeRow])
    (by rw [hlin, summarised_eq]; simp)
  obtain ⟨k, hreq, hexec, -, hout, hafter⟩ := exists_handled
    (.designate (some "Bearer designator-token") ⟨"clean-parent-1", "poisoned"⟩) hdesignate
  have hedge : k.after.lin.Edge "clean-parent-1" "summary-1" := by
    rw [hafter, hlin, summarised_eq]
    exact ⟨⟨"summary-1", "clean-parent-1", .carried⟩, by simp, rfl, rfl⟩
  have hmem := hall (hs ++ [k]) k.after (hrun.snoc hexec) k (by simp) _ _ _ hreq hout rfl
    "summary-1" (.single hedge)
  rw [hafter, hlin, summarised_eq] at hmem
  simp at hmem

/-- The seeded quarantined node is stored by `/seed-root` and then designated. -/
theorem designate_seeded : ∃ hs w, ∃ k ∈ hs,
    Run (sampleSetup fun _ => zeros64) (Step (sampleSetup fun _ => zeros64) Answers.lawful)
      (World.initial (sampleSetup fun _ => zeros64) {} none) hs w ∧
    k.request = .designate (some "Bearer designator-token") ⟨"quarantined-node-A", "poisoned"⟩ ∧
    k.outcome = .ok { reply := .alreadyQuarantined } ∧
    "quarantined-node-A" ∈ k.after.lin.ledger := by
  let g := sampleSetup fun _ => zeros64
  obtain ⟨k₁, -, hexec₁, htrace₁, p, hid, -, -, hafter₁⟩ := exists_handled
    (.seedRoot (some "Bearer admin-token") (some "quarantined-node-A"))
    (seedRoot_commits (g := g) (o := { now := 0, uuid := "" }) (C := Trans.any)
      (w := World.initial g {} none) (P := ContainmentOk g)
      (fun _ _ _ _ => containmentOk_of_harmless) sample_admin (by decide)
      (by simp [World.initial_nodeIds]))
  have hstored : "quarantined-node-A" ∈ k₁.after.lin.nodeIds := by
    rw [hafter₁]
    exact Lineage.mem_nodeIds_commitNode.mpr (Or.inr hid.symm)
  have hledger : "quarantined-node-A" ∈ k₁.after.lin.ledger := by
    rw [hafter₁]
    change _ ∈ (Lineage.commitNode _ p _).2.ledger
    rw [Lineage.commitNode_ledger]
    simp [World.initial_ledger]
  obtain ⟨k₂, hreq, hexec₂, htrace₂, hout, -⟩ := exists_handled
    (.designate (some "Bearer designator-token") ⟨"quarantined-node-A", "poisoned"⟩)
    (designate_already (g := g) (o := { now := 0, uuid := "" }) (C := Trans.any) (w := k₁.after)
      (e := ⟨"quarantined-node-A", "poisoned"⟩) (P := ContainmentOk g)
      (fun _ _ _ _ => containmentOk_of_harmless) sample_designator (by decide)
      (by rw [hafter₁]; rfl) hstored hledger)
  have hrun : Run g (Step g Answers.lawful) (World.initial g {} none) [k₁, k₂] k₂.after :=
    .cons hexec₁ (.cons hexec₂ (.nil _))
  refine ⟨[k₁, k₂], k₂.after, k₂, by simp, hrun, hreq, hout, ?_⟩
  refine designate_complete_of_run (fun _ _ h => h) rfl hrun ?_ (k := k₂) (by simp) hreq hout rfl
    .refl
  intro k hk
  rcases List.mem_cons.mp hk with rfl | hk
  · exact htrace₁
  · rw [List.mem_singleton.mp hk]
    exact htrace₂

end Containment

end GovernorGateway
