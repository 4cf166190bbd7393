/-
# What is recorded of an incident

A quarantine event carries a digest of the ledger "after the transition", computed BEFORE the
transition.  `Truthful` says that it is the digest of the ledger right after it.  This is a property
of the calls of a run rather than of its states; it holds in every run whose rejections meet a
condition on the state they find.
-/
import GovernorGateway.Properties.Containment

namespace GovernorGateway

open Effects

variable {g : Setup} {answers : Answers}

/-! ## 1. The digest of the ledger -/

/-- `json.dumps(sorted(ledger))`, hashed. -/
def Lineage.ledgerDigest (sha256 : String → String) (L : Lineage) : String :=
  sha256 (Json.dumpsList (L.ledger.insertionSort (· ≤ ·)))

/-- The event that `apply_quarantine_transaction` records tells the digest of the ledger it leaves
behind, and nothing has left the ledger. -/
def Truthful (g : Setup) : Trans Call Call.Res Exc World
  | .store (.applyQuarantineTransaction event _), w, _, w' =>
    { event with maxTraversalDepth := some g.settings.maxTraversalDepth } ∈ w'.db.quarantineEvents ∧
      event.monotonicLedgerDigestPostTransition = w'.lin.ledgerDigest g.env.sha256 ∧
      ∀ x ∈ w.lin.ledger, x ∈ w'.lin.ledger
  | _, _, _, _ => True

/-- The condition on a rejection, in the state its ledger write finds: whatever the traversal finds
below the poisoned root is in the ledger, or is about to be. -/
def RejectionCloses (g : Setup) : Trans Call Call.Res Exc World
  | .store (.applyQuarantineTransaction event ids), w, _, _ =>
    event.designatorIdentity = none →
      ∀ y, Reach.Within w.lin.Edge g.settings.maxTraversalDepth.toNat event.poisonedRootId y →
        y ∈ w.lin.ledger ∨ y ∈ ids
  | _, _, _, _ => True

/-- A ledger write is truthful exactly as far as the set that was digested is the ledger after
it. -/
theorem truthful_apply {event : QuarantineEvent} {ids extra : List NodeId} {w w' : World}
    {r : Except Exc QuarantineEvent} (hwf : w.lin.Wf) (hev : EventFor g w.lin extra event)
    (hset : ∀ y, y ∈ w.lin.ledger ∨ y ∈ event.computedBlastRadius ∨ y ∈ extra ↔
      y ∈ w.lin.ledger ∨ y ∈ ids)
    (ht : Step g answers (.store (.applyQuarantineTransaction event ids)) w r w') :
    Truthful g (.store (.applyQuarantineTransaction event ids)) w r w' := by
  obtain ⟨-, rfl⟩ := ht
  have hnodup := (hwf.quarantine ids).ledger_nodup
  refine ⟨?_, ?_, ?_⟩
  · exact Keyed.mem_insertOrReplace.mpr (Or.inr rfl)
  · rw [hev.digest]
    change _ = g.env.sha256 (Json.dumpsList ((w.lin.quarantine ids).ledger.insertionSort (· ≤ ·)))
    rw [← sortedSet_of_nodup hnodup]
    congr 2
    refine sortedSet_congr fun y => ?_
    rw [List.mem_append, List.mem_append, hset, Lineage.mem_ledger_quarantine]
  · intro x hx
    exact Lineage.mem_ledger_quarantine.mpr (Or.inl hx)

theorem requestCalls_truthful :
    RequestCalls g (restrict (Step g answers) (RejectionCloses g)) (Truthful g) Lineage.Wf
      (fun _ _ => True) (fun _ _ _ => True) where
  quiet := by
    intro c w r w' hc
    cases c with
    | store c =>
      cases c with
      | applyQuarantineTransaction event ids => exact absurd trivial hc
      | _ => trivial
    | _ => trivial
  sync := fun _ _ _ _ => trivial
  commit := by
    intro site p w r w' _ _
    refine ⟨trivial, fun hrej hwf _ => ?_⟩
    cases site with
    | rejection => exact absurd rfl hrej
    | _ => exact hwf.commitNode
  reject := by
    rintro event p L w r w' hL hw hev hdes ⟨ht, hok⟩
    have hwf : w.lin.Wf := hw ▸ hL.commitNode
    refine ⟨truthful_apply hwf hev (fun y => ?_) ht, fun _ => hL.commitNode.quarantine _⟩
    rw [hev.radius, mem_sortedSet, Lineage.mem_traverse hwf]
    constructor
    · rintro (hy | hy | hy)
      · exact Or.inl hy
      · exact hok hdes y hy
      · exact Or.inr hy
    · rintro (hy | hy)
      · exact Or.inl hy
      · exact Or.inr (Or.inr hy)
  contain := by
    rintro event w r w' hwf hev _ ⟨ht, -⟩
    refine ⟨truthful_apply hwf hev (fun y => ?_) ht, hwf.quarantine _⟩
    rw [List.mem_nil_iff, or_false]
  pending := fun _ _ _ _ _ _ _ => trivial
  adapter := fun _ _ _ _ _ => trivial
  reconstruct := fun _ _ _ _ _ hwf _ _ _ => ⟨trivial, hwf.commitNode⟩

/-- **Recorded events are truthful.**  In a run from well-formed tables, if every rejection finds
nothing outside the ledger below its poisoned root, then every recorded event tells the digest of
the ledger right after it. -/
theorem event_truthful_of_run (hlaw : answers.Lawful)
    (hmode : g.settings.enforcementMode = .enforce) {w w' : World} (hwf : w.lin.Wf)
    {hs : List Handled} (hrun : Run g (Step g answers) w hs w')
    (hok : ∀ k ∈ hs, ∀ e ∈ k.trace, RejectionCloses g e.call e.before e.answer e.after) :
    ∀ k ∈ hs, ∀ e ∈ k.trace, Truthful g e.call e.before e.answer e.after := by
  obtain ⟨-, hall⟩ := (hrun.restrict hok).invariant (P := Truthful g) (I := fun w => w.lin.Wf)
    (fun req w hw => requestCalls_truthful.sat_handle hlaw hmode req hw) hwf
  exact fun k hk => (hall k hk).2

/-- A ledger the digest was not taken of: the poisoned root has a summary that is in nobody's
ledger, and a second payload is rejected because of the root.  Unless the hash collides on the two
texts, the recorded digest is that of a ledger with the summary in it. -/
theorem event_untruthful_reuse : ¬ ∃ sha256 : String → String, (∀ s, hex64 (sha256 s) = true) ∧
    sha256 (Json.dumpsList ["clean-parent-1", "new-node", "quarantined-node-A", "summary-1"]) ≠
      sha256 (Json.dumpsList ["clean-parent-1", "new-node", "quarantined-node-A"]) ∧
    ∀ hs w, Run (sampleSetup sha256) (Step (sampleSetup sha256) Answers.lawful)
      (World.initial (sampleSetup sha256) {} none) hs w →
      ∀ k ∈ hs, ∀ e ∈ k.trace, Truthful (sampleSetup sha256) e.call e.before e.answer e.after := by
  rintro ⟨sha256, hsha, hcollide, hall⟩
  obtain ⟨hs, w, hrun, hlin, -⟩ := exists_reuse_run hsha
  obtain ⟨u, hu⟩ := exists_fresh (w.db.shadowDecisions.map ShadowDecision.decisionId)
  have hrej := sample_rejectable hsha (t := 0) (L := w.lin) "new-node"
    "clean-parent-1" (by rw [hlin, summarised_eq]; simp)
    (by rw [hlin, summarised_eq]; simp)
  have hreject := submitCandidate_rejects (g := sampleSetup sha256) (o := { now := 0, uuid := u })
    (C := Truthful (sampleSetup sha256)) (w := w) rfl hrej hu
    (P := Trans.any) (fun _ _ _ _ _ => trivial) (K := False) ?_
  · obtain ⟨k, -, hexec, e, he, hnot⟩ := exists_handled_not (.submitCandidate 512
      (.payload (samplePayload sha256 "new-node" ["clean-parent-1"])))
      (Act.Sat.mono hreject fun _ _ h => h.1)
    exact hnot (hall (hs ++ [k]) k.after (hrun.snoc hexec) k (by simp) e he)
  · rintro event gap w₁ r w₂ hw₁ hev - hroot ⟨⟨-, rfl⟩, -, htruth, -⟩
    refine ⟨trivial, ?_⟩
    rw [samplePayload_parentIds, List.mem_singleton] at hroot
    rw [hlin] at hw₁
    have hledger : w₁.lin.ledger = ["quarantined-node-A", "clean-parent-1"] := by rw [hw₁]; rfl
    have hedges : w₁.lin.edges = [⟨"summary-1", "clean-parent-1", .carried⟩,
        ⟨"new-node", "clean-parent-1", .material⟩] := by rw [hw₁]; rfl
    have htraverse : sortedSet (w₁.lin.traverse (sampleSetup sha256).settings.maxTraversalDepth
        "clean-parent-1") = ["clean-parent-1", "new-node", "summary-1"] := by
      rw [Lineage.traverse_congr (M := { edges := _ }) hedges (by decide)]
      change sortedSet (Lineage.traverse 1000 "clean-parent-1" { edges := _ }) = _
      decide
    rw [hev.digest, hev.radius, hroot, htraverse, hledger] at htruth
    refine hcollide (Eq.trans (congrArg sha256 (congrArg Json.dumpsList ?_)) (htruth.trans
      (congrArg sha256 (congrArg Json.dumpsList ?_))))
    · change _ = sortedSet (["quarantined-node-A", "clean-parent-1"] ++
        (["clean-parent-1", "new-node", "summary-1"] ++ ["new-node"]))
      decide
    · change (List.foldl (Keyed.insertOrIgnore id) w₁.lin.ledger ["new-node"]).insertionSort
        (· ≤ ·) = _
      rw [hledger]
      decide

/-- The rejection of a new payload right after `reset`. -/
theorem event_truthful_after_rejection : ∃ hs w,
    Run (sampleSetup fun _ => zeros64) (Step (sampleSetup fun _ => zeros64) Answers.lawful)
      (World.initial (sampleSetup fun _ => zeros64) {} none) hs w ∧
    "new-node" ∈ w.lin.ledger ∧
    ∀ k ∈ hs, ∀ e ∈ k.trace,
      Truthful (sampleSetup fun _ => zeros64) e.call e.before e.answer e.after := by
  let g := sampleSetup fun _ => zeros64
  let w₀ := World.initial g {} none
  have hwf : w₀.lin.Wf := (Lineage.wf_reset g.env.sha256 {}).1
  have hsha : ∀ s : String, hex64 ((fun _ => zeros64) s) = true := fun _ => hex64_zeros64
  have hrej := sample_rejectable hsha (t := 0) (L := w₀.lin) "new-node" "quarantined-node-A"
    (by simp [w₀, World.initial_ledger]) (by simp [w₀, World.initial_ledger])
  have hreject := submitCandidate_rejects (g := g) (o := { now := 0, uuid := "" })
    (C := Trans.any) (w := w₀) rfl hrej (by simp [w₀, World.initial, Db.reset, Db.commitNode,
      Db.cleared]) (P := RejectionCloses g) ?_ (K := True) ?_
  · obtain ⟨k, -, hexec, htrace, -, -, gap, hlin⟩ := exists_handled (.submitCandidate 512
      (.payload (samplePayload (fun _ => zeros64) "new-node" ["quarantined-node-A"]))) hreject
    have hrun : Run g (Step g Answers.lawful) w₀ [k] k.after := .cons hexec (.nil _)
    refine ⟨[k], k.after, hrun, ?_, ?_⟩
    · rw [hlin, Lineage.mem_ledger_quarantine]
      exact Or.inr (List.mem_singleton.mpr rfl)
    · refine event_truthful_of_run (fun _ _ h => h) rfl hwf hrun ?_
      intro j hj
      rw [List.mem_singleton.mp hj]
      exact htrace
  · intro c w r w' hc
    cases c with
    | store c =>
      cases c with
      | applyQuarantineTransaction event ids => exact absurd trivial hc
      | _ => trivial
    | _ => trivial
  · rintro event gap w₁ r w₂ hw₁ - - hroot -
    refine ⟨fun _ y hy => ?_, trivial⟩
    rw [samplePayload_parentIds, List.mem_singleton] at hroot
    rw [hroot, ← Lineage.mem_traverse (by rw [hw₁]; exact hwf.commitNode),
      Lineage.traverse_congr (M := { edges := [⟨"new-node", "quarantined-node-A", .material⟩] })
        (by rw [hw₁]; rfl) (by decide)] at hy
    have hball : Lineage.traverse g.settings.maxTraversalDepth "quarantined-node-A"
        { edges := [⟨"new-node", "quarantined-node-A", .material⟩] } =
          ["quarantined-node-A", "new-node"] := by decide
    rw [hball] at hy
    rcases List.mem_cons.mp hy with rfl | hy
    · refine Or.inl ?_
      rw [hw₁, Lineage.commitNode_ledger]
      simp [w₀, World.initial_ledger]
    · exact Or.inr hy

end GovernorGateway
