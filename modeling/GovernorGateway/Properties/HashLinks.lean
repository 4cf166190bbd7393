/-
# Hash links

A payload declares the content hash of each of its parents.  `/submit-candidate` compares them with
what is stored (REQ-001), `/context-compacted` and substitution (M3) copy the stored digests; a
checkpoint replay (M4) and an inline reconstruction declare sixty-four `e` whatever the parent is,
and an adapter's candidate declares what the adapter likes.

So the links are right in every run in which the parents that these last ones name are stored, with
no content hash or with the one that is declared (`hashLinks_of_run`), and one inline reconstruction
from a summary breaks them (`hashLinks_broken`).
-/
import GovernorGateway.Semantics.Scripted

namespace GovernorGateway

open Effects

/-! ## 1. Links -/

namespace Lineage

/-- The hash that is declared for a parent is its stored content hash, if that is not empty. -/
def Declares (c : ParentCommitment) (n : NodeRow) : Prop :=
  n.contentHash = "" ∨ c.parentContentHash.getD "" = n.contentHash

/-- **Hash-link integrity** of the nodes outside the ledger. -/
def HashLinks (L : Lineage) : Prop :=
  ∀ n ∈ L.nodes, n.nodeId ∉ L.ledger → ∀ c ∈ n.payload.parents,
    ∀ m ∈ L.nodes, m.nodeId = c.parentNodeId → m.contentHash ≠ "" →
      c.parentContentHash.getD "" = m.contentHash

/-- Each declared parent is stored, with a hash that fits. -/
def LinksTo (L : Lineage) (p : Payload) : Prop :=
  ∀ c ∈ p.parents, ∃ n ∈ L.nodes, n.nodeId = c.parentNodeId ∧ Declares c n

/-- The invariant: no node outside the ledger has a parent that is missing, so no parent is stored
LATER than the hash that was declared for it. -/
structure Linked (L : Lineage) : Prop where
  nodup : L.nodeIds.Nodup
  digest : ∀ n ∈ L.nodes, n.contentHash = n.payload.contentDigest.getD ""
  links : ∀ n ∈ L.nodes, n.nodeId ∉ L.ledger → L.LinksTo n.payload

namespace Linked

variable {L : Lineage} {sha256 : String → String} {p : Payload}

theorem hashLinks (h : L.Linked) : L.HashLinks := by
  intro n hn hq c hc m hm hid hne
  obtain ⟨m', hm', hid', hdecl⟩ := h.links n hn hq c hc
  have hsame : m' = m := by
    have h₁ : Keyed.lookup NodeRow.nodeId L.nodes m'.nodeId = some m' :=
      Keyed.lookup_of_mem h.nodup hm'
    have h₂ : Keyed.lookup NodeRow.nodeId L.nodes m.nodeId = some m :=
      Keyed.lookup_of_mem h.nodup hm
    rw [hid', ← hid, h₂] at h₁
    exact (Option.some.inj h₁).symm
  rw [hsame] at hdecl
  exact hdecl.resolve_left hne

/-- A commit, with a ledger write after it: a new node fits, or it is quarantined. -/
theorem write (h : L.Linked) (ids : List NodeId)
    (hp : p.payloadId ∈ L.nodeIds ∨ p.payloadId ∈ ids ∨ L.LinksTo p) :
    ((L.commitNode sha256 p).2.quarantine ids).Linked := by
  have hkeep : ∀ q : Payload, L.LinksTo q → (L.commitNode sha256 p).2.LinksTo q := by
    intro q hq c hc
    obtain ⟨n, hn, hid, hdecl⟩ := hq c hc
    exact ⟨n, mem_nodes_commitNode.mpr (Or.inl hn), hid, hdecl⟩
  refine ⟨?_, ?_, ?_⟩
  · rw [quarantine_nodeIds]
    exact nodup_nodeIds_commitNode h.nodup
  · intro n hn
    rcases mem_nodes_commitNode.mp hn with hn | ⟨rfl, -⟩
    · exact h.digest n hn
    · rfl
  · intro n hn hq
    rw [mem_ledger_quarantine, commitNode_ledger, not_or] at hq
    rcases mem_nodes_commitNode.mp hn with hn | ⟨rfl, hnew⟩
    · exact hkeep n.payload (h.links n hn hq.1)
    · rcases hp with hold | hids | hlinks
      · exact absurd hold hnew
      · exact absurd hids hq.2
      · exact hkeep p hlinks

theorem commitNode (h : L.Linked) (hp : p.payloadId ∈ L.nodeIds ∨ L.LinksTo p) :
    (L.commitNode sha256 p).2.Linked :=
  h.write [] (hp.imp_right Or.inr)

theorem quarantine (h : L.Linked) (ids : List NodeId) : (L.quarantine ids).Linked := by
  refine ⟨h.nodup, h.digest, fun n hn hq => h.links n hn ?_⟩
  rw [mem_ledger_quarantine, not_or] at hq
  exact hq.1

/-- What REQ-001 compared. -/
theorem linksTo_of_match (h : L.Linked) (hparents : ∀ x ∈ p.parentIds, x ∈ L.nodeIds)
    (hmatch : L.HashesMatch p) : L.LinksTo p := by
  intro c hc
  obtain ⟨n, hn, hid⟩ := Lineage.mem_nodeIds.mp (hparents _ (List.mem_map_of_mem hc))
  have hlookup : Keyed.lookup NodeRow.nodeId L.nodes c.parentNodeId = some n :=
    hid ▸ Keyed.lookup_of_mem h.nodup hn
  refine ⟨n, hn, hid, ?_⟩
  by_cases hne : n.contentHash = ""
  · exact Or.inl hne
  · exact Or.inr (hmatch c hc n hlookup hne)

/-- What was copied. -/
theorem linksTo_of_copies (h : L.Linked) (hcopies : L.CopiesHashes p) : L.LinksTo p := by
  intro c hc
  obtain ⟨n, hn, hid, digest, hhash⟩ := hcopies c hc
  refine ⟨n, hn, hid, ?_⟩
  rw [Declares, hhash, h.digest n hn]
  cases n.payload.contentDigest with
  | none => exact Or.inl rfl
  | some d => exact Or.inr rfl

end Linked

end Lineage

/-! ## 2. Runs -/

variable {g : Setup} {answers : Answers}

/-- The payloads whose hashes nobody compares fit what is stored when they are committed. -/
def LinksFit : Trans Call Call.Res Exc World
  | .store (.commitNode .reconstruction p), w, _, _ => p.payloadId ∈ w.lin.nodeIds ∨ w.lin.LinksTo p
  | .store (.commitNode .checkpointReplay p), w, _, _ => p.payloadId ∈ w.lin.nodeIds ∨ w.lin.LinksTo p
  | _, _, _, _ => True

/-- **Every write of such a run keeps the links.** -/
theorem requestCalls_linked :
    RequestCalls g (restrict (Step g answers) LinksFit) Trans.any Lineage.Linked
      (fun _ _ => True) (fun _ _ _ => True) where
  quiet := fun _ _ _ _ _ => trivial
  sync := fun _ _ _ _ => trivial
  commit := by
    rintro site p w r w' hsite ⟨-, hok⟩
    refine ⟨trivial, fun hrej hL hfacts => ?_⟩
    cases site with
    | shadow => exact absurd hfacts id
    | reconstruction => exact absurd rfl hsite
    | rejection => exact absurd rfl hrej
    | admission =>
      obtain ⟨-, hparents, -, hmatch⟩ := hfacts
      exact hL.commitNode (Or.inr (hL.linksTo_of_match (fun x hx => (hparents x hx).1) hmatch))
    | compaction => exact hL.commitNode (Or.inr (hL.linksTo_of_copies hfacts.2))
    | substitution => exact hL.commitNode (Or.inr (hL.linksTo_of_copies hfacts.2))
    | checkpointReplay => exact hL.commitNode hok
    | seedRoot =>
      refine hL.commitNode (Or.inr fun c hc => ?_)
      exact absurd (Or.inl (List.mem_map_of_mem hc)) (hfacts c.parentNodeId)
  reject := by
    intro event p L w r w' hL _ _ _ _
    exact ⟨trivial, fun _ => hL.write [p.payloadId] (Or.inr (Or.inl (by simp)))⟩
  contain := fun _ _ _ _ hL _ _ _ => ⟨trivial, hL.quarantine _⟩
  pending := fun _ _ _ _ _ _ _ => trivial
  adapter := fun _ _ _ _ _ => trivial
  reconstruct := fun _ _ _ _ _ hL _ _ ht => ⟨trivial, hL.commitNode ht.2⟩

theorem World.linked_initial (g : Setup) (db : Db) (adapterKey : Option String) :
    (World.initial g db adapterKey).lin.Linked where
  nodup := List.nodup_singleton _
  digest := by
    intro n hn
    rw [List.mem_singleton.mp hn]
    rfl
  links := by
    intro n hn _ c hc
    rw [List.mem_singleton.mp hn] at hc
    exact absurd hc List.not_mem_nil

/-- **Hash-link integrity** in every world of a run, from a reset, that meets the condition. -/
theorem hashLinks_of_run (hlaw : answers.Lawful) (hmode : g.settings.enforcementMode = .enforce)
    {db : Db} {adapterKey : Option String} {hs : List Handled} {w' : World}
    (hrun : Run g (Step g answers) (World.initial g db adapterKey) hs w')
    (hok : ∀ k ∈ hs, ∀ e ∈ k.trace, LinksFit e.call e.before e.answer e.after) :
    w'.lin.HashLinks ∧ ∀ k ∈ hs, k.after.lin.HashLinks := by
  obtain ⟨hend, hall⟩ := (hrun.restrict hok).invariant (P := Trans.any)
    (I := fun w => w.lin.Linked) (fun req _ hw => requestCalls_linked.sat_handle hlaw hmode req hw)
    (World.linked_initial g db adapterKey)
  exact ⟨hend.hashLinks, fun k hk => (hall k hk).1.hashLinks⟩

/-- The condition, on the state that a call finds. -/
def linksFit : Call → World → Bool
  | .store (.commitNode .reconstruction p), w | .store (.commitNode .checkpointReplay p), w =>
    p.payloadId ∈ w.lin.nodeIds || p.parents.all fun c => w.lin.nodes.any fun n =>
      n.nodeId = c.parentNodeId &&
        (n.contentHash = "" || c.parentContentHash.getD "" = n.contentHash)
  | _, _ => true

theorem linksFit_spec {p : Payload} {L : Lineage}
    (h : (p.payloadId ∈ L.nodeIds || p.parents.all fun c => L.nodes.any fun n =>
      n.nodeId = c.parentNodeId &&
        (n.contentHash = "" || c.parentContentHash.getD "" = n.contentHash)) = true) :
    p.payloadId ∈ L.nodeIds ∨ L.LinksTo p := by
  simpa [Lineage.LinksTo, Lineage.Declares] using h

/-- The root has no content, so the summary that is rebuilt from it fits. -/
theorem hashLinks_after_rebuild : ∃ hs w,
    Run openSetup (Step openSetup Answers.lawful) (World.initial openSetup {} none) hs w ∧
    "reconstructed-3" ∈ w.lin.nodeIds ∧ w.lin.HashLinks := by
  have hcheck : ∀ c w r w', linksFit c w = true → Step openSetup Answers.lawful c w r w' →
      LinksFit c w r w' := by
    intro c w r w' h _
    cases c with
    | store c =>
      cases c with
      | commitNode site p => cases site <;> first | trivial | exact linksFit_spec h
      | _ => trivial
    | _ => trivial
  obtain ⟨hs, hrun, -, hok⟩ := Script.exists_checked_run openSetup linksFit hcheck
    (openRun rebuildRequests) (World.initial openSetup {} none) (by decide +kernel)
  exact ⟨hs, _, hrun, by decide +kernel, (hashLinks_of_run (fun _ _ h => h) rfl hrun hok).1⟩

/-- Two summaries of the root and a summary of these; then a checkpoint of the first one, and a
report of the second. -/
def rebuildFromSummary : List Request :=
  [openSummary "summary-a" ["clean-parent-1"], openSummary "summary-b" ["clean-parent-1"],
    openSummary "summary-c" ["summary-a", "summary-b"], openCheckpoint "summary-a",
    openReport "summary-b"]

instance (L : Lineage) : Decidable L.HashLinks :=
  inferInstanceAs (Decidable (∀ n ∈ L.nodes, _ → ∀ c ∈ n.payload.parents, ∀ m ∈ L.nodes, _ → _ → _))

/-- The third summary is rebuilt from the first one, whose digest is not sixty-four `e`. -/
theorem hashLinks_broken : ¬ ∀ hs w, Run openSetup (Step openSetup Answers.lawful)
    (World.initial openSetup {} none) hs w → w.lin.HashLinks := by
  intro hall
  obtain ⟨hs, hrun, -⟩ := exists_open_run rebuildFromSummary none
  have hlinks := hall hs _ hrun
  revert hlinks
  decide +kernel

end GovernorGateway
