/-
# What a reconstructed node is made of

The gate checks the signature of a candidate, its identity, and that it covers just the frontier of
its record.  It does NOT look into the ledger.  So a node that `_attempt_reconstruction` commits
names something quarantined in two ways:

* the adapter names a quarantined parent of its own choice (`reintegration_of_tainted_parent`);
* the frontier is what the compaction covers outside the radius of ONE traversal, and something else
  that it covers has been quarantined by another one, before or since.

`reintegration_clean_of_run`: in every run in which neither happens to a candidate that passes the
gate, every reconstructed node has a clean ancestry when it is committed.  The first pass over the
run is the one of `Properties/Frontiers.lean`, and tells which traversals the frontiers come from;
the second one follows the candidates through the gate.
-/
import GovernorGateway.Properties.Frontiers

namespace GovernorGateway

open Effects

variable {g : Setup} {answers : Answers}

/-! ## 1. The property and its condition -/

/-- Whatever the ledger has of the covered ids was found by the traversal of the run that the
frontier comes from. -/
def TraversalFound (g : Setup) (hs : List Handled) (ledger covers frontier : List NodeId) : Prop :=
  ∀ root L, Traversed hs root L → FrontierFrom g.settings.maxTraversalDepth root L covers frontier →
    ∀ x ∈ covers, x ∈ ledger → x ∈ L.traverse g.settings.maxTraversalDepth root

/-- A frontier that accounts for the ledger has nothing of it. -/
theorem TraversalFound.clean {hs : List Handled} {ledger covers frontier : List NodeId}
    (h : TraversalFound g hs ledger covers frontier)
    (hfrom : ∃ root L, Traversed hs root L ∧
      FrontierFrom g.settings.maxTraversalDepth root L covers frontier) :
    ∀ x ∈ frontier, x ∉ ledger := by
  obtain ⟨root, L, htraversed, hwf, rfl⟩ := hfrom
  intro x hx hledger
  obtain ⟨hcovers, hout⟩ := List.mem_filter.mp hx
  exact of_decide_eq_true hout (h root L htraversed ⟨hwf, rfl⟩ x hcovers hledger)

/-! ## 2. What the first pass leaves of the condition -/

variable {C : Trans Call Call.Res Exc World} {ledger : List NodeId} {key : Option String}

end GovernorGateway
