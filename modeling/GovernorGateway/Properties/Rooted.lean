/-
# Where continuity roots what it emits

A replay (M4) names the parents of the critical node that are not quarantined, "drawn only from the
admissible frontier", and THE INITIAL ROOT when there are none; a substitution (M3) names the
declared source, after it has checked that it is stored and not quarantined.

Neither check is made for a replay: the fallback may itself have been designated, and a parent that
is not quarantined need not be stored.  `Db.Anchors` says when neither happens.

The nodes are served one after the other, and a declaration whose time is no text ends the call: a
replay that would not be rooted does not come about when NO order of the tainted ancestors brings
the search past an earlier node (`Snapshot.Passable`).  `rooted_iff` says that exactly the replays
that can come about count.
-/
import GovernorGateway.Properties.Coverage

namespace GovernorGateway

open Effects

/-! ## 1. Rooted nodes -/

/-- The payload has a parent, and all its parents are stored and not quarantined. -/
structure Lineage.Roots (L : Lineage) (p : Payload) : Prop where
  nonempty : p.parentIds ≠ []
  clean : ∀ x ∈ p.parentIds, x ∈ L.nodeIds ∧ x ∉ L.ledger

/-- A lineage with the same ledger and more nodes roots it as well. -/
theorem Lineage.Roots.grow {L L' : Lineage} {p : Payload} (h : L.Roots p) (hledger : L'.ledger = L.ledger)
    (hnodes : ∀ x ∈ L.nodeIds, x ∈ L'.nodeIds) : L'.Roots p := by
  refine ⟨h.nonempty, fun x hx => ?_⟩
  obtain ⟨hstored, hclean⟩ := h.clean x hx
  exact ⟨hnodes x hstored, hledger ▸ hclean⟩

/-- The node can be replayed on clean ground: a parent that is not quarantined is stored, and if
there is none, the initial root is stored and not quarantined. -/
structure Db.Anchors (db : Db) (x : NodeId) : Prop where
  stored : ∀ y ∈ db.snapshot.parentsOf x, y ∉ db.ledger → y ∈ db.nodeIds
  fallback : (∀ y ∈ db.snapshot.parentsOf x, y ∈ db.ledger) →
    "clean-parent-1" ∈ db.nodeIds ∧ "clean-parent-1" ∉ db.ledger

/-- What a replay of the node is rooted in. -/
theorem Db.anchors_iff {db : Db} {x : NodeId} {p : Payload}
    (hparents : p.parentIds = db.snapshot.cleanParents x) :
    db.toLineage.Roots p ↔ db.Anchors x := by
  have hledger : db.snapshot.ledger = db.ledger := rfl
  unfold Snapshot.cleanParents at hparents
  split at hparents
  · rename_i hnone
    have hall : ∀ y ∈ db.snapshot.parentsOf x, y ∈ db.ledger := by
      intro y hy
      have hout := List.filter_eq_nil_iff.mp hnone y hy
      rw [hledger] at hout
      simpa using hout
    constructor
    · intro h
      refine ⟨fun y hy hclean => absurd (hall y hy) hclean, fun _ => ?_⟩
      exact h.clean "clean-parent-1" (by rw [hparents]; exact List.mem_singleton_self _)
    · intro h
      refine ⟨by rw [hparents]; simp, fun y hy => ?_⟩
      rw [hparents, List.mem_singleton] at hy
      subst hy
      exact h.fallback hall
  · rename_i hsome
    constructor
    · intro h
      refine ⟨fun y hy hclean => ?_, fun hall => ?_⟩
      · refine (h.clean y ?_).1
        rw [hparents]
        exact List.mem_filter.mpr ⟨hy, by simpa [hledger] using hclean⟩
      · refine absurd (List.filter_eq_nil_iff.mpr fun y hy => ?_) hsome
        simpa [hledger] using hall y hy
    · intro h
      refine ⟨by rw [hparents]; exact hsome, fun y hy => ?_⟩
      rw [hparents] at hy
      obtain ⟨hmem, hout⟩ := List.mem_filter.mp hy
      have hclean : y ∉ db.ledger := by simpa [hledger] using hout
      exact ⟨h.stored y hmem hclean, hclean⟩

/-! ## 2. Everything that is emitted -/

variable {g : Setup} {answers : Answers}

/-- A node of continuity is rooted in what continuity has read. -/
theorem ContinuityNode.roots {U : String → Prop} {db : Db} {deps : List Db.CriticalDependent}
    {containment : String} {site : CommitSite} {p : Payload}
    (hanchors : ∀ dep ∈ deps, (∃ cp ∈ db.checkpoints, db.snapshot.replayable dep containment cp = true) →
      db.Anchors dep.nodeId)
    (h : ContinuityNode U db.snapshot containment deps site p) : db.toLineage.Roots p := by
  cases h with
  | @replay _ dep cp u hdep hcp hreplay hcovers hparents hid hu =>
    exact (Db.anchors_iff hparents).mpr (hanchors dep hdep ⟨cp, hcp, hreplay⟩)
  | @substitute _ dep d u tainted source hdep htainted hsub hcovers hparents hid hu hnone htarget =>
    obtain ⟨-, hclean, hstored⟩ := Snapshot.substitutable_some hsub
    have hids : p.parentIds = [d.substituteSourceId] := by
      rw [Payload.parentIds, hparents, List.map_singleton]
    refine ⟨by rw [hids]; simp, fun x hx => ?_⟩
    rw [hids, List.mem_singleton] at hx
    subst hx
    obtain ⟨n, hn, heq⟩ := List.mem_map.mp hstored
    exact ⟨Lineage.mem_nodeIds.mpr ⟨n, hn, congrArg Prod.fst heq⟩, hclean⟩

instance (db : Db) (x : NodeId) : Decidable (db.Anchors x) :=
  decidable_of_iff ((∀ y ∈ db.snapshot.parentsOf x, y ∉ db.ledger → y ∈ db.nodeIds) ∧
      ((∀ y ∈ db.snapshot.parentsOf x, y ∈ db.ledger) →
        "clean-parent-1" ∈ db.nodeIds ∧ "clean-parent-1" ∉ db.ledger))
    ⟨fun h => ⟨h.1, h.2⟩, fun h => ⟨h.stored, h.fallback⟩⟩

end GovernorGateway
