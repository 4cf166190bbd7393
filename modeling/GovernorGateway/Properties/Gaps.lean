/-
# What a compaction leaves out

The nodes that lie between two covered nodes and are not covered are the INTERVAL GAP of a
compaction.  The helper `_compute_covers_interval_gap` reads it off the parent references of the
payloads; the SQL of `SqliteStateBackend.compute_covers_interval_gap` reads it off the edge table,
and there are two differences:

* the edge table has an edge for every id that a payload COVERS, so the SQL finds nodes the helper
  does not;
* the SQL starts from the covered ids that are stored, the helper from all of them, so the helper
  finds nodes below an id that a payload names and nobody has stored.

`interval_gap_exact` is what the helper computes, on any dictionary.  `interval_gaps_agree_iff` says
when the edge table gives the same: neither difference is between covered ids.
-/
import GovernorGateway.Memory.Gap
import GovernorGateway.Properties.Backends

namespace GovernorGateway

open Relation

/-! ## 1. The helper -/

/-- **The interval gap is exact.**  The two loops end, and what they find in common and is not
covered is sorted, has nothing twice, and is what lies on parent references between two covered
ids. -/
theorem interval_gap_exact (dag : List (NodeId × Payload)) (hdag : (dag.map Prod.fst).Nodup)
    (covers : List NodeId) :
    ∃ gap, (∀ rounds, covers.length + dag.length ≤ rounds →
        Gap.computeCoversIntervalGap dag rounds covers = some gap) ∧
      gap.Pairwise (· < ·) ∧
      ∀ x, x ∈ gap ↔ x ∉ covers ∧ ∃ c₁ ∈ covers, ∃ c₂ ∈ covers,
        ReflTransGen (Gap.ParentEdge dag) c₁ x ∧ ReflTransGen (Gap.ParentEdge dag) x c₂ := by
  obtain ⟨gap, hrun, hsorted, hmem⟩ := Gap.gap_spec hdag covers
  refine ⟨gap, hrun, hsorted, fun x => ?_⟩
  rw [hmem]
  refine and_congr_right fun _ => ?_
  constructor
  · rintro ⟨⟨c₁, hc₁, hfrom⟩, c₂, hc₂, hto⟩
    exact ⟨c₁, hc₁, c₂, hc₂, hfrom, hto⟩
  · rintro ⟨c₁, hc₁, c₂, hc₂, hfrom, hto⟩
    exact ⟨⟨c₁, hc₁, hfrom⟩, c₂, hc₂, hto⟩

/-- A cycle between two covered ids, one of them not stored. -/
def cyclicDag : List (NodeId × Payload) :=
  [("a", { payloadId := "a", parents := [⟨"ghost", none, none⟩, ⟨"b", none, none⟩] }),
   ("b", { payloadId := "b", parents := [⟨"a", none, none⟩] }),
   ("c", { payloadId := "c", parents := [⟨"b", none, none⟩] })]

theorem interval_gap_exact_cyclic :
    Gap.computeCoversIntervalGap cyclicDag 5 ["ghost", "c"] = some ["a", "b"] ∧
      ∃ gap, (∀ rounds, 5 ≤ rounds →
          Gap.computeCoversIntervalGap cyclicDag rounds ["ghost", "c"] = some gap) ∧
        gap.Pairwise (· < ·) ∧
        ∀ x, x ∈ gap ↔ x ∉ ["ghost", "c"] ∧ ∃ c₁ ∈ ["ghost", "c"], ∃ c₂ ∈ ["ghost", "c"],
          ReflTransGen (Gap.ParentEdge cyclicDag) c₁ x ∧ ReflTransGen (Gap.ParentEdge cyclicDag) x c₂ :=
  ⟨by decide +kernel, interval_gap_exact cyclicDag (by decide) ["ghost", "c"]⟩

/-! ## 2. The edge table -/

/-- The covered ids that are stored. -/
def StoredCover (dag : List (NodeId × Payload)) (covers : List NodeId) (c : NodeId) : Prop :=
  c ∈ covers ∧ c ∈ dag.map Prod.fst

namespace Gap

/-- The payload stored under `y` covers `x`. -/
def CoversEdge (dag : List (NodeId × Payload)) (x y : NodeId) : Prop := ∃ p, (y, p) ∈ dag ∧ x ∈ p.covers

/-- The payload stored under `y` names `x`, in one way or the other. -/
def Edge (dag : List (NodeId × Payload)) (x y : NodeId) : Prop := ∃ p, (y, p) ∈ dag ∧ p.Names x

variable {dag : List (NodeId × Payload)} {x y : NodeId}

theorem edge_iff : Edge dag x y ↔ ParentEdge dag x y ∨ CoversEdge dag x y := by
  constructor
  · rintro ⟨p, hp, hx | hx⟩
    · exact Or.inl ⟨p, hp, hx⟩
    · exact Or.inr ⟨p, hp, hx⟩
  · rintro (⟨p, hp, hx⟩ | ⟨p, hp, hx⟩)
    · exact ⟨p, hp, Or.inl hx⟩
    · exact ⟨p, hp, Or.inr hx⟩

theorem Edge.stored (h : Edge dag x y) : y ∈ dag.map Prod.fst := by
  obtain ⟨p, hp, -⟩ := h
  exact List.mem_map.mpr ⟨(y, p), hp, rfl⟩

/-- **Where the two agree**, one edge at a time. -/
structure Alike (dag : List (NodeId × Payload)) (covers : List NodeId) : Prop where
  /-- A `COVERS` edge between stored covered ids has both of its ends on parent references between
  covered ids. -/
  covered : Reach.Covered (Edge dag) (CoversEdge dag) (ParentEdge dag) (StoredCover dag covers) (· ∈ covers)
  /-- A node below a covered id that is not stored, and above a covered id, is below one that is
  stored. -/
  seeded : ∀ c ∈ covers, c ∉ dag.map Prod.fst → ∀ z, ParentEdge dag c z →
    (∃ t ∈ covers, ReflTransGen (ParentEdge dag) z t) →
      ∃ s, StoredCover dag covers s ∧ ReflTransGen (Edge dag) s z

variable {covers : List NodeId}

/-- The nodes that the edge table puts between stored covered ids are those that the parent
references put between covered ids. -/
theorem alike_iff : Alike dag covers ↔ ∀ x, x ∉ covers →
    (Reach.Between (ParentEdge dag) (· ∈ covers) x ↔
      Reach.Between (Edge dag) (StoredCover dag covers) x) := by
  have hmore : (∀ x, Reach.Between (Edge dag) (StoredCover dag covers) x →
      Reach.Between (ParentEdge dag) (· ∈ covers) x) ↔ _ :=
    Reach.between_more_edges (fun _ _ => edge_iff) fun _ hx => hx.1
  have hfewer : (∀ x, x ∉ covers → Reach.Between (ParentEdge dag) (· ∈ covers) x →
      Reach.Between (Edge dag) (StoredCover dag covers) x) ↔ _ :=
    Reach.between_fewer_seeds (fun x y hxy => edge_iff.mpr (Or.inl hxy))
      fun x y hxy hy => ⟨hy, ParentEdge.stored hxy⟩
  constructor
  · rintro ⟨hcovered, hseeded⟩ x hx
    refine ⟨hfewer.mpr (fun c hc hns => hseeded c hc fun hs => hns ⟨hc, hs⟩) x hx, ?_⟩
    exact hmore.mpr hcovered x
  · intro h
    refine ⟨hmore.mp fun x hx => ?_, fun c hc hns => ?_⟩
    · by_cases hcov : x ∈ covers
      · exact .of_mem hcov
      · exact (h x hcov).mpr hx
    · exact hfewer.mp (fun x hx => (h x hx).mp) c hc fun hs => hns hs.2

end Gap

/-! ## 3. Two backends -/

namespace Backends

variable {b : Backends} {x : NodeId}

theorem SameTables.edge_iff (h : b.SameTables) {y : NodeId} :
    Gap.Edge b.memory.getDag x y ↔ b.sqlite.Edge x y := by
  rw [← h.refers_eq, Memory.Refers]
  constructor
  · rintro ⟨p, hp, hx⟩
    obtain ⟨q, hq, heq⟩ := List.mem_map.mp hp
    obtain ⟨rfl, rfl⟩ := Prod.mk.inj heq
    exact ⟨q, hq, rfl, hx⟩
  · rintro ⟨p, hp, rfl, hx⟩
    exact ⟨p, List.mem_map.mpr ⟨p, hp, rfl⟩, hx⟩

/-- What the SQL finds, on the dictionary. -/
theorem SameTables.mem_gap (h : b.SameTables) {covers : List NodeId} :
    x ∈ b.sqlite.computeCoversIntervalGap covers ↔
      x ∉ covers ∧ Reach.Between (Gap.Edge b.memory.getDag) (StoredCover b.memory.getDag covers) x := by
  have hedge : Gap.Edge b.memory.getDag = b.sqlite.Edge := by
    funext y z
    exact propext h.edge_iff
  have hstored : StoredCover b.memory.getDag covers = fun c => c ∈ covers ∧ c ∈ b.sqlite.nodeIds := by
    funext c
    rw [StoredCover, Memory.keys_getDag, h.nodeIds]
  rw [Db.mem_computeCoversIntervalGap, hedge, hstored]
  constructor
  · rintro ⟨hnot, hbetween⟩
    refine ⟨fun hx => hnot ⟨hx, ?_⟩, hbetween⟩
    obtain ⟨⟨c, hc, hpath⟩, -⟩ := hbetween
    rcases h.wf.mem_of_reachable hpath with rfl | hx
    · exact hc.2
    · exact hx
  · rintro ⟨hx, hbetween⟩
    exact ⟨fun hboth => hx hboth.1, hbetween⟩

/-- **One state**: the helper's list and the SQL's are the same when the condition is met. -/
theorem SameTables.gaps_agree_iff (h : b.SameTables) (covers : List NodeId) :
    b.sqlite.computeCoversIntervalGap covers = b.memory.computeCoversIntervalGap covers ↔
      Gap.Alike b.memory.getDag covers := by
  have hdag : (b.memory.getDag.map Prod.fst).Nodup := by
    rw [Memory.keys_getDag]
    exact h.nodup
  obtain ⟨gap, hgap, hsorted, hmem⟩ := Gap.gap_spec hdag covers
  have hhelper : gap = b.memory.computeCoversIntervalGap covers := by
    have hlen : b.memory.getDag.length = b.memory.dag.length := List.length_map _
    have hrun := hgap (covers.length + b.memory.dag.length) (by omega)
    rw [Memory.computeCoversIntervalGap_eq _ h.nodup covers (le_refl _)] at hrun
    exact (Option.some.inj hrun).symm
  rw [← hhelper, Gap.alike_iff]
  constructor
  · intro heq x hx
    have hsql : x ∈ b.sqlite.computeCoversIntervalGap covers ↔ _ := h.mem_gap
    rw [heq, hmem] at hsql
    constructor
    · exact fun hbetween => (hsql.mp ⟨hx, hbetween⟩).2
    · exact fun hbetween => (hsql.mpr ⟨hx, hbetween⟩).2
  · intro halike
    refine Gap.eq_of_mem_iff (pairwise_sortedSet _) hsorted fun x => ?_
    rw [h.mem_gap, hmem]
    exact and_congr_right fun hx => (halike x hx).symm

variable {g : Setup} {dumps : Payload → String}

/-- The tables stay the same, by induction on the calls. -/
theorem SameTables.after : ∀ (calls : List RepairCall) {b : Backends}, b.SameTables →
    (b.after g dumps calls).SameTables
  | [], _, h => h
  | c :: calls, _, h => SameTables.after calls (h.call c)

/-- **Where the backends agree on the gap.**  After any calls to both, from `reset`, and for any
covers: the helper ends with the list that the in-memory backend stores, and it is the SQL's exactly
when every `COVERS` edge between stored covered ids has its ends on parent references between
covered ids, and every node that such references put between covered ids from one that is not stored
is below one that is stored. -/
theorem interval_gaps_agree_iff (g : Setup) (dumps : Payload → String) (b : Backends)
    (calls : List RepairCall) (covers : List NodeId) :
    (∀ rounds, covers.length + ((b.reset g).after g dumps calls).memory.dag.length ≤ rounds →
      Gap.computeCoversIntervalGap ((b.reset g).after g dumps calls).memory.getDag rounds covers =
        some (((b.reset g).after g dumps calls).memory.computeCoversIntervalGap covers)) ∧
    (((b.reset g).after g dumps calls).sqlite.computeCoversIntervalGap covers =
        ((b.reset g).after g dumps calls).memory.computeCoversIntervalGap covers ↔
      Gap.Alike ((b.reset g).after g dumps calls).memory.getDag covers) := by
  have htables : ((b.reset g).after g dumps calls).SameTables := SameTables.after calls (sameTables_reset b)
  refine ⟨fun rounds hrounds => ?_, htables.gaps_agree_iff covers⟩
  exact Memory.computeCoversIntervalGap_eq _ htables.nodup covers hrounds

/-! ## 4. A summary between two covered nodes -/

/-- A summary of the root, and a node below the summary. -/
def belowSummary : List RepairCall :=
  [.commitNode .admission (summaryOf []),
   .commitNode .admission (openPayload "agent" "node-1" ["summary-1"])]

/-- A node below one that nobody has stored, and a node below it. -/
def belowGhost : List RepairCall :=
  [.commitNode .admission (openPayload "agent" "node-1" ["ghost"]),
   .commitNode .admission (openPayload "agent" "node-2" ["node-1"])]

/-- The SQL finds the summary between the root and the node, and the helper does not; the helper
finds the first node between the one that is not stored and the second, and the SQL does not. -/
theorem interval_gaps_differ :
    (((created.reset openSetup).after openSetup (fun _ => "") belowSummary).sqlite.computeCoversIntervalGap
        ["clean-parent-1", "node-1"] = ["summary-1"] ∧
      Gap.computeCoversIntervalGap
        ((created.reset openSetup).after openSetup (fun _ => "") belowSummary).memory.getDag 5
        ["clean-parent-1", "node-1"] = some []) ∧
    (((created.reset openSetup).after openSetup (fun _ => "") belowGhost).sqlite.computeCoversIntervalGap
        ["ghost", "node-2"] = [] ∧
      Gap.computeCoversIntervalGap
        ((created.reset openSetup).after openSetup (fun _ => "") belowGhost).memory.getDag 5
        ["ghost", "node-2"] = some ["node-1"]) := by
  decide +kernel

end Backends

end GovernorGateway
