/-
# What a rejected writer is offered

`find_continuity_replacement` walks from the tainted parent up through the quarantine, and answers
the first ancestor for which there is something: the node of the FIRST EXPOSURE that was made for it
(its stand-in), else its declared substitute.  Of a substitute it asks that it is stored and not
quarantined; of a stand-in it asks neither.  That it is stored follows from how it is found; but a
stand-in is a node like any other, and may have been contained SINCE.

`OfferTables` is what the walk and the lookups read, on either backend, and `usable_iff` the exact
condition, in the abstract.  `offers_usable` is what both backends owe to it: in every state the
offers are usable exactly when no quarantined node has a quarantined stand-in, and so they are in
every state of a run in which no call makes one.
-/
import GovernorGateway.Graph.InnerSearch
import GovernorGateway.Semantics.Stable
import GovernorGateway.Memory.Repair
import GovernorGateway.Memory.World
import GovernorGateway.Properties.Coverage

namespace GovernorGateway

open Effects

/-! ## 1. Stand-ins -/

/-- What a replacement is looked for in. -/
structure OfferTables where
  ledger : List NodeId
  stored : List NodeId
  exposures : List ContinuityExposure
  /-- The `original_target` of a stored node. -/
  target : NodeId → Option NodeId
  parents : NodeId → List NodeId

namespace OfferTables

/-- The node of the first exposure that was made for `x`. -/
def standIn (T : OfferTables) (x : NodeId) : Option NodeId :=
  (T.exposures.find? fun e => T.target e.nodeId = some x).map ContinuityExposure.nodeId

/-- No quarantined node has a quarantined stand-in. -/
def StandInsClean (T : OfferTables) : Prop :=
  ∀ x ∈ T.ledger, ∀ y ∈ T.standIn x, y ∉ T.ledger

/-- **What is promised of an offer**: the replacement is stored and not quarantined, and what it
replaces is quarantined, and the node itself or an ancestor reached through quarantined nodes
only. -/
structure Usable (T : OfferTables) (t : NodeId) (r : Db.Replacement) : Prop where
  stored : r.replacementNodeId ∈ T.stored
  clean : r.replacementNodeId ∉ T.ledger
  quarantined : r.replacementFor ∈ T.ledger
  ancestor : Relation.ReflTransGen (Reach.InnerStep (· ∈ T.ledger) T.parents) t r.replacementFor

/-- What the two lookups of a backend answer. -/
structure Lookups (T : OfferTables) (byExposure byDeclaration : NodeId → Option Db.Replacement) :
    Prop where
  exposure : ∀ x, (byExposure x).map (fun r => (r.replacementNodeId, r.replacementFor)) =
    (T.standIn x).map fun y => (y, x)
  stored : ∀ x, T.target x ≠ none → x ∈ T.stored
  declaration : ∀ x r, byDeclaration x = some r →
    r.replacementFor = x ∧ r.replacementNodeId ∈ T.stored ∧ r.replacementNodeId ∉ T.ledger

variable {T : OfferTables} {byExposure byDeclaration : NodeId → Option Db.Replacement}
  {t x y : NodeId} {r : Db.Replacement}

theorem Lookups.standIn_of_some (h : T.Lookups byExposure byDeclaration) (hr : byExposure x = some r) :
    T.standIn x = some r.replacementNodeId ∧ r.replacementFor = x := by
  have hexposure := h.exposure x
  rw [hr, Option.map_some] at hexposure
  obtain ⟨y, hy, heq⟩ := Option.map_eq_some_iff.mp hexposure.symm
  obtain ⟨rfl, rfl⟩ := Prod.mk.inj heq
  exact ⟨hy, rfl⟩

theorem Lookups.some_of_standIn (h : T.Lookups byExposure byDeclaration) (hy : T.standIn x = some y) :
    ∃ r, byExposure x = some r ∧ r.replacementNodeId = y := by
  have hexposure := h.exposure x
  rw [hy, Option.map_some] at hexposure
  obtain ⟨r, hr, heq⟩ := Option.map_eq_some_iff.mp hexposure
  exact ⟨r, hr, (Prod.mk.inj heq).1⟩

/-- A stand-in is stored. -/
theorem Lookups.stored_of_standIn (h : T.Lookups byExposure byDeclaration)
    (hy : T.standIn x = some y) : y ∈ T.stored := by
  obtain ⟨e, he, rfl⟩ := Option.map_eq_some_iff.mp hy
  refine h.stored _ ?_
  have htarget : decide (T.target e.nodeId = some x) = true :=
    List.find?_some (p := fun e : ContinuityExposure => decide (T.target e.nodeId = some x)) he
  have htarget := of_decide_eq_true htarget
  rw [htarget]
  exact Option.some_ne_none x

/-- **What is offered is usable, whatever is tainted, if and only if no quarantined node has a
quarantined stand-in.**  A quarantined node is the first candidate of its own walk. -/
theorem usable_iff (h : T.Lookups byExposure byDeclaration) (fuel : ℕ) :
    (∀ t r, (Reach.inner (· ∈ T.ledger) T.parents (fuel + 1) [t] [] []).findSome?
        (fun x => (byExposure x).or (byDeclaration x)) = some r → T.Usable t r) ↔
      T.StandInsClean := by
  constructor
  · intro husable x hx y hy
    obtain ⟨r, hr, rfl⟩ := h.some_of_standIn hy
    obtain ⟨further, hwalk⟩ : ∃ further,
        Reach.inner (· ∈ T.ledger) T.parents (fuel + 1) [x] [] [] = x :: further :=
      Reach.inner_root hx
    refine (husable x r ?_).clean
    rw [hwalk, List.findSome?_cons, hr]
    rfl
  · intro hclean t r hfound
    obtain ⟨x, hx, hr⟩ := List.exists_of_findSome?_eq_some hfound
    obtain ⟨hquarantined, hpath⟩ : x ∈ T.ledger ∧
        Relation.ReflTransGen (Reach.InnerStep (· ∈ T.ledger) T.parents) t x := by
      rcases Reach.mem_inner hx with hnone | ⟨q, hq, hinside, hpath⟩
      · exact absurd hnone List.not_mem_nil
      · obtain rfl := List.mem_singleton.mp hq
        exact ⟨hinside, hpath⟩
    rcases Option.or_eq_some_iff.mp hr with hr | ⟨-, hr⟩
    · obtain ⟨hstandIn, rfl⟩ := h.standIn_of_some hr
      exact ⟨h.stored_of_standIn hstandIn, hclean _ hquarantined _ hstandIn, hquarantined, hpath⟩
    · obtain ⟨rfl, hstored, hsource⟩ := h.declaration x r hr
      exact ⟨hstored, hsource, hquarantined, hpath⟩

end OfferTables

/-! ## 2. The backends -/

/-- `state_content.get("original_target")`, if it is a text. -/
def Payload.originalTarget (p : Payload) : Option NodeId :=
  match Json.find? p.stateContent "original_target" with
  | some (.str target) => some target
  | _ => none

/-- What SQLite looks for a replacement in. -/
def Db.offers (db : Db) : OfferTables where
  ledger := db.ledger
  stored := db.nodeIds
  exposures := db.continuityExposures
  target := fun x => (db.payload? x).bind Payload.originalTarget
  parents := db.parentsInOrder

/-- What the in-memory backend looks for a replacement in. -/
def Memory.offers (m : Memory) : OfferTables where
  ledger := m.quarantineLedger
  stored := m.nodeIds
  exposures := m.continuityExposures
  target := fun x => (m.node? x).bind Payload.originalTarget
  parents := fun x => ((m.node? x).map Payload.parentIds).getD []

/-- The walk of SQLite. -/
theorem Db.quarantinedAncestors_eq (db : Db) (fuel : ℕ) (queue visited candidates : List NodeId) :
    db.quarantinedAncestors fuel queue visited candidates =
      Reach.inner (· ∈ db.ledger) db.offers.parents fuel queue visited candidates := by
  induction fuel generalizing queue visited candidates with
  | zero => rfl
  | succ fuel ih =>
    cases queue with
    | nil => rfl
    | cons x queue =>
      rw [Db.quarantinedAncestors, Reach.inner, ih, ih, ih]
      rfl

/-- The walk of the in-memory backend. -/
theorem Memory.quarantinedAncestors_eq (m : Memory) (fuel : ℕ)
    (queue visited candidates : List NodeId) :
    m.quarantinedAncestors fuel queue visited candidates =
      Reach.inner (· ∈ m.quarantineLedger) m.offers.parents fuel queue visited candidates := by
  induction fuel generalizing queue visited candidates with
  | zero => rfl
  | succ fuel ih =>
    cases queue with
    | nil => rfl
    | cons x queue =>
      rw [Memory.quarantinedAncestors, Reach.inner, ih, ih, ih]
      rfl

/-- A lookup that takes the first row that passes is a `find?`. -/
theorem map_findSome?_eq_find? {ρ τ υ : Type} {f : ρ → Option τ} {p : ρ → Bool} {g : τ → υ} {g' : ρ → υ}
    (htrue : ∀ e, p e = true → (f e).map g = some (g' e)) (hfalse : ∀ e, p e = false → f e = none) :
    ∀ rows : List ρ, (rows.findSome? f).map g = (rows.find? p).map g'
  | [] => rfl
  | e :: rows => by
    rw [List.findSome?_cons, List.find?_cons]
    cases hp : p e with
    | true =>
      obtain ⟨a, ha, heq⟩ := Option.map_eq_some_iff.mp (htrue e hp)
      rw [ha]
      exact congrArg some heq
    | false =>
      rw [hfalse e hp]
      exact map_findSome?_eq_find? htrue hfalse rows

theorem Payload.originalTarget_eq_some {p : Payload} {x : NodeId} :
    p.originalTarget = some x ↔ Json.find? p.stateContent "original_target" = some (.str x) := by
  unfold Payload.originalTarget
  split
  · rename_i target htarget
    rw [htarget, Option.some.injEq, Option.some.injEq, Json.str.injEq]
  · rename_i hnot
    constructor
    · intro h
      exact absurd h (by simp)
    · intro h
      exact absurd h (hnot x)

theorem Db.lookups (db : Db) :
    db.offers.Lookups db.replacementByExposure db.replacementByDeclaration where
  exposure := by
    intro x
    rw [Db.replacementByExposure, OfferTables.standIn, Option.map_map]
    refine map_findSome?_eq_find? (fun e he => ?_) (fun e he => ?_) _
    · obtain ⟨p, hp, htarget⟩ := Option.bind_eq_some_iff.mp (of_decide_eq_true he)
      simp [hp, Payload.originalTarget_eq_some.mp htarget]
    · have hnot : ¬ (db.payload? e.nodeId).bind Payload.originalTarget = some x :=
        of_decide_eq_false he
      split
      · rfl
      · rename_i p hp
        split
        · rename_i target htarget
          rw [if_neg]
          rintro rfl
          exact hnot (by rw [hp]; exact Payload.originalTarget_eq_some.mpr htarget)
        · rfl
  stored := by
    intro x hx
    change (db.payload? x).bind Payload.originalTarget ≠ none at hx
    cases hp : db.payload? x with
    | none => exact absurd (by rw [hp]; rfl) hx
    | some p =>
      obtain ⟨n, hn, -⟩ := Option.map_eq_some_iff.mp hp
      obtain ⟨hmem, hid⟩ := Keyed.lookup_mem hn
      exact Lineage.mem_nodeIds.mpr ⟨n, hmem, hid⟩
  declaration := by
    intro x r h
    unfold Db.replacementByDeclaration at h
    split at h
    · exact absurd h (by simp)
    · split at h
      · rename_i hclean
        obtain rfl := Option.some.inj h
        exact ⟨rfl, hclean.2.1, hclean.2.2⟩
      · exact absurd h (by simp)

theorem Memory.lookups (m : Memory) :
    m.offers.Lookups m.replacementByExposure m.replacementByDeclaration where
  exposure := by
    intro x
    rw [Memory.replacementByExposure, OfferTables.standIn, Option.map_map]
    refine map_findSome?_eq_find? (fun e he => ?_) (fun e he => ?_) _
    · obtain ⟨p, hp, htarget⟩ := Option.bind_eq_some_iff.mp (of_decide_eq_true he)
      simp [hp, Payload.originalTarget_eq_some.mp htarget]
    · have hnot : ¬ (m.node? e.nodeId).bind Payload.originalTarget = some x := of_decide_eq_false he
      cases hp : m.node? e.nodeId with
      | none => rfl
      | some p =>
        dsimp only [Option.map_some, Option.getD_some]
        split
        · rename_i target htarget
          rw [if_neg]
          rintro rfl
          exact hnot (by rw [hp]; exact Payload.originalTarget_eq_some.mpr htarget)
        · rfl
  stored := by
    intro x hx
    change (m.node? x).bind Payload.originalTarget ≠ none at hx
    cases hp : m.node? x with
    | none => exact absurd (by rw [hp]; rfl) hx
    | some p =>
      obtain ⟨hmem, hid⟩ := Keyed.lookup_mem hp
      exact List.mem_map.mpr ⟨p, hmem, hid⟩
  declaration := by
    intro x r h
    unfold Memory.replacementByDeclaration at h
    split at h
    · exact absurd h (by simp)
    · split at h
      · rename_i hclean
        obtain rfl := Option.some.inj h
        exact ⟨rfl, hclean.2.1, hclean.2.2⟩
      · exact absurd h (by simp)

/-- **SQLite**, in any state. -/
theorem Db.offers_usable_iff (db : Db) :
    (∀ t r, db.findContinuityReplacement t = some r → db.offers.Usable t r) ↔
      db.offers.StandInsClean := by
  rw [← OfferTables.usable_iff db.lookups db.edges.length]
  refine forall_congr' fun t => forall_congr' fun r => ?_
  rw [Db.findContinuityReplacement, Db.quarantinedAncestors_eq]
  exact Iff.rfl

/-- **The in-memory backend**, in any state. -/
theorem Memory.offers_usable_iff (m : Memory) :
    (∀ t r, m.findContinuityReplacement t = some r → m.offers.Usable t r) ↔
      m.offers.StandInsClean := by
  rw [← OfferTables.usable_iff m.lookups (m.dag.map fun p => p.parents.length).sum]
  refine forall_congr' fun t => forall_congr' fun r => ?_
  rw [Memory.findContinuityReplacement, Memory.quarantinedAncestors_eq]
  exact Iff.rfl

/-- The walk is not cut short: there is something to offer as soon as a quarantined ancestor,
reached through quarantined nodes only, has a stand-in or a declared substitute. -/
theorem OfferTables.offers_nothing_iff {T : OfferTables}
    {byExposure byDeclaration : NodeId → Option Db.Replacement} {t : NodeId} {n : ℕ}
    (h : T.Lookups byExposure byDeclaration) (hn : Reach.Expands T.parents n) :
    (Reach.inner (· ∈ T.ledger) T.parents (n + 1) [t] [] []).findSome?
        (fun x => (byExposure x).or (byDeclaration x)) = none ↔
      ∀ x, t ∈ T.ledger → Relation.ReflTransGen (Reach.InnerStep (· ∈ T.ledger) T.parents) t x →
        T.standIn x = none ∧ byDeclaration x = none := by
  have hnone : ∀ x, byExposure x = none ↔ T.standIn x = none := by
    intro x
    rw [← Option.map_eq_none_iff, h.exposure, Option.map_eq_none_iff]
  rw [List.findSome?_eq_none_iff]
  constructor
  · intro hall x ht hpath
    have hx := hall x ((Reach.mem_inner_iff hn).mpr ⟨ht, hpath⟩)
    rw [Option.or_eq_none_iff, hnone] at hx
    exact hx
  · intro hall x hx
    obtain ⟨ht, hpath⟩ := (Reach.mem_inner_iff hn).mp hx
    rw [Option.or_eq_none_iff, hnone]
    exact hall x ht hpath

theorem Db.offers_nothing_iff (db : Db) (t : NodeId) :
    db.findContinuityReplacement t = none ↔ ∀ x, t ∈ db.ledger →
      Relation.ReflTransGen (Reach.InnerStep (· ∈ db.ledger) db.offers.parents) t x →
        db.offers.standIn x = none ∧ db.replacementByDeclaration x = none := by
  rw [Db.findContinuityReplacement, Db.quarantinedAncestors_eq]
  exact OfferTables.offers_nothing_iff db.lookups
    ((Reach.expands_filter EdgeRow.childId EdgeRow.parentId db.edges).congr fun x =>
      List.length_insertionSort _ _)

theorem Memory.offers_nothing_iff (m : Memory) (t : NodeId) :
    m.findContinuityReplacement t = none ↔ ∀ x, t ∈ m.quarantineLedger →
      Relation.ReflTransGen (Reach.InnerStep (· ∈ m.quarantineLedger) m.offers.parents) t x →
        m.offers.standIn x = none ∧ m.replacementByDeclaration x = none := by
  have hparents : ∀ p : Payload, p.parents.length = p.parentIds.length := fun p => by
    rw [Payload.parentIds, List.length_map]
  rw [Memory.findContinuityReplacement, Memory.quarantinedAncestors_eq]
  simp only [hparents]
  exact OfferTables.offers_nothing_iff m.lookups
    (Reach.expands_find Payload.payloadId Payload.parentIds m.dag)

/-! ## 3. Calls that spare the stand-ins -/

namespace OfferTables

/-- **What is asked of a call**, given what it finds.

* A containment puts no stand-in of a node that is or becomes quarantined into the ledger.
* A quarantined node is not recorded as the first exposure for a quarantined node.
* No node is committed under an id that is quarantined, has been exposed and is not stored. -/
def Spares (T : OfferTables) : Store → Prop
  | .applyQuarantineTransaction _ ids =>
    ∀ x ∈ T.ledger ++ ids, ∀ y ∈ T.standIn x, y ∉ T.ledger ++ ids
  | .recordContinuityExposure e =>
    ∀ x ∈ T.ledger, T.target e.nodeId = some x → T.standIn x = none → e.nodeId ∉ T.ledger
  | .commitNode _ p =>
    p.payloadId ∉ T.stored → p.payloadId ∈ T.ledger → ∀ e ∈ T.exposures, e.nodeId ≠ p.payloadId
  | _ => True

variable {T T' : OfferTables}

/-- A containment. -/
theorem StandInsClean.quarantine {event : QuarantineEvent} {ids : List NodeId}
    (hspares : T.Spares (.applyQuarantineTransaction event ids))
    (hledger : ∀ x, x ∈ T'.ledger ↔ x ∈ T.ledger ∨ x ∈ ids)
    (hstandIn : ∀ x, T'.standIn x = T.standIn x) : T'.StandInsClean := by
  intro x hx y hy hquarantined
  rw [hstandIn] at hy
  exact hspares x (List.mem_append.mpr ((hledger x).mp hx)) y hy
    (List.mem_append.mpr ((hledger y).mp hquarantined))

/-- One more exposure. -/
theorem StandInsClean.expose (h : T.StandInsClean) {e : ContinuityExposure}
    (hspares : T.Spares (.recordContinuityExposure e)) (hledger : T'.ledger = T.ledger)
    (htarget : T'.target = T.target) (hexposures : T'.exposures = T.exposures ++ [e]) :
    T'.StandInsClean := by
  intro x hx y hy
  rw [hledger] at hx ⊢
  rw [standIn, htarget, hexposures, List.find?_append] at hy
  cases hfound : T.exposures.find? fun e => T.target e.nodeId = some x with
  | some e' =>
    rw [hfound] at hy
    refine h x hx y ?_
    rw [standIn, hfound]
    exact hy
  | none =>
    rw [hfound, Option.none_or, List.find?_singleton] at hy
    have hnone : T.standIn x = none := by rw [standIn, hfound]; rfl
    split at hy
    · rename_i he
      obtain rfl := Option.some.inj hy
      exact hspares x hx (of_decide_eq_true he) hnone
    · exact absurd hy (by simp)

/-- A new node: what stands in for `x` did so before, or is the new node. -/
theorem StandInsClean.commit (h : T.StandInsClean) {site : CommitSite} {p : Payload}
    (hspares : T.Spares (.commitNode site p)) (hnew : p.payloadId ∉ T.stored)
    (hunknown : T.target p.payloadId = none) (hledger : T'.ledger = T.ledger)
    (hexposures : T'.exposures = T.exposures)
    (htarget : ∀ x, x ≠ p.payloadId → T'.target x = T.target x) : T'.StandInsClean := by
  intro x hx y hy hquarantined
  rw [hledger] at hx hquarantined
  obtain ⟨e, he, rfl⟩ := Option.map_eq_some_iff.mp hy
  rw [hexposures] at he
  by_cases hid : e.nodeId = p.payloadId
  · exact hspares hnew (hid ▸ hquarantined) e (List.mem_of_find?_eq_some he) hid
  · refine h x hx e.nodeId ?_ hquarantined
    obtain ⟨hp, before, after, hsplit, hfirst⟩ := List.find?_eq_some_iff_append.mp he
    refine Option.map_eq_some_iff.mpr ⟨e, ?_, rfl⟩
    refine List.find?_eq_some_iff_append.mpr ⟨?_, before, after, hsplit, fun a ha => ?_⟩
    · rw [← htarget _ hid]
      exact hp
    · have hbefore := hfirst a ha
      by_cases haid : a.nodeId = p.payloadId
      · simp [haid, hunknown]
      · rw [← htarget _ haid]
        exact hbefore

end OfferTables

/-! ## 4. Runs -/

/-- A call that spares the stand-ins leaves them clean, on SQLite. -/
theorem Db.standInsClean_exec {g : Setup} {c : Store} {db : Db} (hspares : db.offers.Spares c)
    (h : db.offers.StandInsClean) : (c.exec g db).2.offers.StandInsClean := by
  cases c with
  | commitNode site p =>
    by_cases hp : p.payloadId ∈ db.nodeIds
    · have hsame : (db.toLineage.commitNode g.env.sha256 p).2 = db.toLineage :=
        congrArg Prod.snd (Lineage.commitNode_of_mem hp)
      have hoffers : ((Store.commitNode site p).exec g db).2.offers = db.offers := by
        change Db.offers { db with toLineage := (db.toLineage.commitNode g.env.sha256 p).2 } = _
        rw [hsame]
      rw [hoffers]
      exact h
    · have hnodes : ((Store.commitNode site p).exec g db).2.nodes =
          Keyed.insertOrIgnore NodeRow.nodeId db.nodes (Lineage.nodeRow g.env.sha256 p) := by
        change (db.toLineage.commitNode g.env.sha256 p).2.nodes = _
        rw [Lineage.commitNode, if_neg hp]
      have hunknown : db.offers.target p.payloadId = none := by
        change (db.payload? p.payloadId).bind _ = none
        rw [Lineage.payload?, Keyed.lookup_eq_none.mpr hp]
        rfl
      refine h.commit hspares hp hunknown ?_ rfl fun x hx => ?_
      · exact Lineage.commitNode_ledger (L := db.toLineage)
      · have hother : NodeRow.nodeId (Lineage.nodeRow g.env.sha256 p) ≠ x := Ne.symm hx
        change (Lineage.payload? _ x).bind _ = (Lineage.payload? _ x).bind _
        rw [Lineage.payload?, Lineage.payload?, hnodes, Keyed.lookup_insertOrIgnore_ne hother]
  | applyQuarantineTransaction event ids =>
    exact .quarantine hspares (fun x => Lineage.mem_ledger_quarantine) fun _ => rfl
  | recordContinuityExposure e =>
    change (db.recordContinuityExposure e).offers.StandInsClean
    by_cases he : e.exposureId ∈ db.continuityExposures.map ContinuityExposure.exposureId
    · rw [Db.recordContinuityExposure, Keyed.insertOrIgnore_of_mem he]
      exact h
    · refine h.expose hspares rfl rfl ?_
      exact Keyed.insertOrIgnore_of_notMem he
  | computeBlastRadius root =>
    obtain ⟨rcs, hrcs⟩ := Db.computeBlastRadius_snd g.settings.maxTraversalDepth root db
    change (db.computeBlastRadius g.settings.maxTraversalDepth root).2.offers.StandInsClean
    rw [hrcs]
    exact h
  | recordShadowDecision d =>
    simp only [Store.exec, Db.recordShadowDecision]
    split
    · exact h
    · exact h
  | _ => exact h

/-- A call that spares the stand-ins leaves them clean, on the in-memory backend. -/
theorem Memory.standInsClean_exec {g : Setup} {dumps : Payload → String} {c : Store} {m : Memory}
    (hspares : m.offers.Spares c) (h : m.offers.StandInsClean) :
    (m.exec g dumps c).2.offers.StandInsClean := by
  cases c with
  | commitNode site p =>
    change (m.commitNode p).2.offers.StandInsClean
    by_cases hp : p.payloadId ∈ m.nodeIds
    · rw [Memory.commitNode, if_pos hp]
      exact h
    · rw [Memory.commitNode, if_neg hp]
      have hunknown : m.offers.target p.payloadId = none := by
        change (m.node? p.payloadId).bind _ = none
        rw [Memory.node?, Keyed.lookup_eq_none.mpr hp]
        rfl
      refine h.commit hspares hp hunknown rfl rfl fun x hx => ?_
      change (Keyed.lookup _ (m.dag ++ [p]) x).bind _ = (Keyed.lookup _ m.dag x).bind _
      have hadded : Keyed.insertOrIgnore Payload.payloadId m.dag p = m.dag ++ [p] :=
        Keyed.insertOrIgnore_of_notMem hp
      rw [← hadded, Keyed.lookup_insertOrIgnore_ne (Ne.symm hx)]
  | applyQuarantineTransaction event ids =>
    refine .quarantine hspares (fun x => ?_) fun _ => rfl
    change x ∈ ids.foldl (Keyed.insertOrIgnore id) m.quarantineLedger ↔
      x ∈ m.quarantineLedger ∨ x ∈ ids
    have hkeys : x ∈ (ids.foldl (Keyed.insertOrIgnore id) m.quarantineLedger).map id ↔
        x ∈ m.quarantineLedger.map id ∨ x ∈ ids.map id :=
      Keyed.mem_keys_foldl_insertOrIgnore ids m.quarantineLedger
    simpa using hkeys
  | recordContinuityExposure e => exact h.expose hspares rfl rfl rfl
  | computeBlastRadius root =>
    obtain ⟨rcs, hrcs⟩ := m.computeBlastRadius_snd root
    change (m.computeBlastRadius root).2.offers.StandInsClean
    rw [hrcs]
    exact h
  | assignRepairCandidate x rc =>
    change (m.assignRepairCandidate x rc).offers.StandInsClean
    rw [Memory.assignRepairCandidate]
    split
    · exact h
    · exact h
  | _ => exact h

/-- The steps of a backend whose calls spare the stand-ins. -/
def Sparing {σ : Type} (T : Trans Call Call.Res Exc σ) (offers : σ → OfferTables) :
    Trans Call Call.Res Exc σ :=
  fun c s r s' => T c s r s' ∧ ∀ k, c = .store k → (offers s).Spares k

/-- With nothing exposed, nothing stands in. -/
theorem OfferTables.standInsClean_of_nil {T : OfferTables} (h : T.exposures = []) : T.StandInsClean := by
  intro x _ y hy
  rw [OfferTables.standIn, h] at hy
  exact absurd hy (by simp)

/-- **Offered replacements are usable.**  On either backend, in every state: what is offered is
usable, whatever is tainted, IF AND ONLY IF no quarantined node has a quarantined stand-in.  And in
every state of a run from `reset` whose calls spare the stand-ins, what is offered is usable. -/
theorem offers_usable (g : Setup) (dumps : Payload → String) (answers : Answers) :
    (∀ db : Db, (∀ t r, db.findContinuityReplacement t = some r → db.offers.Usable t r) ↔
      db.offers.StandInsClean) ∧
    (∀ m : Memory, (∀ t r, m.findContinuityReplacement t = some r → m.offers.Usable t r) ↔
      m.offers.StandInsClean) ∧
    (∀ db key reqs w, Serves g (Sparing (Step g answers) fun w => w.db.offers)
        (World.initial g db key) reqs w →
      ∀ t r, w.db.findContinuityReplacement t = some r → w.db.offers.Usable t r) ∧
    (∀ m key reqs w, Serves g (Sparing (MemoryStep g dumps answers) fun w => w.memory.offers)
        (MemoryWorld.initial m key) reqs w →
      ∀ t r, w.memory.findContinuityReplacement t = some r → w.memory.offers.Usable t r) := by
  refine ⟨Db.offers_usable_iff, Memory.offers_usable_iff, ?_, ?_⟩
  · intro db key reqs w hrun
    refine w.db.offers_usable_iff.mpr (hrun.invariant
      (I := World.Both fun db => db.offers.StandInsClean) ?_ ?_).1
    · intro req w₁ h₁
      refine Prog.Uses.sat (I := World.Both fun db => db.offers.StandInsClean) (uses_any _) ?_ h₁
      rintro c - w₂ r w₃ ⟨ht, hspares⟩ h₂
      exact ⟨trivial, h₂.step (fun k hk hclean => Db.standInsClean_exec (hspares k hk) hclean) ht⟩
    · exact World.both_of_saved rfl (OfferTables.standInsClean_of_nil rfl)
  · intro m key reqs w hrun
    refine w.memory.offers_usable_iff.mpr (hrun.invariant
      (I := fun w => w.memory.offers.StandInsClean) ?_ (OfferTables.standInsClean_of_nil rfl))
    intro req w₁ h₁
    refine Prog.Uses.sat (I := fun w : MemoryWorld => w.memory.offers.StandInsClean) (uses_any _) ?_ h₁
    rintro c - w₂ r w₃ ⟨ht, hspares⟩ h₂
    refine ⟨trivial, ?_⟩
    cases c with
    | store c =>
      obtain ⟨-, rfl⟩ := ht
      exact Memory.standInsClean_exec (hspares c rfl) h₂
    | ext e =>
      obtain ⟨-, rfl⟩ := ht
      exact h₂
    | sync k =>
      obtain ⟨-, rfl⟩ := ht
      exact h₂
    | getAdapterKey =>
      obtain ⟨-, rfl⟩ := ht
      exact h₂
    | setAdapterKey key =>
      obtain ⟨-, rfl⟩ := ht
      exact h₂

/-! ## 5. A replay, and its containment -/

/-- Whether the call spares the stand-ins. -/
def sparesCheck (T : OfferTables) : Call → Bool
  | .store (.applyQuarantineTransaction _ ids) =>
    (T.ledger ++ ids).all fun x => (T.standIn x).all fun y => y ∉ T.ledger ++ ids
  | .store (.recordContinuityExposure e) => e.nodeId ∉ T.ledger
  | .store (.commitNode _ p) => p.payloadId ∉ T.ledger
  | _ => true

theorem spares_of_check {T : OfferTables} {c : Call} (h : sparesCheck T c = true) (k : Store)
    (hk : c = .store k) : T.Spares k := by
  subst hk
  cases k with
  | applyQuarantineTransaction event ids =>
    intro x hx y hy
    have hall := List.all_eq_true.mp h x hx
    rw [Option.mem_def.mp hy] at hall
    exact of_decide_eq_true hall
  | recordContinuityExposure e => exact fun _ _ _ _ => of_decide_eq_true h
  | commitNode site p => exact fun _ hquarantined => absurd hquarantined (of_decide_eq_true h)
  | _ => trivial

/-- A critical child of the root with a checkpoint is designated, and replayed. -/
def replayRequests : List Request :=
  [openCritical "critical-1" ["clean-parent-1"], openBackup "critical-1",
    .designate (some "Bearer designator") ⟨"critical-1", "poisoned"⟩]

/-- SQLite after the requests. -/
def openSqlite (reqs : List Request) : World :=
  Script.serveAll (fun o => o.step openSetup) openSetup (openRun reqs) (World.initial openSetup {} none)

/-- The in-memory backend after the requests. -/
def openInMemory (reqs : List Request) : MemoryWorld :=
  Script.serveAll (fun o => o.memoryStep openSetup fun _ => "") openSetup (openRun reqs)
    (MemoryWorld.initial { dag := [], quarantineLedger := [] } none)

/-- What is offered for the child is its replay, on both backends. -/
theorem offers_usable_replay :
    (∃ w r, Serves openSetup (Sparing (Step openSetup Answers.lawful) fun w => w.db.offers)
        (World.initial openSetup {} none) replayRequests w ∧
      w.db.findContinuityReplacement "critical-1" = some r ∧ w.db.offers.Usable "critical-1" r) ∧
    ∃ w r, Serves openSetup
        (Sparing (MemoryStep openSetup (fun _ => "") Answers.lawful) fun w => w.memory.offers)
        (MemoryWorld.initial { dag := [], quarantineLedger := [] } none) replayRequests w ∧
      w.memory.findContinuityReplacement "critical-1" = some r ∧
        w.memory.offers.Usable "critical-1" r := by
  obtain ⟨-, -, hsqlite, hmemory⟩ := offers_usable openSetup (fun _ => "") Answers.lawful
  refine ⟨?_, ?_⟩
  · have hrun := Script.serves_checked (g := openSetup) (T := Step openSetup Answers.lawful)
      (P := fun c (w : World) _ _ => ∀ k, c = .store k → w.db.offers.Spares k)
      (fun o c w => Script.step_spec (g := openSetup) (o := o) c w)
      (fun o c w (h : sparesCheck w.db.offers c = true) => spares_of_check h)
      (openRun replayRequests) (World.initial openSetup {} none) (by decide +kernel)
    rw [openRun_requests] at hrun
    obtain ⟨r, hr⟩ := Option.isSome_iff_exists.mp
      (show ((openSqlite replayRequests).db.findContinuityReplacement "critical-1").isSome = true by
        decide +kernel)
    exact ⟨_, r, hrun, hr, hsqlite {} none _ _ hrun "critical-1" r hr⟩
  · have hrun := Script.serves_checked (g := openSetup)
      (T := MemoryStep openSetup (fun _ => "") Answers.lawful)
      (P := fun c (w : MemoryWorld) _ _ => ∀ k, c = .store k → w.memory.offers.Spares k)
      (fun o c w => o.memoryStep_spec c w)
      (fun o c w (h : sparesCheck w.memory.offers c = true) => spares_of_check h)
      (openRun replayRequests) (MemoryWorld.initial { dag := [], quarantineLedger := [] } none)
      (by decide +kernel)
    rw [openRun_requests] at hrun
    obtain ⟨r, hr⟩ := Option.isSome_iff_exists.mp
      (show ((openInMemory replayRequests).memory.findContinuityReplacement "critical-1").isSome =
        true by decide +kernel)
    exact ⟨_, r, hrun, hr, hmemory { dag := [], quarantineLedger := [] } none _ _ hrun "critical-1" r hr⟩

/-- Then the root is designated, with the replay in its radius: the replay is still offered. -/
theorem offers_contained_replay :
    let reqs := replayRequests ++
      [.designate (some "Bearer designator") ⟨"clean-parent-1", "poisoned"⟩]
    (∃ w r, Serves openSetup (Step openSetup Answers.lawful) (World.initial openSetup {} none) reqs w ∧
      "critical-1" ∈ w.db.ledger ∧ w.db.findContinuityReplacement "critical-1" = some r ∧
        r.replacementNodeId ∈ w.db.ledger) ∧
    ∃ w r, Serves openSetup (MemoryStep openSetup (fun _ => "") Answers.lawful)
        (MemoryWorld.initial { dag := [], quarantineLedger := [] } none) reqs w ∧
      "critical-1" ∈ w.memory.quarantineLedger ∧
        w.memory.findContinuityReplacement "critical-1" = some r ∧
          r.replacementNodeId ∈ w.memory.quarantineLedger := by
  intro reqs
  refine ⟨?_, ?_⟩
  · have hrun := Script.serves_checked (g := openSetup) (T := Step openSetup Answers.lawful)
      (P := Trans.any) (fun o c w => Script.step_spec (g := openSetup) (o := o) c w)
      (fun _ _ _ (_ : true = true) => trivial) (openRun reqs) (World.initial openSetup {} none)
      (Script.servePasses_true _ _)
    rw [openRun_requests] at hrun
    have hoffer : "critical-1" ∈ (openSqlite reqs).db.ledger ∧
        (openSqlite reqs).db.findContinuityReplacement "critical-1" =
          some ⟨"continuity-cp-2", "critical-1", some "2", some "M4"⟩ ∧
        "continuity-cp-2" ∈ (openSqlite reqs).db.ledger := by decide +kernel
    exact ⟨_, _, hrun.mono fun _ _ _ _ h => h.1, hoffer⟩
  · have hrun := Script.serves_checked (g := openSetup)
      (T := MemoryStep openSetup (fun _ => "") Answers.lawful) (P := Trans.any)
      (fun o c w => o.memoryStep_spec c w) (fun _ _ _ (_ : true = true) => trivial) (openRun reqs)
      (MemoryWorld.initial { dag := [], quarantineLedger := [] } none) (Script.servePasses_true _ _)
    rw [openRun_requests] at hrun
    have hoffer : "critical-1" ∈ (openInMemory reqs).memory.quarantineLedger ∧
        (openInMemory reqs).memory.findContinuityReplacement "critical-1" =
          some ⟨"continuity-cp-2", "critical-1", some "2", some "M4"⟩ ∧
        "continuity-cp-2" ∈ (openInMemory reqs).memory.quarantineLedger := by decide +kernel
    exact ⟨_, _, hrun.mono fun _ _ _ _ h => h.1, hoffer⟩

end GovernorGateway
