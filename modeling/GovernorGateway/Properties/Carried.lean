/-
# What an admitted write names

`/submit-candidate` looks at three places of a payload.  The policy decides on the declared parents,
a guard on the payload's own id, and a branch for compactions on the covered ids.  The schema lets a
payload of ANY type cover nodes, and `commit_node` makes edges of all of them; a payload that is no
compaction is admitted whatever it covers.

So an admitted write names nothing quarantined if and only if it is a compaction, or covers nothing
quarantined (`admitted_clean_iff`).
-/
import GovernorGateway.Properties.Frontiers

namespace GovernorGateway

open Effects

variable {g : Setup} {answers : Answers}

/-! ## 1. Clean writes -/

/-- The parents are stored, and neither they, nor what is covered, nor the node itself is
quarantined. -/
structure Lineage.CarriesClean (L : Lineage) (p : Payload) : Prop where
  id : p.payloadId ∉ L.ledger
  parents : ∀ x ∈ p.parentIds, x ∈ L.nodeIds ∧ x ∉ L.ledger
  covers : ∀ x ∈ p.covers, x ∉ L.ledger

instance (L : Lineage) (p : Payload) : Decidable (L.CarriesClean p) :=
  decidable_of_iff (p.payloadId ∉ L.ledger ∧ (∀ x ∈ p.parentIds, x ∈ L.nodeIds ∧ x ∉ L.ledger) ∧
      ∀ x ∈ p.covers, x ∉ L.ledger)
    ⟨fun h => ⟨h.1, h.2.1, h.2.2⟩, fun h => ⟨h.id, h.parents, h.covers⟩⟩

/-- A call that commits finds the lineage `L` and stores `p`, with an interval gap or as it is. -/
def CommitsFrom (L : Lineage) (p : Payload) : Trans Call Call.Res Exc World
  | .store (.commitNode _ q), w, _, _ => w.lin = L ∧ ∃ gap, q = { p with coversIntervalGap := gap }
  | _, _, _, _ => True

theorem commitsFrom_of_quiet {L : Lineage} {p : Payload} {c : Call} {w w' : World}
    {r : Except Exc c.Res} (hc : c.Quiet) : CommitsFrom L p c w r w' := by
  cases c with
  | store c =>
    cases c with
    | commitNode site q => exact absurd trivial hc
    | _ => trivial
  | _ => trivial

/-- A commit finds a lineage in which its payload is clean. -/
def CommitsClean : Trans Call Call.Res Exc World
  | .store (.commitNode _ q), w, _, _ => w.lin.CarriesClean q
  | _, _, _, _ => True

/-! ## 2. A submission -/

/-- What a submission of `p` owes and may use: its commits are those of `p`; and where the commits
of a run are clean, so is the write that was admitted. -/
theorem submitCalls_clean (C : Trans Call Call.Res Exc World) (p : Payload) (L : Lineage) :
    SubmitCalls g (restrict (Step g answers) C) (CommitsFrom L p) World.lin p L
      (fun site q L => site = .admission →
        (∀ c w r w', C c w r w' → CommitsClean c w r w') → L.CarriesClean q) where
  quiet := fun _ _ _ _ hc => commitsFrom_of_quiet hc
  admitted := by
    intro gap w r w' hw ht
    refine ⟨⟨hw, gap, rfl⟩, fun _ hC => ?_⟩
    have hclean : w.lin.CarriesClean { p with coversIntervalGap := gap } := hC _ _ _ _ ht.2
    rwa [hw] at hclean
  reject := fun gap w r w' hw _ => ⟨hw, gap, rfl⟩
  apply := fun _ _ _ _ _ _ _ _ _ _ _ => ⟨trivial, fun hsite => absurd hsite (by simp)⟩

/-- The answer is 200 and the node is new: the write was admitted. -/
theorem SubmitOutcome.admitted_of_new {K : CommitSite → Payload → Lineage → Prop}
    {sha256 : String → String} {p : Payload} {L L' : Lineage} {a : Response}
    (h : SubmitOutcome K sha256 p L a L') (hstatus : a.status = 200) (hnew : p.payloadId ∉ L.nodeIds)
    (hstored : p.payloadId ∈ L'.nodeIds) :
    p.payloadId ∉ L.ledger ∧ (∀ x ∈ p.parentIds, x ∈ L.nodeIds ∧ x ∉ L.ledger) ∧
      (p.nodeType = some .compaction → ∀ x ∈ p.covers, x ∉ L.ledger) ∧
      ∃ gap, K .admission { p with coversIntervalGap := gap } L := by
  cases h with
  | refused ha hclean => exact absurd hstored hnew
  | admitted gap hid hparents hcovers hhashes hK => exact ⟨hid, hparents, hcovers, gap, hK⟩
  | rejected gap ha hid htainted hcovers hK =>
    obtain ⟨event, replacement, rfl⟩ := ha
    exact absurd hstatus (by simp)

/-- **What an admitted write names.**  A submission that answers 200 and commits a new node commits
it from a lineage in which its parents are stored and neither they, nor what it covers, nor the node
is quarantined, IF AND ONLY IF it is a compaction or covers nothing quarantined. -/
theorem admitted_clean_iff (hlaw : answers.Lawful) (hmode : g.settings.enforcementMode = .enforce)
    {bytes : ℕ} {p : Payload} {w w' : World} {tr : List (Event Call Call.Res Exc World)} {a : Response}
    (hexec : Exec (Step g answers) ((Request.submitCandidate bytes (.payload p)).handle g).tree w tr
      (.ok a) w')
    (hstatus : a.status = 200) (hnew : p.payloadId ∉ w.lin.nodeIds)
    (hstored : p.payloadId ∈ w'.lin.nodeIds) :
    (∀ e ∈ tr, ∀ site q, e.call = .store (.commitNode site q) → e.before.lin.CarriesClean q) ↔
      (p.nodeType = some .compaction ∨ ∀ x ∈ p.covers, x ∉ w.lin.ledger) := by
  -- one walk for both directions: `C` is what is known of the calls of the run
  have hwalk : ∀ C : Trans Call Call.Res Exc World,
      (∀ e ∈ tr, C e.call e.before e.answer e.after) →
      (∀ e ∈ tr, CommitsFrom w.lin p e.call e.before e.answer e.after) ∧
        (p.payloadId ∉ w.lin.ledger ∧ (∀ x ∈ p.parentIds, x ∈ w.lin.nodeIds ∧ x ∉ w.lin.ledger) ∧
          (p.nodeType = some .compaction → ∀ x ∈ p.covers, x ∉ w.lin.ledger) ∧
          ∃ gap, (∀ c w r w', C c w r w' → CommitsClean c w r w') →
            w.lin.CarriesClean { p with coversIntervalGap := gap }) := by
    intro C hC
    have hsat : Act.Sat (restrict (Step g answers) C) (CommitsFrom w.lin p)
        (submitCandidate g bytes (.payload p))
        (onOk (fun a w' => SubmitOutcome (fun site q L => site = .admission →
            (∀ c w r w', C c w r w' → CommitsClean c w r w') → L.CarriesClean q)
          g.env.sha256 p w.lin a w'.lin) fun _ _ => True) w := by
      refine sat_submission (fun _ _ _ _ => trivial) (fun _ _ _ _ => trivial) bytes (.payload p)
        (fun _ _ => trivial) fun q auth decisionId hparse => ?_
      obtain rfl := parseSubmission_payload hparse
      exact sat_submitLocked (acts_step hlaw C) hmode q auth decisionId _
        (submitCalls_clean C q w.lin)
    obtain ⟨hcalls, hout⟩ := Prog.Sat.sound hsat (hexec.restrict hC)
    obtain ⟨hid, hparents, hcovers, gap, hK⟩ := hout.admitted_of_new hstatus hnew hstored
    exact ⟨hcalls, hid, hparents, hcovers, gap, hK rfl⟩
  constructor
  · intro hclean
    have hC : ∀ e ∈ tr, CommitsClean e.call e.before e.answer e.after := by
      rintro ⟨c, w₁, r, w₂⟩ he
      cases c with
      | store c =>
        cases c with
        | commitNode site q => exact hclean _ he site q rfl
        | _ => trivial
      | _ => trivial
    obtain ⟨-, -, -, -, gap, hK⟩ := hwalk CommitsClean hC
    exact Or.inr (hK fun _ _ _ _ h => h).covers
  · intro hcond
    obtain ⟨hcalls, hid, hparents, hcovers, -⟩ := hwalk Trans.any fun _ _ => trivial
    rintro ⟨c, w₁, r, w₂⟩ he site q rfl
    obtain ⟨hlin, gap, rfl⟩ := hcalls _ he
    change w₁.lin.CarriesClean _
    rw [hlin]
    exact ⟨hid, hparents, hcond.elim hcovers id⟩

/-! ## 3. A standard node with covers -/

/-- A payload of the STANDARD type that covers nodes. -/
def openStandardCover (id : NodeId) (parents covers : List NodeId) : Request :=
  .submitCandidate 512 (.payload
    { openPayload "agent" id parents with nodeType := some .standard, covers := covers })

/-- Whether the call is no commit, or a clean one. -/
def commitsClean : Call → World → Bool
  | .store (.commitNode _ q), w => decide (w.lin.CarriesClean q)
  | _, _ => true

theorem commitsClean_eq_false {c : Call} {w : World} (h : commitsClean c w = false) :
    ∃ site q, c = .store (.commitNode site q) ∧ ¬ w.lin.CarriesClean q := by
  cases c with
  | store c =>
    cases c with
    | commitNode site q => exact ⟨site, q, rfl, of_decide_eq_false h⟩
    | _ => exact absurd h (by simp [commitsClean])
  | _ => exact absurd h (by simp [commitsClean])

/-- A compaction of the root is committed cleanly. -/
theorem admitted_clean_compaction : ∃ tr a w',
    Exec (Step openSetup Answers.lawful)
      ((openCover "cover-1" ["clean-parent-1"] ["clean-parent-1"]).handle openSetup).tree
      (World.initial openSetup {} none) tr (.ok a) w' ∧
    a.status = 200 ∧ "cover-1" ∈ w'.lin.nodeIds ∧
    ∀ e ∈ tr, ∀ site q, e.call = .store (.commitNode site q) → e.before.lin.CarriesClean q := by
  obtain ⟨tr, hexec⟩ := Prog.exists_exec (T := Step openSetup Answers.lawful)
    (fun c w => Script.step_spec (g := openSetup) (o := openScript "1") c w)
    ((openCover "cover-1" ["clean-parent-1"] ["clean-parent-1"]).handle openSetup).tree
    (World.initial openSetup {} none)
  have hstored : "cover-1" ∈ ((openScript "1").handle openSetup
      (openCover "cover-1" ["clean-parent-1"] ["clean-parent-1"])
      (World.initial openSetup {} none)).2.lin.nodeIds := by
    decide +kernel
  have hanswer : ((openScript "1").handle openSetup
      (openCover "cover-1" ["clean-parent-1"] ["clean-parent-1"])
      (World.initial openSetup {} none)).1 = .ok { reply := .committed false } := by
    decide +kernel
  change Exec _ _ _ tr ((openScript "1").handle openSetup _ _).1 _ at hexec
  rw [hanswer] at hexec
  refine ⟨tr, _, _, hexec, rfl, hstored, ?_⟩
  exact (admitted_clean_iff (fun _ _ h => h) rfl hexec rfl (by decide) hstored).mpr (Or.inl rfl)

/-- **What is covered is not looked at.**  A standard node that covers a quarantined node is
admitted. -/
theorem admitted_clean_covers : ¬ ∀ tr a w',
    Exec (Step openSetup Answers.lawful)
      ((openStandardCover "node-1" ["clean-parent-1"] ["quarantined-node-A"]).handle openSetup).tree
      (World.initial openSetup {} none) tr (.ok a) w' →
    a.status = 200 → "node-1" ∈ w'.lin.nodeIds →
      ∀ e ∈ tr, ∀ site q, e.call = .store (.commitNode site q) → e.before.lin.CarriesClean q := by
  intro hall
  have hfails : ((openStandardCover "node-1" ["clean-parent-1"] ["quarantined-node-A"]).handle
      openSetup).tree.passes ((openScript "1").step openSetup) commitsClean
        (World.initial openSetup {} none) = false := by
    decide +kernel
  obtain ⟨tr, hexec, e, he, hfail, -⟩ := Prog.run_fails (T := Step openSetup Answers.lawful)
    (fun c w => Script.step_spec (g := openSetup) (o := openScript "1") c w)
    ((openStandardCover "node-1" ["clean-parent-1"] ["quarantined-node-A"]).handle openSetup).tree
    (World.initial openSetup {} none) hfails
  have hanswer : ((openScript "1").handle openSetup
      (openStandardCover "node-1" ["clean-parent-1"] ["quarantined-node-A"])
      (World.initial openSetup {} none)).1 = .ok { reply := .committed false } := by
    decide +kernel
  change Exec _ _ _ tr ((openScript "1").handle openSetup _ _).1 _ at hexec
  rw [hanswer] at hexec
  obtain ⟨site, q, hcall, hq⟩ := commitsClean_eq_false hfail
  exact hq (hall tr _ _ hexec rfl (by decide +kernel) e he site q hcall)

end GovernorGateway
