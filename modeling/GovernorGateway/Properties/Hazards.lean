/-
# External effects and repair

An effect outside the graph cannot be taken back by rebuilding a node, so a traversal that reaches a
node with a declared effect makes every affected compaction irreducible.  The effects are stored
under the idempotency key the client chose, and a declaration REPLACES what its key held: a key that
is used again for another node forgets the first one, and repair goes on as if nothing had left the
graph.

`effects_remembered`: in a run in which no declaration takes away the last effect of a node, a
traversal that reaches a node with an effect makes nothing pending.
-/
import GovernorGateway.Semantics.Stable
import GovernorGateway.Semantics.Scripted

namespace GovernorGateway

open Effects

/-! ## 1. The effects of a node -/

/-- An effect has been declared for the node. -/
def Db.HasEffect (db : Db) (n : NodeId) : Prop := ∃ e ∈ db.externalEffects, e.nodeId = n

theorem Db.hasExternalEffects_iff {db : Db} {ids : List NodeId} :
    db.hasExternalEffects ids = true ↔ ∃ n ∈ ids, db.HasEffect n := by
  simp only [Db.hasExternalEffects, List.any_eq_true, decide_eq_true_eq]
  constructor
  · rintro ⟨e, he, hids⟩
    exact ⟨e.nodeId, hids, e, he, rfl⟩
  · rintro ⟨n, hids, e, he, rfl⟩
    exact ⟨e, he, hids⟩

/-- What the key held is the same node's effect, or that node has another one under another key. -/
def Db.KeySpares (db : Db) (key : String) (x : NodeId) : Prop :=
  ∀ e ∈ db.externalEffects, e.idempotencyKey = key →
    e.nodeId = x ∨ ∃ e' ∈ db.externalEffects, e'.idempotencyKey ≠ key ∧ e'.nodeId = e.nodeId

section Declare

variable {db : Db} {key type : String} {x n : NodeId} {now : Time}

theorem Db.mem_addExternalEffect {e : ExternalEffect} :
    e ∈ (db.addExternalEffect key x type now).externalEffects ↔
      (e ∈ db.externalEffects ∧ e.idempotencyKey ≠ key) ∨ e = ⟨key, x, type, Clock.stamp now⟩ :=
  Keyed.mem_insertOrReplace

/-- The declared node has an effect, whatever was there before. -/
theorem Db.hasEffect_addExternalEffect : (db.addExternalEffect key x type now).HasEffect x :=
  ⟨_, Db.mem_addExternalEffect.mpr (Or.inr rfl), rfl⟩

/-- A declaration keeps the effects of a node, unless the only one stood under its key. -/
theorem Db.HasEffect.addExternalEffect (hspares : db.KeySpares key x) (h : db.HasEffect n) :
    (db.addExternalEffect key x type now).HasEffect n := by
  obtain ⟨e, he, rfl⟩ := h
  by_cases hkey : e.idempotencyKey = key
  · rcases hspares e he hkey with hx | ⟨e', he', hkey', hnode⟩
    · rw [hx]
      exact Db.hasEffect_addExternalEffect
    · exact ⟨e', Db.mem_addExternalEffect.mpr (Or.inl ⟨he', hkey'⟩), hnode⟩
  · exact ⟨e, Db.mem_addExternalEffect.mpr (Or.inl ⟨he, hkey⟩), rfl⟩

/-- **A declaration forgets no node if and only if its key spares them all.** -/
theorem Db.addExternalEffect_keeps_iff :
    (∀ n, db.HasEffect n → (db.addExternalEffect key x type now).HasEffect n) ↔
      db.KeySpares key x := by
  constructor
  · intro hkeeps e he hkey
    obtain ⟨e', he', hnode⟩ := hkeeps e.nodeId ⟨e, he, rfl⟩
    rcases Db.mem_addExternalEffect.mp he' with ⟨hold, hkey'⟩ | rfl
    · exact Or.inr ⟨e', hold, hkey', hnode⟩
    · exact Or.inl hnode.symm
  · exact fun hspares n h => h.addExternalEffect hspares

end Declare

/-! ## 2. What a call does to them -/

variable {g : Setup} {answers : Answers} {n : NodeId}

/-- The declaration of an effect spares the effects of other nodes. -/
def SparesEffects : Trans Call Call.Res Exc World
  | .store (.addExternalEffect key x _ _), w, _, _ => w.db.KeySpares key x
  | _, _, _, _ => True

/-- Only a declaration writes the effects. -/
theorem Store.exec_externalEffects (g : Setup) (db : Db) {c : Store} (h : c.kind ≠ .effect) :
    (c.exec g db).2.externalEffects = db.externalEffects := by
  cases c with
  | addExternalEffect key x type now => exact absurd rfl h
  | computeBlastRadius root =>
    obtain ⟨rcs, hrcs⟩ := Db.computeBlastRadius_snd g.settings.maxTraversalDepth root db
    rw [Store.exec, hrcs]
    rfl
  | recordShadowDecision d =>
    simp only [Store.exec, Db.recordShadowDecision]
    split <;> rfl
  | _ => rfl

theorem Store.hasEffect_exec {c : Store} {w w' : World} {r : Except Exc c.Res} {db : Db}
    (hspares : SparesEffects (.store c) w r w') (hdb : w.db = db) (h : db.HasEffect n) :
    (c.exec g db).2.HasEffect n := by
  subst hdb
  cases c with
  | addExternalEffect key x type now => exact h.addExternalEffect hspares
  | updateRepairCandidate x rc => exact h
  | _ =>
    unfold Db.HasEffect
    rw [Store.exec_externalEffects g w.db (by simp [Store.kind])]
    exact h

/-- A traversal that reaches the node makes nothing pending: every pending row after it was there
before. -/
def NothingPending (n : NodeId) : Trans Call Call.Res Exc World
  | .store (.computeBlastRadius _), w, r, w' => ∀ ids, r = .ok ids → n ∈ ids →
      ∀ row ∈ w'.db.repairCandidates, row.2.disposition = .pendingReconstruction →
        row ∈ w.db.repairCandidates
  | _, _, _, _ => True

/-- With an effect inside the blast radius, what is classified is irreducible. -/
theorem Db.classify_of_rollback {db : Db} {visited : List NodeId} {x : NodeId} {rc : RepairCandidate}
    (h : db.classify visited true x = some rc) : rc.disposition = .irreducible := by
  unfold Db.classify at h
  split at h
  · exact absurd h (by simp)
  · rw [if_pos rfl] at h
    obtain rfl := Option.some.inj h
    rfl

theorem Db.pending_of_hasEffect {D : Int} {root : NodeId} {db : Db} {row : NodeId × RepairCandidate}
    (hn : n ∈ (db.computeBlastRadius D root).1) (h : db.HasEffect n)
    (hrow : row ∈ (db.computeBlastRadius D root).2.repairCandidates)
    (hp : row.2.disposition = .pendingReconstruction) : row ∈ db.repairCandidates := by
  have hrollback : db.hasExternalEffects (db.computeBlastRadius D root).1 = true :=
    Db.hasExternalEffects_iff.mpr ⟨n, hn, h⟩
  rcases Db.mem_repair_of_mem _ db hrow with hrow | ⟨rcs, hrow⟩
  · exact hrow
  · change Db.hasExternalEffects db (sortedSet _) = true at hrollback
    rw [hrollback] at hrow
    rw [Db.classify_of_rollback hrow] at hp
    exact absurd hp (by simp)

/-! ## 3. Runs -/

/-- While the node has an effect, every call of a request meets the obligation and keeps it. -/
theorem hasEffect_handle (req : Request) {w : World} (hw : w.Both fun db => db.HasEffect n) :
    Act.Sat (restrict (Step g answers) SparesEffects) (NothingPending n) (req.handle g)
      (fun _ w' => w'.Both fun db => db.HasEffect n) w := by
  refine Prog.Uses.sat (I := World.Both fun db => db.HasEffect n) (uses_any _) ?_ hw
  intro c _ w₁ r w₂ ht h₁
  refine ⟨?_, h₁.step (fun k hk h => ?_) ht.1⟩
  · cases c with
    | store c =>
      cases c with
      | computeBlastRadius root =>
        obtain ⟨⟨rfl, rfl⟩, -⟩ := ht
        intro ids hids hn row hrow hp
        obtain rfl := Except.ok.inj hids
        exact Db.pending_of_hasEffect hn h₁.1 hrow hp
      | _ => trivial
    | _ => trivial
  · subst hk
    exact Store.hasEffect_exec ht.2 rfl h

/-- A successful declaration leaves the node with an effect. -/
theorem hasEffect_declare (header : Option String) (key type : String) (w : World) :
    Act.Sat (restrict (Step g answers) SparesEffects) Trans.any
      (declareExternalEffect g header key n type)
      (onOk (fun _ w' => w'.db.HasEffect n) fun _ _ => True) w := by
  have hcalls : ∀ {α : Type} {x : Handler α} {f : α → Handler Response} (w : World),
      (∀ a w', Act.Sat (restrict (Step g answers) SparesEffects) Trans.any (f a)
        (onOk (fun _ w' => w'.db.HasEffect n) fun _ _ => True) w') →
      Act.Sat (restrict (Step g answers) SparesEffects) Trans.any (x >>= f)
        (onOk (fun _ w' => w'.db.HasEffect n) fun _ _ => True) w := by
    intro α x f w hf
    exact Act.Uses.sat_bind (I := fun _ => True) (uses_any _)
      (fun _ _ _ _ _ _ _ => ⟨trivial, trivial⟩) trivial (fun a w' _ => hf a w')
      fun _ _ _ => trivial
  refine hcalls w fun claims w₁ => hcalls w₁ fun now w₂ => ?_
  rw [Act.sat_bind]
  rintro r w₃ ⟨⟨rfl, rfl⟩, -⟩
  exact ⟨trivial, Db.hasEffect_addExternalEffect⟩

/-- Once an effect has been declared for a node, no later traversal that reaches it makes a
compaction pending. -/
def EffectsRemembered (hs : List Handled) : Prop :=
  ∀ pre k post header key n type a, hs = pre ++ k :: post →
    k.request = .declareExternalEffect header key n type → k.outcome = .ok a →
    ∀ j ∈ post, ∀ e ∈ j.trace, NothingPending n e.call e.before e.answer e.after

/-- **External effects are remembered**, in a run in which no declaration takes the last effect of
another node away. -/
theorem effects_remembered {db : Db} {adapterKey : Option String} {hs : List Handled} {w : World}
    (hrun : Run g (Step g answers) (World.initial g db adapterKey) hs w)
    (hspares : ∀ k ∈ hs, ∀ e ∈ k.trace, SparesEffects e.call e.before e.answer e.after) :
    EffectsRemembered hs := by
  rintro pre k post header key n type a rfl hreq hout
  obtain ⟨w₁, hpre, hexec, hpost⟩ := hrun.split
  have hsaved₁ : w₁.saved = none := hpre.saved rfl
  have hsaved : k.after.saved = none :=
    (Prog.Sat.sound (saved_handle k.request hsaved₁) hexec).2
  have heffect : k.after.db.HasEffect n := by
    have hk := hexec.restrict (hspares k (by simp))
    rw [hreq, hout] at hk
    exact (Prog.Sat.sound (hasEffect_declare header key type w₁) hk).2
  have hpost := hpost.restrict (C := SparesEffects) fun j hj => hspares j (by simp [hj])
  have hinv := hpost.invariant (fun req w hw => hasEffect_handle req hw)
    (World.both_of_saved hsaved heffect)
  exact fun j hj => (hinv.2 j hj).2

/-! ## 4. An effect that is forgotten -/

def openEffect (key : String) (x : NodeId) : Request :=
  .declareExternalEffect (some "Bearer admin") key x "api"

/-- A summary with an effect, and a summary of it that could be rebuilt from the root. -/
def effectRequests (reused : String) : List Request :=
  [openSummary "summary-0" ["clean-parent-1"],
    openSummary "summary-1" ["clean-parent-1", "summary-0"], openCheckpoint "clean-parent-1",
    openEffect "effect-1" "summary-0", openEffect reused "clean-parent-1"]

/-- Whether the call is a declaration that takes away the last effect of a node. -/
def sparesEffects : Call → World → Bool
  | .store (.addExternalEffect key x _ _), w => w.db.externalEffects.all fun e =>
      e.idempotencyKey ≠ key || e.nodeId = x ||
        w.db.externalEffects.any fun e' => e'.idempotencyKey ≠ key && e'.nodeId = e.nodeId
  | _, _ => true

theorem sparesEffects_of_check {c : Call} {w w' : World} {r : Except Exc c.Res}
    (h : sparesEffects c w = true) : SparesEffects c w r w' := by
  cases c with
  | store c =>
    cases c with
    | addExternalEffect key x type now =>
      intro e he hkey
      have hrow := List.all_eq_true.mp h e he
      simp only [hkey, ne_eq, not_true, decide_false, Bool.false_or, Bool.or_eq_true,
        decide_eq_true_eq, List.any_eq_true, Bool.and_eq_true] at hrow
      rcases hrow with hx | ⟨e', he', hkey', hnode⟩
      · exact Or.inl hx
      · exact Or.inr ⟨e', he', hkey', hnode⟩
    | _ => trivial
  | _ => trivial

/-- Under another key the second declaration forgets nothing, and the summary is irreducible. -/
theorem effects_remembered_two_keys : ∃ hs w,
    Run openSetup (Step openSetup Answers.lawful) (World.initial openSetup {} none) hs w ∧
      hs.map Handled.request = effectRequests "effect-2" ++ [openReport "summary-0"] ∧
      EffectsRemembered hs ∧
      w.db.repairCandidates.map (fun row => (row.1, row.2.disposition, row.2.reason)) =
        [("summary-1", .irreducible, some "semantic_rollback_hazard")] := by
  obtain ⟨hs, hrun, hreqs, hspares⟩ := Script.exists_checked_run openSetup sparesEffects
    (P := SparesEffects) (fun _ _ _ _ h _ => sparesEffects_of_check h)
    (openRun (effectRequests "effect-2" ++ [openReport "summary-0"]))
    (World.initial openSetup {} none) (by decide +kernel)
  refine ⟨hs, _, hrun, ?_, effects_remembered hrun hspares, by decide +kernel⟩
  rw [hreqs]
  rfl

/-- Whether the call is no traversal from the summary that makes something pending. -/
def pendsNothing : Call → World → Bool
  | .store (.computeBlastRadius root), w =>
    let (ids, db) := w.db.computeBlastRadius openSetup.settings.maxTraversalDepth root
    !("summary-0" ∈ ids && db.repairCandidates.any fun row =>
      row.2.disposition = .pendingReconstruction &&
        w.db.repairCandidates.all fun old => old.1 ≠ row.1)
  | _, _ => true

/-- **An effect that is forgotten.**  The key of the summary's effect is used again for the root;
the report of the summary then finds no effect, and the summary of it is to be rebuilt. -/
theorem effects_remembered_same_key : ¬ ∀ hs w,
    Run openSetup (Step openSetup Answers.lawful) (World.initial openSetup {} none) hs w →
      EffectsRemembered hs := by
  intro hall
  obtain ⟨hs, k, hrun, hlog, -, e, he, hfail, hanswer, hafter⟩ :=
    Script.exists_failing_run openSetup pendsNothing
      (openRun (effectRequests "effect-1")) (openScript "5") (openReport "summary-0")
      (World.initial openSetup {} none) (by decide +kernel)
  -- the declaration of the summary's effect, the fourth request, has succeeded
  obtain ⟨a, w₁, hdeclared⟩ : ∃ a w₁, (Script.log openSetup (openRun (effectRequests "effect-1"))
      (World.initial openSetup {} none))[3]? = some (openEffect "effect-1" "summary-0", .ok a, w₁) :=
    ⟨_, _, rfl⟩
  rw [← hlog, List.getElem?_map, Option.map_eq_some_iff] at hdeclared
  obtain ⟨k₃, hk₃, hlogged⟩ := hdeclared
  obtain ⟨hreq, hanswered⟩ := Prod.mk.inj hlogged
  obtain ⟨hout, -⟩ := Prod.mk.inj hanswered
  obtain ⟨hlt, rfl⟩ := List.getElem?_eq_some_iff.mp hk₃
  have hsplit : hs ++ [k] = hs.take 3 ++ hs[3] :: (hs.drop 4 ++ [k]) := by
    rw [← List.cons_append, ← List.drop_eq_getElem_cons hlt, ← List.append_assoc,
      List.take_append_drop]
  have hnothing := hall _ _ hrun _ _ _ _ _ _ _ a hsplit hreq hout k (by simp) e he
  obtain ⟨c, w₂, r, w₃⟩ := e
  dsimp only at hfail hanswer hafter hnothing
  cases c with
  | store c =>
    cases c with
    | computeBlastRadius root =>
      subst hanswer hafter
      simp only [pendsNothing, Bool.not_eq_false', Bool.and_eq_true, decide_eq_true_eq,
        List.any_eq_true, List.all_eq_true] at hfail
      obtain ⟨hn, row, hrow, hp, hnew⟩ := hfail
      exact hnew row (hnothing _ rfl hn row hrow hp) rfl
    | _ => exact absurd hfail (by simp [pendsNothing])
  | _ => exact absurd hfail (by simp [pendsNothing])

end GovernorGateway
