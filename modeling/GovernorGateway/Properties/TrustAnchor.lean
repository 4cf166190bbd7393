/-
# The adapter's key

`RECOVERY_ADAPTER_PUBLIC_KEY` decides whose candidates the gate lets through and whose
contradictions `/observe` believes.  It is a setting, and it is ASSIGNED: continuity and inline
reconstruction put the key they have just generated in its place.

The key keeps its configured value in every run in which recovery finds nothing to serve and nothing
to rebuild inline (`adapterKey_constant_of_run`); one inline reconstruction is enough to lose it
(`adapterKey_lost`).
-/
import GovernorGateway.Semantics.Idle
import GovernorGateway.Semantics.Scripted

namespace GovernorGateway

open Effects

variable {g : Setup} {answers : Answers}

/-! ## 1. The condition -/

/-- Recovery finds nothing to do: right after a containment there is nobody for continuity to serve,
and when reconstruction reads the repair candidates and there is no adapter, none of them is waiting
for a stored compaction. -/
def RecoversIdly (g : Setup) : Trans Call Call.Res Exc World
  | .store (.applyQuarantineTransaction event ids), w, _, _ =>
    event.designatorIdentity.isSome = true →
      ¬ (w.db.applyQuarantineTransaction g.settings.maxTraversalDepth event ids).2.Serves g ids
        event.detectedAtUtc
  | .store .getRepairCandidates, w, _, _ => g.settings.hasAdapter = false → ¬ w.db.Rebuilds
  | _, _, _, _ => True

/-- Whoever asks for the key is told the configured one. -/
def ReadsKey (key : Option String) : Trans Call Call.Res Exc World
  | .getAdapterKey, _, r, _ => r = .ok key
  | _, _, _, _ => True

/-! ## 2. Every request keeps the key -/

section Keeps

variable {key : Option String}

/-- Every call but an assignment keeps the key. -/
theorem key_of_step {c : Call} (hc : c.kind ≠ .setKey) {w w' : World} {r : Except Exc c.Res}
    (ht : restrict (Step g answers) (RecoversIdly g) c w r w') (hw : w.adapterKey = key) :
    ReadsKey key c w r w' ∧ w'.adapterKey = key := by
  refine ⟨?_, (adapterKey_of_step hc ht.1).trans hw⟩
  cases c with
  | getAdapterKey =>
    obtain ⟨⟨rfl, -⟩, -⟩ := ht
    rw [← hw]
    rfl
  | _ => trivial

theorem reading_key : Reading (restrict (Step g answers) (RecoversIdly g)) (ReadsKey key)
    fun w => w.adapterKey = key := by
  intro c w r w' hc hw ht
  refine key_of_step ?_ ht hw
  rcases hc with hc | hc | hc
  · rw [hc]
    simp
  · rw [hc]
    simp
  · rw [hc]
    simp

/-- A part that assigns no key, in front of the rest of a handler. -/
theorem key_bind {α β : Type} {x : Handler α} {f : α → Handler β} {F : β → World → Prop}
    (hx : x.Uses fun c => c.kind ≠ .setKey)
    (hf : ∀ a w, w.adapterKey = key → Act.Sat (restrict (Step g answers) (RecoversIdly g))
      (ReadsKey key) (f a) (onOk F fun _ w' => w'.adapterKey = key) w) {w : World}
    (hw : w.adapterKey = key) :
    Act.Sat (restrict (Step g answers) (RecoversIdly g)) (ReadsKey key) (x >>= f)
      (onOk F fun _ w' => w'.adapterKey = key) w :=
  hx.sat_bind (I := fun w => w.adapterKey = key) (fun _ hc _ _ _ ht hI => key_of_step hc ht hI) hw hf
    fun _ w' (h : w'.adapterKey = key) => h

theorem key_attemptReconstruction (hlaw : answers.Lawful) (root : NodeId) {w : World}
    (hw : w.adapterKey = key) :
    Act.Sat (restrict (Step g answers) (RecoversIdly g)) (ReadsKey key)
      (attemptReconstruction g root) (fun _ w' => w'.adapterKey = key) w := by
  by_cases hadapter : g.settings.hasAdapter = true
  · have huses : (attemptReconstruction g root).Uses fun c => c.kind ≠ .setKey :=
      uses_attemptReconstruction g (of_ne_setKey rfl)
        (fun h => absurd (hadapter.symm.trans h) (by simp)) root
    exact Prog.Uses.sat (I := fun w : World => w.adapterKey = key) huses
      (fun _ hc _ _ _ ht hI => key_of_step hc ht hI) hw
  · by_cases hreb : w.db.Rebuilds
    · -- the condition on the first call does not hold
      rw [attemptReconstruction, Act.sat_bind]
      rintro r w' ⟨-, hok⟩
      exact absurd hreb (hok (by simpa using hadapter))
    · refine (idle_reconstruction (solo_step hlaw _) reading_key root hw hreb).mono ?_
      rintro (e | u) w' h'
      · exact h'.1
      · exact h'.1

/-- After a containment there is nobody to serve. -/
theorem key_contain (root : NodeId) (identity reason : String) (source : Option String) {w : World}
    (hw : w.adapterKey = key) :
    Act.Sat (restrict (Step g answers) (RecoversIdly g)) (ReadsKey key)
      (contain g root identity reason source)
      (onOk (fun out w' => w'.adapterKey = key ∧ ¬ w'.db.Serves g out.1 out.2.detectedAtUtc)
        fun _ w' => w'.adapterKey = key) w := by
  refine (sat_contain_apply (I := fun w : World => w.adapterKey = key) (of_ne_setKey rfl)
    (fun _ hc _ _ _ ht hI => key_of_step hc ht hI) root identity reason source hw).mono ?_
  rintro (e | out) w' h'
  · exact h'
  · obtain ⟨hkey, event, w₁, hdes, -, ⟨hr, hw'⟩, hok⟩ := h'
    refine ⟨hkey, ?_⟩
    have hidle := hok (by rw [hdes]; rfl)
    have hout : out.2.detectedAtUtc = event.detectedAtUtc := by
      rw [Except.ok.inj hr]
      rfl
    rw [hout, hw']
    exact hidle

/-- What follows it. -/
theorem key_continuity (hlaw : answers.Lawful) {ids : List NodeId} {event : QuarantineEvent}
    {root : NodeId} {f : ContinuityResults → Response} {w : World} (hw : w.adapterKey = key)
    (hidle : ¬ w.db.Serves g ids event.detectedAtUtc) :
    Act.Sat (restrict (Step g answers) (RecoversIdly g)) (ReadsKey key)
      (attemptSafeContinuity g ids event >>= fun continuity =>
        attemptReconstruction g root >>= fun _ => pure (f continuity))
      (onOk (fun _ w' => w'.adapterKey = key) fun _ w' => w'.adapterKey = key) w := by
  rw [Act.sat_bind]
  refine (idle_continuity (solo_step hlaw _) reading_key hw hidle).mono ?_
  rintro (e | continuity) w' h'
  · exact h'.1
  · rw [onOk_ok, Act.sat_bind]
    refine (key_attemptReconstruction hlaw root h'.1).mono ?_
    rintro (e | u) w'' h''
    · exact h''
    · exact h''

theorem key_designate (hlaw : answers.Lawful) (header : Option String) (e : DesignationEvent)
    {w : World} (hw : w.adapterKey = key) :
    Act.Sat (restrict (Step g answers) (RecoversIdly g)) (ReadsKey key) (designatePoison g header e)
      (onOk (fun _ w' => w'.adapterKey = key) fun _ w' => w'.adapterKey = key) w := by
  have hsync : ∀ k w r w', ReadsKey key (.sync k) w r w' := fun _ _ _ _ => trivial
  refine key_bind (uses_verifyRole g (of_ne_setKey rfl) _ _) (fun claims w₁ h₁ => ?_) hw
  refine key_bind (uses_limitDesignations g (of_ne_setKey rfl) _ _) (fun _ w₂ h₂ => ?_) h₁
  refine sat_withExclusive hsync
    (sat_withTransaction hsync (uses_designateLocked g (Call.of_noTx rfl) e _) ?_)
  have hlocked : Act.Sat (restrict (Step g answers) (RecoversIdly g)) (ReadsKey key)
      (designateLocked g e (claims.sub.getD "unknown"))
      (onOk (fun _ w' => w'.adapterKey = key) fun _ w' => w'.adapterKey = key)
      { w₂ with saved := some w₂.db } := by
    refine key_bind (uses_read (of_ne_setKey rfl) rfl) (fun _ w₃ h₃ => ?_) h₂
    refine key_bind (uses_read (of_ne_setKey rfl) rfl) (fun _ w₄ h₄ => ?_) h₃
    split
    · exact h₄
    · split
      · exact h₄
      · rw [Act.sat_bind]
        refine (key_contain _ _ _ _ h₄).mono ?_
        rintro (exc | out) w₅ h₅
        · exact h₅
        · exact key_continuity hlaw h₅.1 h₅.2
  refine hlocked.mono ?_
  rintro (exc | a) w' h'
  · exact h'
  · exact h'

theorem key_detector (hlaw : answers.Lawful) (header : Option String) (source : String)
    (raw : RawEvent) {w : World} (hw : w.adapterKey = key) :
    Act.Sat (restrict (Step g answers) (RecoversIdly g)) (ReadsKey key)
      (ingestDetectorEvent g header source raw)
      (onOk (fun _ w' => w'.adapterKey = key) fun _ w' => w'.adapterKey = key) w := by
  have hsync : ∀ k w r w', ReadsKey key (.sync k) w r w' := fun _ _ _ _ => trivial
  refine key_bind (uses_verifyRole g (of_ne_setKey rfl) _ _) (fun _ w₁ h₁ => ?_) hw
  cases detectorRegistry source with
  | none => exact h₁
  | some src =>
    refine key_bind (uses_recordRawEvent (of_ne_setKey rfl) _ _) (fun _ w₂ h₂ => ?_) h₁
    refine key_bind (Act.uses_raiseIf _ _) (fun _ w₃ h₃ => ?_) h₂
    cases toDesignation g.env src raw with
    | error reason => exact h₃
    | ok e =>
      refine key_bind (uses_verifyRole g (of_ne_setKey rfl) _ _) (fun claims w₄ h₄ => ?_) h₃
      refine key_bind (uses_limitDesignations g (of_ne_setKey rfl) _ _) (fun _ w₅ h₅ => ?_) h₄
      rw [Act.sat_bind]
      refine sat_withExclusive hsync ?_
      have hlocked : Act.Sat (restrict (Step g answers) (RecoversIdly g)) (ReadsKey key)
          (detectorLocked g e (claims.sub.getD ("detector:" ++ src.name)) src)
          (onOk (fun out w' => w'.adapterKey = key ∧
              ∀ o, out = some o → ¬ w'.db.Serves g o.1 o.2.detectedAtUtc)
            fun _ w' => w'.adapterKey = key) w₅ := by
        refine key_bind (uses_read (of_ne_setKey rfl) rfl) (fun _ w₆ h₆ => ?_) h₅
        refine key_bind (uses_read (of_ne_setKey rfl) rfl) (fun _ w₇ h₇ => ?_) h₆
        split
        · exact h₇
        · split
          · exact ⟨h₇, fun o ho => absurd ho (by simp)⟩
          · rw [Act.sat_bind]
            refine (key_contain _ _ _ _ h₇).mono ?_
            rintro (exc | out) w₈ h₈
            · exact h₈
            · refine ⟨h₈.1, ?_⟩
              rintro o ho
              obtain rfl := Option.some.inj ho
              exact h₈.2
      refine hlocked.mono ?_
      rintro (exc | out) w₆ h₆
      · exact h₆
      · cases out with
        | none => exact h₆.1
        | some out => exact key_continuity hlaw h₆.1 (h₆.2 out rfl)

/-- **Every request keeps the key.** -/
theorem key_handle (hlaw : answers.Lawful) (req : Request) {w : World} (hw : w.adapterKey = key) :
    Act.Sat (restrict (Step g answers) (RecoversIdly g)) (ReadsKey key) (req.handle g)
      (fun _ w' => w'.adapterKey = key) w := by
  have huses : req.kinds.contains .setKey = false →
      Act.Sat (restrict (Step g answers) (RecoversIdly g)) (ReadsKey key) (req.handle g)
        (fun _ w' => w'.adapterKey = key) w := by
    intro h
    exact Prog.Uses.sat (I := fun w : World => w.adapterKey = key)
      (uses_handle g req (of_ne_setKey h)) (fun _ hc _ _ _ ht hI => key_of_step hc ht hI) hw
  cases req with
  | designate header e =>
    refine (key_designate hlaw header e hw).mono ?_
    rintro (exc | a) w' h'
    · exact h'
    · exact h'
  | detector header source raw =>
    refine (key_detector hlaw header source raw hw).mono ?_
    rintro (exc | a) w' h'
    · exact h'
    · exact h'
  | _ => exact huses rfl

end Keeps

/-! ## 3. The trust anchor -/

/-- **The trust anchor is constant** in every run, in either mode and from any world, in which
recovery finds nothing to do; and whoever reads the key, the gate of a reconstruction or the check
of a contradiction, reads its configured value. -/
theorem adapterKey_constant_of_run (hlaw : answers.Lawful) {w w' : World} {hs : List Handled}
    (hrun : Run g (Step g answers) w hs w')
    (hok : ∀ k ∈ hs, ∀ e ∈ k.trace, RecoversIdly g e.call e.before e.answer e.after) :
    w'.adapterKey = w.adapterKey ∧ ∀ k ∈ hs, k.after.adapterKey = w.adapterKey ∧
      ∀ e ∈ k.trace, ReadsKey w.adapterKey e.call e.before e.answer e.after :=
  (hrun.restrict hok).invariant (P := ReadsKey w.adapterKey)
    (I := fun w' => w'.adapterKey = w.adapterKey) (fun req _ hw => key_handle hlaw req hw) rfl

/-- The condition, on the state that a call finds. -/
def recoversIdly (g : Setup) : Call → World → Bool
  | .store (.applyQuarantineTransaction event ids), w =>
    decide (event.designatorIdentity.isSome = true →
      ¬ (w.db.applyQuarantineTransaction g.settings.maxTraversalDepth event ids).2.Serves g ids
        event.detectedAtUtc)
  | .store .getRepairCandidates, w => decide (g.settings.hasAdapter = false → ¬ w.db.Rebuilds)
  | _, _ => true

theorem recoversIdly_spec (c : Call) (w w' : World) (r : Except Exc c.Res)
    (h : recoversIdly g c w = true) : RecoversIdly g c w r w' := by
  cases c with
  | store c =>
    cases c with
    | applyQuarantineTransaction event ids => exact fun hdes => of_decide_eq_true h hdes
    | getRepairCandidates => exact fun hadapter => of_decide_eq_true h hadapter
    | _ => trivial
  | _ => trivial

/-- A summary of the root is reported, and contained: there is nothing to recover. -/
theorem adapterKey_after_report : ∃ hs w,
    Run openSetup (Step openSetup Answers.lawful)
      (World.initial openSetup {} (some "configured-key")) hs w ∧
    w.lin.ledger = ["quarantined-node-A", "summary-0"] ∧ w.adapterKey = some "configured-key" := by
  obtain ⟨hs, hrun, -, hok⟩ := Script.exists_checked_run openSetup (recoversIdly openSetup)
    (P := RecoversIdly openSetup) (fun c w r w' h _ => recoversIdly_spec c w w' r h)
    (openRun (rebuildRequests.eraseIdx 1))
    (World.initial openSetup {} (some "configured-key")) (by decide +kernel)
  exact ⟨hs, _, hrun, by decide +kernel,
    (adapterKey_constant_of_run (fun _ _ h => h) hrun hok).1⟩

/-- After an inline reconstruction the key is the generated one. -/
theorem adapterKey_lost : ¬ ∀ hs w, Run openSetup (Step openSetup Answers.lawful)
    (World.initial openSetup {} (some "configured-key")) hs w →
    w.adapterKey = some "configured-key" := by
  intro hall
  obtain ⟨hs, hrun, -⟩ := exists_open_run rebuildRequests (some "configured-key")
  have hkey := hall hs _ hrun
  revert hkey
  decide +kernel

end GovernorGateway
