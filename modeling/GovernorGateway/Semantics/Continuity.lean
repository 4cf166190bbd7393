/-
# What continuity can do to the lineage

`_attempt_safe_continuity` reads the store once and then serves the critical nodes one by one.
`ContinuityNode` says what a node it commits looks like, in terms of what it read: it covers
nothing, its id is generated, and its parents are

* the clean parents of the critical node it serves, when a checkpoint is replayed (M4), OR THE
  FALLBACK `clean-parent-1` when there are none, or
* a declared substitute that is stored and not in the ledger (M3).

Nothing compares the fallback with the ledger (`ContinuityNode.clean`).
-/
import GovernorGateway.Semantics.Recovery

namespace GovernorGateway

open Effects

/-! ## 1. The search for a substitute -/

section Search

variable {α β ε : Type} {f : α → Except ε (Option β)} {l : List α}

/-- What a search has found, one of the elements gives. -/
theorem exists_of_findSomeM?_ok {b : β} (h : l.findSomeM? f = .ok (some b)) :
    ∃ a ∈ l, f a = .ok (some b) := by
  induction l with
  | nil => exact absurd (Except.ok.inj h) (by simp)
  | cons a l ih =>
    rw [List.findSomeM?_cons] at h
    cases hfa : f a with
    | error e =>
      rw [hfa] at h
      exact absurd h (by simp [bind, Except.bind])
    | ok o =>
      rw [hfa] at h
      cases o with
      | some b' =>
        obtain rfl := Option.some.inj (Except.ok.inj h)
        exact ⟨a, List.mem_cons_self, hfa⟩
      | none =>
        obtain ⟨a', ha', hb⟩ := ih h
        exact ⟨a', List.mem_cons_of_mem a ha', hb⟩

/-- A search raises what one of the elements raises. -/
theorem exists_of_findSomeM?_error {e : ε} (h : l.findSomeM? f = .error e) : ∃ a ∈ l, f a = .error e := by
  induction l with
  | nil => exact absurd h (by simp [pure, Except.pure])
  | cons a l ih =>
    rw [List.findSomeM?_cons] at h
    cases hfa : f a with
    | error e' =>
      rw [hfa] at h
      obtain rfl := Except.error.inj h
      exact ⟨a, List.mem_cons_self, hfa⟩
    | ok o =>
      rw [hfa] at h
      cases o with
      | some b => exact absurd h (by simp [bind, Except.bind, pure, Except.pure])
      | none =>
        obtain ⟨a', ha', he⟩ := ih h
        exact ⟨a', List.mem_cons_of_mem a ha', he⟩

end Search

namespace Snapshot

variable {s : Snapshot} {containment : String} {x tainted : NodeId} {d : SubstituteDeclaration}
  {source : Payload}

/-- M3 can use the substitute that is declared for the node. -/
def usable (s : Snapshot) (containment : String) (x : NodeId) : Bool :=
  match s.substitutable containment x with
  | .ok (some _) => true
  | _ => false

theorem usable_iff :
    s.usable containment x = true ↔ ∃ found, s.substitutable containment x = .ok (some found) := by
  unfold usable
  split
  · rename_i found h
    exact ⟨fun _ => ⟨found, h⟩, fun _ => rfl⟩
  · rename_i hnot
    exact ⟨fun h => absurd h (by simp), fun ⟨found, h⟩ => absurd h (hnot found)⟩

/-- A substitute is declared for the node with a time that is no text. -/
def untimed (s : Snapshot) (x : NodeId) : Bool :=
  match Keyed.lookup SubstituteDeclaration.targetNodeId s.substitutes x with
  | none => false
  | some d =>
    match d.declaredAtUtc with
    | .str _ => false
    | _ => true

/-- **M3 raises at a declaration whose time is no text**, and at no other. -/
theorem substitutable_error_iff :
    (∃ e, s.substitutable containment x = .error e) ↔ s.untimed x = true := by
  unfold substitutable untimed SubstituteDeclaration.predates
  cases Keyed.lookup SubstituteDeclaration.targetNodeId s.substitutes x with
  | none => simp
  | some d =>
    dsimp only
    cases d.declaredAtUtc with
    | str t =>
      dsimp only
      split <;> simp
    | _ => simp

end Snapshot

/-! ## 2. What continuity commits -/

/-- What continuity reads before it serves anybody. -/
def Db.snapshot (db : Db) : Snapshot :=
  ⟨db.checkpoints, db.substituteDeclarations, db.ledger, db.getDag⟩

/-- For a critical node that no checkpoint serves, every substitute declared for one of its tainted
ancestors has a text for its time: the loop of M3 ends, in whatever order it walks through the
ancestors. -/
def Db.Timed (db : Db) (containment : String) (ids : List NodeId) : Prop :=
  ∀ dep ∈ db.getCriticalDependents ids,
    db.snapshot.checkpoints.find? (db.snapshot.replayable dep containment) = none →
      ∀ x ∈ db.snapshot.relevantTainted dep, db.snapshot.untimed x = false

/-- A node continuity commits for one of the critical nodes `deps`. -/
inductive ContinuityNode (U : String → Prop) (snap : Snapshot) (containment : String)
    (deps : List Db.CriticalDependent) : CommitSite → Payload → Prop
  | replay {p : Payload} {dep : Db.CriticalDependent} {cp : Checkpoint} {u : String}
      (hdep : dep ∈ deps) (hcp : cp ∈ snap.checkpoints)
      (hreplay : snap.replayable dep containment cp = true)
      (hcovers : p.covers = []) (hparents : p.parentIds = snap.cleanParents dep.nodeId)
      (hid : p.payloadId = "continuity-cp-" ++ u) (hu : U u) :
      ContinuityNode U snap containment deps .checkpointReplay p
  | substitute {p : Payload} {dep : Db.CriticalDependent} {d : SubstituteDeclaration} {u : String}
      {tainted : NodeId} {source : Payload}
      (hdep : dep ∈ deps) (htainted : tainted ∈ snap.relevantTainted dep)
      (hsub : snap.substitutable containment tainted = .ok (some (tainted, d, source)))
      (hcovers : p.covers = [])
      (hparents : p.parents = [{ parentNodeId := d.substituteSourceId,
                                 parentContentHash := some (source.contentDigest.getD es64) }])
      (hid : p.payloadId = "continuity-sub-" ++ u) (hu : U u)
      (hnone : snap.checkpoints.find? (snap.replayable dep containment) = none)
      (htarget : Json.find? p.stateContent "original_target" = some (.str tainted)) :
      ContinuityNode U snap containment deps .substitution p

/-- The substitute that is used is not in the ledger, and it is stored. -/
theorem Snapshot.substitutable_some {snap : Snapshot} {containment : String} {x tainted : NodeId}
    {d : SubstituteDeclaration} {source : Payload}
    (h : snap.substitutable containment x = .ok (some (tainted, d, source))) :
    tainted = x ∧ d.substituteSourceId ∉ snap.ledger ∧
      (d.substituteSourceId, source) ∈ snap.dag := by
  unfold Snapshot.substitutable at h
  split at h
  · exact absurd h (by simp)
  · split at h
    · exact absurd h (by simp)
    · split at h
      · rename_i hd
        obtain ⟨n, hn, he⟩ := Option.map_eq_some_iff.mp (Except.ok.inj h)
        rw [Prod.mk.injEq, Prod.mk.injEq] at he
        obtain ⟨rfl, rfl, rfl⟩ := he
        obtain ⟨hmem, hfst⟩ := Keyed.lookup_mem hn
        refine ⟨rfl, hd.2.2, ?_⟩
        rw [← hfst]
        exact hmem
      · exact absurd h (by simp)

/-- The clean parents are clean, or there were none and the fallback stands in. -/
theorem Snapshot.mem_cleanParents {snap : Snapshot} {x y : NodeId} (h : y ∈ snap.cleanParents x) :
    y ∉ snap.ledger ∨
      (y = "clean-parent-1" ∧ (snap.parentsOf x).filter (· ∉ snap.ledger) = []) := by
  unfold Snapshot.cleanParents at h
  split at h
  · rename_i hnil
    exact Or.inr ⟨List.mem_singleton.mp h, hnil⟩
  · exact Or.inl (by simpa using (List.mem_filter.mp h).2)

/-- **A node continuity commits names nothing quarantined**, except when a replay falls back on a
quarantined root. -/
theorem ContinuityNode.clean {U : String → Prop} {snap : Snapshot} {containment : String}
    {deps : List Db.CriticalDependent} {site : CommitSite} {p : Payload}
    (h : ContinuityNode U snap containment deps site p) {x : NodeId} (hx : p.Names x) :
    x ∉ snap.ledger ∨ (site = .checkpointReplay ∧ x = "clean-parent-1") := by
  cases h with
  | @replay _ dep cp u hdep hcp hreplay hcovers hparents hid hu =>
    rcases hx with hx | hx
    · rw [hparents] at hx
      rcases Snapshot.mem_cleanParents hx with hclean | ⟨rfl, -⟩
      · exact Or.inl hclean
      · exact Or.inr ⟨rfl, rfl⟩
    · rw [hcovers] at hx
      exact absurd hx (by simp)
  | @substitute _ dep d u tainted source hdep htainted hsub hcovers hparents hid hu hnone htarget =>
    rcases hx with hx | hx
    · rw [Payload.parentIds, hparents, List.map_singleton, List.mem_singleton] at hx
      subst hx
      exact Or.inl (Snapshot.substitutable_some hsub).2.1
    · rw [hcovers] at hx
      exact absurd hx (by simp)

/-! ## 3. The loop -/

variable {σ : Type} {g : Setup} {T P : Trans Call Call.Res Exc σ} {I : σ → Prop}
  {U : String → Prop}

/-- What continuity may be asked to show, and may use, about its calls while the state has `I`. -/
structure ContinuityCalls (g : Setup) (T P : Trans Call Call.Res Exc σ) (I : σ → Prop)
    (U : String → Prop) (snap : Snapshot) (containment : String)
    (deps : List Db.CriticalDependent) : Prop where
  frame : Frame T P I
  uuid : ∀ s u s', T (.ext .uuid) s (.ok u) s' → U u
  iterSet : ∀ xs s ys s', T (.ext (.iterSet xs)) s (.ok ys) s' → ∀ x ∈ ys, x ∈ xs
  commit : ∀ site p, ContinuityNode U snap containment deps site p →
    Keeps T P I (commitShared site p) fun _ => True

section Loop

variable {snap : Snapshot} {containment : String} {deps : List Db.CriticalDependent}

theorem keeps_expose (hc : ContinuityCalls g T P I U snap containment deps) {site : CommitSite}
    {p : Payload} (hp : ContinuityNode U snap containment deps site p) (key status : String)
    (record : ExposureRecord) : Keeps T P I (expose site p key status record) fun _ => True := by
  refine Keeps.seq (Keeps.quiet hc.frame ?_) fun _ => ?_
  · exact (Act.uses_perform (R := Call.Res) (Call.setAdapterKey key)).mpr trivial
  refine Keeps.seq (hc.commit site p hp) fun _ => ?_
  refine Keeps.seq (Keeps.quiet hc.frame (quiet_ext _)) fun exposureId => ?_
  refine Keeps.seq (Keeps.quiet hc.frame (uses_stampNow (Call.of_quiet rfl))) fun at_ => ?_
  exact Keeps.seq (Keeps.quiet hc.frame (quiet_store (by simp [Store.Loud]))) fun _ =>
    Keeps.pure trivial

theorem keeps_replayCheckpoint (hc : ContinuityCalls g T P I U snap containment deps)
    {dep : Db.CriticalDependent} (hdep : dep ∈ deps) {cp : Checkpoint}
    (hcp : cp ∈ snap.checkpoints) (hreplay : snap.replayable dep containment cp = true) :
    Keeps T P I (replayCheckpoint g snap dep containment cp) fun _ => True := by
  refine Keeps.seq (Keeps.quiet hc.frame (quiet_ext _)) fun key => ?_
  refine Keeps.bind (keeps_uuid hc.frame hc.uuid) fun u hu => ?_
  refine Keeps.seq (Keeps.quiet hc.frame (quiet_ext _)) fun signature => ?_
  refine Keeps.seq (Keeps.quiet hc.frame (uses_stampNow (Call.of_quiet rfl))) fun timestamp => ?_
  refine Keeps.seq (keeps_expose hc (.replay hdep hcp hreplay rfl ?_ rfl hu) _ _ _) fun _ =>
    Keeps.pure trivial
  simp [continuityPayload, Payload.parentIds, Function.comp_def]

theorem keeps_substitute (hc : ContinuityCalls g T P I U snap containment deps)
    {dep : Db.CriticalDependent} (hdep : dep ∈ deps) {tainted : NodeId}
    {d : SubstituteDeclaration} {source : Payload}
    (hnone : snap.checkpoints.find? (snap.replayable dep containment) = none)
    (htainted : tainted ∈ snap.relevantTainted dep)
    (hsub : snap.substitutable containment tainted = .ok (some (tainted, d, source))) :
    Keeps T P I (substitute g dep containment tainted d source) fun _ => True := by
  refine Keeps.seq (Keeps.quiet hc.frame (quiet_ext _)) fun key => ?_
  refine Keeps.bind (keeps_uuid hc.frame hc.uuid) fun u hu => ?_
  refine Keeps.seq (Keeps.quiet hc.frame (quiet_ext _)) fun signature => ?_
  refine Keeps.seq (Keeps.quiet hc.frame (uses_stampNow (Call.of_quiet rfl))) fun timestamp => ?_
  exact Keeps.seq (keeps_expose hc (.substitute hdep htainted hsub rfl rfl rfl hu hnone rfl) _ _ _)
    fun _ => Keeps.pure trivial

theorem keeps_serveCritical (hc : ContinuityCalls g T P I U snap containment deps)
    (results : ContinuityResults) {dep : Db.CriticalDependent} (hdep : dep ∈ deps) :
    Keeps T P I (serveCritical g snap containment results dep) fun _ => True := by
  unfold serveCritical
  split
  · rename_i cp hcp
    refine Keeps.seq (keeps_replayCheckpoint hc hdep (List.mem_of_find?_eq_some hcp) ?_)
      fun _ => Keeps.pure trivial
    exact List.find?_some hcp
  · rename_i hnone
    refine Keeps.bind (R := fun order => ∀ x ∈ order, x ∈ snap.relevantTainted dep)
      (Keeps.call (c := .ext _) ?_) fun order horder => ?_
    · intro s r s' hs ht
      obtain ⟨hp, hs'⟩ := hc.frame _ _ _ _ (by trivial) hs ht
      refine ⟨hp, hs', ?_⟩
      rintro order rfl
      exact hc.iterSet _ s order s' ht
    · refine Keeps.bind (Keeps.resume _) fun found hfound => ?_
      split
      · rename_i tainted d source
        obtain ⟨x, hx, hsub⟩ := exists_of_findSomeM?_ok hfound
        obtain rfl := (Snapshot.substitutable_some hsub).1
        exact Keeps.seq (keeps_substitute hc hdep hnone (horder _ hx) hsub) fun _ =>
          Keeps.pure trivial
      · exact Keeps.pure trivial

theorem keeps_serveAll (hc : ContinuityCalls g T P I U snap containment deps) :
    Keeps T P I (Act.fold (serveCritical g snap containment) deps { enabled := true })
      fun _ => True :=
  Keeps.fold deps (fun _ hdep results _ => keeps_serveCritical hc results hdep) trivial

end Loop

/-- **Safe continuity** commits nothing but continuity nodes for what it read, whatever that was. -/
theorem keeps_attemptSafeContinuity (ids : List NodeId) (event : QuarantineEvent)
    (hframe : Frame T P I)
    (hc : ∀ snap deps, ContinuityCalls g T P I U snap event.detectedAtUtc deps) :
    Keeps T P I (attemptSafeContinuity g ids event) fun _ => True := by
  have hread : ∀ {k : Store}, ¬ k.Loud → Keeps T P I (store k) fun _ => True :=
    fun hk => Keeps.quiet hframe (quiet_store hk)
  unfold attemptSafeContinuity
  refine Keeps.ite (fun _ => Keeps.pure trivial) fun _ => ?_
  refine Keeps.seq (hread (by simp [Store.Loud])) fun deps => ?_
  refine Keeps.ite (fun _ => Keeps.pure trivial) fun _ => ?_
  refine Keeps.seq (hread (by simp [Store.Loud])) fun checkpoints => ?_
  refine Keeps.seq (hread (by simp [Store.Loud])) fun substitutes => ?_
  refine Keeps.seq (hread (by simp [Store.Loud])) fun ledger => ?_
  refine Keeps.seq (hread (by simp [Store.Loud])) fun dag => ?_
  exact keeps_serveAll (hc _ _)

/-- The same when nothing else writes: what it read is the database it started from. -/
theorem sat_attemptSafeContinuity {db : σ → Db} (h : Solo g T db) (ids : List NodeId)
    (event : QuarantineEvent) (s : σ) (hframe : Frame T P I)
    (hc : ∀ s₁ : σ, T (.store (.getCriticalDependents ids)) s
        (.ok ((db s).getCriticalDependents ids)) s₁ →
      ContinuityCalls g T P I U (db s).snapshot event.detectedAtUtc
        ((db s).getCriticalDependents ids))
    (hI : I s) :
    Act.Sat T P (attemptSafeContinuity g ids event)
      (onOk (fun _ s' => I s') fun _ s' => I s') s := by
  unfold attemptSafeContinuity
  split
  · exact hI
  · rw [Act.sat_bind]
    intro r s₁ ht
    obtain ⟨hp₁, hI₁⟩ := hframe _ _ _ _ (by simp [Store.Loud]) hI ht
    refine ⟨hp₁, ?_⟩
    obtain ⟨rfl, hs₁⟩ := h.store ht
    have hc := hc s₁ ht
    change db s₁ = db s at hs₁
    change Act.Sat T P (if ((db s).getCriticalDependents ids).isEmpty = true then _ else _) _ s₁
    split
    · exact hI₁
    · refine h.read_keeps hframe (by simp [Store.Loud]) rfl hI₁ fun s₂ hI₂ hs₂ => ?_
      refine h.read_keeps hframe (by simp [Store.Loud]) rfl hI₂ fun s₃ hI₃ hs₃ => ?_
      refine h.read_keeps hframe (by simp [Store.Loud]) rfl hI₃ fun s₄ hI₄ hs₄ => ?_
      refine h.read_keeps hframe (by simp [Store.Loud]) rfl hI₄ fun s₅ hI₅ hs₅ => ?_
      have hsnap : (⟨(db s₁).checkpoints, (db s₂).substituteDeclarations, (db s₃).ledger,
          (db s₄).getDag⟩ : Snapshot) = (db s).snapshot := by
        rw [hs₄, hs₃, hs₂, hs₁]
        rfl
      rw [hsnap]
      refine (keeps_serveAll hc s₅ hI₅).mono ?_
      rintro (e | a) s' hs'
      · exact hs'
      · exact hs'.1

end GovernorGateway
