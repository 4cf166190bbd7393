/-
# Concurrent writes are serializable

`submit_candidate` touches the database in one `BEGIN IMMEDIATE` transaction, `declare_checkpoint`,
`declare_external_effect` and `calibrate_harness` in one call.  Whatever else happens in between, a
set of such requests leaves the database that SOME one-at-a-time run of them would have left, and
each of them answers as it does in that run.  The only way out of the order is SQLite's: a request
that waited for the write lock for too long answers "database is locked" and has done nothing.

So what is proved of runs of requests one at a time holds of these requests in every interleaving.
The last section draws one consequence: of any number of concurrent submissions under one id at most
one is told that it was committed.
-/
import GovernorGateway.Effects.Serial
import GovernorGateway.Concurrency.Scheduled
import GovernorGateway.Properties.Races
import Mathlib.Data.List.Pairwise

namespace GovernorGateway

open Effects

/-! ## 1. The shape of the handlers -/

/-- The requests with one atomic access. -/
def Request.Atomic : Request → Prop
  | .submitCandidate _ _ | .checkpoint _ _ | .declareExternalEffect _ _ _ _ | .calibrate _ _ => True
  | .contextCompacted _ | .designate _ _ | .detector _ _ _ | .observe _ _
  | .declareSubstitute _ _ _ _ | .seedRoot _ _ | .continuityExpose _ _ _ _ | .renewTrust _ _ => False

/-- What a call has to do with the database: the admission lock is no part of it. -/
def Call.serialKind : Call → Serial.Kind
  | .store _ => .access
  | .sync .begin => .opens
  | .sync .commit | .sync .rollback => .closes
  | .ext _ | .sync _ => .own
  | .getAdapterKey | .setAdapterKey _ => .other

/-- The call was given up when the busy timeout had passed. -/
def TurnedAway (c : Call) (r : Except Exc c.Res) : Prop := r = .error databaseLocked

section Shape

variable {g : Setup} {answers : Answers} {α β : Type}

/-- A handler over phases. -/
abbrev PhaseSat (g : Setup) (answers : Answers) (x : Handler α)
    (Q : Except Exc α → Serial.Phase → Prop) (ph : Serial.Phase) : Prop :=
  Act.Sat (Serial.PhaseStep Call.serialKind TurnedAway (Step g answers))
    (Serial.InPlace Call.serialKind) x Q ph

/-- Calls of the task's own leave its phase alone. -/
theorem phase_own {x : Handler α} (hx : x.Uses fun c => c.serialKind = .own) (ph : Serial.Phase) :
    PhaseSat g answers x (fun _ ph' => ph' = ph) ph := by
  refine Prog.Uses.sat (I := fun ph' : Serial.Phase => ph' = ph) hx ?_ rfl
  rintro c hc ph₁ r ph' hstep rfl
  have hnext : ph₁.next c.serialKind = some ph₁ := by
    rw [hc]
    rfl
  refine ⟨by rw [Serial.InPlace, hnext]; rfl, ?_⟩
  rcases hstep with ⟨ph₂, h₂, hcase⟩ | ⟨hnone, -⟩
  · rw [hnext] at h₂
    rcases hcase with ⟨rfl, -⟩ | ⟨-, hown, -⟩
    · exact (Option.some.inj h₂).symm
    · exact absurd hc hown
  · rw [hnext] at hnone
    exact absurd hnone (by simp)

/-- What may be called inside a transaction. -/
def Call.Level (c : Call) : Prop := c.serialKind = .own ∨ c.serialKind = .access

/-- Inside the transaction a task stays inside. -/
theorem phase_level {x : Handler α} (hx : x.Uses Call.Level) :
    PhaseSat g answers x (fun _ ph => ph = .within) .within := by
  refine Prog.Uses.sat (I := fun ph : Serial.Phase => ph = .within) hx ?_ rfl
  rintro c hc ph₁ r ph' hstep rfl
  have hnext : Serial.Phase.next c.serialKind .within = some .within := by
    rcases hc with hc | hc <;> rw [hc] <;> rfl
  refine ⟨by rw [Serial.InPlace, hnext]; rfl, ?_⟩
  rcases hstep with ⟨ph₂, h₂, hcase⟩ | ⟨hnone, -⟩
  · rw [hnext] at h₂
    rcases hcase with ⟨rfl, -⟩ | ⟨hbefore, -⟩
    · exact (Option.some.inj h₂).symm
    · exact absurd hbefore (by decide)
  · rw [hnext] at hnone
    exact absurd hnone (by simp)

/-- The first access of a task: served, or turned away. -/
theorem phase_first {c : Call} (ph₁ : Serial.Phase)
    (hnext : Serial.Phase.next c.serialKind .before = some ph₁) {Q : Except Exc c.Res → Serial.Phase → Prop}
    (hserved : ∀ r w w', Step g answers c w r w' → Q r ph₁)
    (hrefused : Q (.error databaseLocked) .refused) :
    PhaseSat g answers (Act.perform c) Q .before := by
  intro r ph' hstep
  refine ⟨by rw [Serial.InPlace, hnext]; rfl, ?_⟩
  rcases hstep with ⟨ph₂, h₂, hcase⟩ | ⟨hnone, -⟩
  · rw [hnext] at h₂
    obtain rfl := Option.some.inj h₂
    rcases hcase with ⟨rfl, w, w', hs⟩ | ⟨-, -, hr, rfl⟩
    · exact hserved r w w' hs
    · obtain rfl : r = .error databaseLocked := hr
      exact hrefused
  · rw [hnext] at hnone
    exact absurd hnone (by simp)

/-- The call that closes the transaction. -/
theorem phase_close {k : Sync} (hk : (Call.sync k).serialKind = .closes)
    {Q : Except Exc Unit → Serial.Phase → Prop} (hQ : Q (.ok ()) .after) :
    PhaseSat g answers (sync k) Q .within := by
  have hnext : Serial.Phase.next (Call.sync k).serialKind .within = some .after := by
    rw [hk]
    rfl
  intro r ph' hstep
  refine ⟨by rw [Serial.InPlace, hnext]; rfl, ?_⟩
  rcases hstep with ⟨ph₂, h₂, hcase⟩ | ⟨hnone, -⟩
  · rw [hnext] at h₂
    obtain rfl := Option.some.inj h₂
    rcases hcase with ⟨rfl, w, w', hr, -⟩ | ⟨hbefore, -⟩
    · obtain rfl : r = .ok () := hr
      exact hQ
    · exact absurd hbefore (by decide)
  · rw [hnext] at hnone
    exact absurd hnone (by simp)

/-- `async with backend.transaction():` is one access. -/
theorem phase_withTransaction {x : Handler α} (hx : x.Uses Call.Level)
    {Q : Except Exc α → Serial.Phase → Prop} (hafter : ∀ r, Q r .after)
    (hrefused : Q (.error databaseLocked) .refused) :
    PhaseSat g answers (withTransaction x) Q .before := by
  rw [withTransaction, PhaseSat, Act.sat_bind]
  refine phase_first .within rfl ?_ hrefused
  rintro r w w' ⟨rfl, -⟩
  change Act.Sat _ _ (Act.attempt _ >>= _) _ _
  rw [Act.sat_bind, Act.sat_attempt, Act.sat_bind]
  refine (phase_level hx).mono ?_
  rintro (e | a) ph rfl
  · change Act.Sat _ _ (sync .rollback >>= _) _ _
    rw [Act.sat_bind]
    exact phase_close rfl (hafter _)
  · change Act.Sat _ _ (sync .commit >>= _) _ _
    rw [Act.sat_bind]
    exact phase_close rfl (hafter _)

/-- `async with _admission_shared():` around it is not noticed. -/
theorem phase_withShared {x : Handler α} {Q : Except Exc α → Serial.Phase → Prop}
    {ph : Serial.Phase} (hx : PhaseSat g answers x Q ph) : PhaseSat g answers (withShared x) Q ph := by
  have hown : ∀ (k : Sync) (r : Except Exc Unit) (ph ph' : Serial.Phase),
      (Call.sync k).serialKind = .own →
      Serial.PhaseStep Call.serialKind TurnedAway (Step g answers) (.sync k) ph r ph' →
      Serial.InPlace (R := Call.Res) (E := Exc) Call.serialKind (.sync k) ph r ph' ∧ r = .ok () ∧
        ph' = ph := by
    intro k r ph ph' hk hstep
    have hnext : ph.next (Call.sync k).serialKind = some ph := by
      rw [hk]
      rfl
    refine ⟨by rw [Serial.InPlace, hnext]; rfl, ?_⟩
    rcases hstep with ⟨ph₂, h₂, hcase⟩ | ⟨hnone, -⟩
    · rw [hnext] at h₂
      rcases hcase with ⟨rfl, w, w', hr, -⟩ | ⟨-, hother, -⟩
      · exact ⟨hr, (Option.some.inj h₂).symm⟩
      · exact absurd hk hother
    · rw [hnext] at hnone
      exact absurd hnone (by simp)
  rw [withShared, PhaseSat, Act.sat_bind]
  intro r ph₁ hstep
  obtain ⟨hplace, rfl, rfl⟩ := hown _ _ _ _ rfl hstep
  refine ⟨hplace, ?_⟩
  change Act.Sat _ _ (x.always _) _ _
  rw [Act.sat_always]
  refine Act.Sat.mono hx ?_
  intro r ph₂ hQ r' ph₃ hstep'
  obtain ⟨hplace', rfl, rfl⟩ := hown _ _ _ _ rfl hstep'
  exact ⟨hplace', hQ⟩

/-- A question to the outside world concerns nobody else. -/
theorem Call.of_own : Call.Of (fun c => c.serialKind = .own) [.ext] := by
  intro c hc
  obtain ⟨e, rfl⟩ := Call.of_ext c hc
  rfl

theorem Call.of_level : Call.Of Call.Level submitKinds := by
  intro c hc
  cases c with
  | store c => exact Or.inr rfl
  | ext e => exact Or.inl rfl
  | sync k => cases k <;> exact absurd hc (by decide)
  | getAdapterKey => exact absurd hc (by decide)
  | setAdapterKey key => exact absurd hc (by simp [Call.kind])

/-- How a handler of this shape may end. -/
def Answered (r : Except Exc α) (ph : Serial.Phase) : Prop :=
  ph ≠ .within ∧ (ph = .refused → r = .error databaseLocked)

theorem answered_after (r : Except Exc α) : Answered r .after :=
  ⟨by decide, fun h => absurd h (by decide)⟩

theorem answered_before (r : Except Exc α) : Answered r .before :=
  ⟨by decide, fun h => absurd h (by decide)⟩

theorem answered_refused : Answered (.error databaseLocked : Except Exc α) .refused :=
  ⟨by decide, fun _ => rfl⟩

/-- Checks of its own in front of the access. -/
theorem phase_own_bind {x : Handler α} {f : α → Handler β}
    (hx : x.Uses fun c => c.serialKind = .own)
    (hf : ∀ a, PhaseSat g answers (f a) Answered .before) :
    PhaseSat g answers (x >>= f) Answered .before := by
  rw [PhaseSat, Act.sat_bind]
  refine (phase_own hx .before).mono ?_
  rintro (e | a) ph rfl
  · exact answered_before _
  · exact hf a

/-- A single call of the store is an access. -/
theorem phase_store_bind {c : Store} {f : c.Res → β} :
    PhaseSat g answers (store c >>= fun v => pure (f v)) Answered .before := by
  rw [PhaseSat, Act.sat_bind]
  refine phase_first .after rfl ?_ answered_refused
  rintro (e | v) w w' -
  · exact answered_after _
  · exact answered_after _

/-- **Each of these handlers has the shape**: its calls are its own but for one atomic access. -/
theorem follows_handle (g : Setup) (answers : Answers) (req : Request) (hreq : req.Atomic) :
    Serial.Follows Call.serialKind TurnedAway (Step g answers) (fun r => r = .error databaseLocked)
      (req.handle g).tree := by
  cases req with
  | submitCandidate bytes body =>
    exact phase_own_bind (uses_submitChecks g Call.of_own bytes body) fun out =>
      phase_withShared (phase_withTransaction (uses_submitLocked g Call.of_level _ _ _)
        answered_after answered_refused)
  | checkpoint header c =>
    exact phase_own_bind (uses_verifyRole g Call.of_own header "admin") fun _ => phase_store_bind
  | declareExternalEffect header key x type =>
    exact phase_own_bind (uses_verifyRole g Call.of_own header "admin") fun _ =>
      phase_own_bind (uses_ext Call.of_own _ rfl) fun _ => phase_store_bind
  | calibrate header r =>
    exact phase_own_bind (uses_verifyRole g Call.of_own header "admin") fun _ =>
      phase_own_bind (Act.uses_raiseIf _ _) fun _ => phase_store_bind
  | contextCompacted e => exact absurd hreq id
  | designate header e => exact absurd hreq id
  | detector header source raw => exact absurd hreq id
  | observe header e => exact absurd hreq id
  | declareSubstitute header target source declaredAt => exact absurd hreq id
  | seedRoot header rootId => exact absurd hreq id
  | continuityExpose header node status reason => exact absurd hreq id
  | renewTrust header x => exact absurd hreq id

end Shape

/-! ## 2. The database as a shared state -/

variable {ι : Type} [DecidableEq ι]

/-- What is committed, as the world of a request that is handled alone. -/
def Gateway.committed (s : Gateway ι) : World := { db := s.db, adapterKey := s.adapterKey }

/-- The task whose transaction is open, and the world it works on. -/
def Gateway.section_ (s : Gateway ι) : Option (ι × World) :=
  s.tx.map fun q => (q.1, { db := q.2, saved := some s.db, adapterKey := s.adapterKey })

/-- The calls of each kind. -/
theorem Call.eq_of_serialKind (c : Call) :
    (c.serialKind = .own → (∃ e, c = .ext e) ∨ ∃ k, c = .sync k ∧ c.NoTx) ∧
      (c.serialKind = .access → ∃ a, c = .store a) ∧
      (c.serialKind = .opens → c = .sync .begin) ∧
      (c.serialKind = .closes → c = .sync .commit ∨ c = .sync .rollback) := by
  cases c with
  | store a => simp [Call.serialKind]
  | ext e => simp [Call.serialKind]
  | getAdapterKey => simp [Call.serialKind]
  | setAdapterKey key => simp [Call.serialKind]
  | sync k => cases k <;> simp [Call.serialKind, Call.NoTx]

/-- A call of the lock changes nothing but the lock. -/
theorem taskStep_lock {g : Setup} {answers : Answers} {i : ι} {k : Sync} (hk : (Call.sync k).NoTx)
    {s s' : Gateway ι} {r : Except Exc Unit} (ht : TaskStep g answers i (.sync k) s r s') :
    r = .ok () ∧ (∃ l, s' = { s with lock := l }) ∧ ∀ w : World, w.sync k = w := by
  cases k with
  | begin => exact absurd hk id
  | commit => exact absurd hk id
  | rollback => exact absurd hk id
  | _ =>
    obtain ⟨l, -, rfl, rfl⟩ := ht
    exact ⟨rfl, ⟨l, rfl⟩, fun _ => rfl⟩

/-- **Transactions are sections.** -/
theorem sections_taskStep (g : Setup) (answers : Answers) :
    Serial.Sections Call.serialKind TurnedAway (Step g answers) (TaskStep (ι := ι) g answers)
      Gateway.committed Gateway.section_ where
  own := by
    intro i c s r s' hc ht
    rcases c.eq_of_serialKind.1 hc with ⟨e, rfl⟩ | ⟨k, rfl, hk⟩
    · obtain ⟨ha, rfl⟩ := ht
      exact ⟨rfl, rfl, fun w => ⟨ha, rfl⟩⟩
    · obtain ⟨rfl, ⟨l, rfl⟩, hw⟩ := taskStep_lock hk ht
      exact ⟨rfl, rfl, fun w => ⟨rfl, (hw w).symm⟩⟩
  alone := by
    intro i c s r s' hc hfree ht
    obtain ⟨a, rfl⟩ := c.eq_of_serialKind.2.1 hc
    cases htx : s.tx with
    | none =>
      simp only [TaskStep, htx] at ht
      obtain ⟨rfl, rfl⟩ := ht
      refine ⟨by simp [Gateway.section_, htx], fun hopen => ?_, Or.inl ⟨rfl, rfl⟩⟩
      exact absurd (by simp [Gateway.section_, htx]) hopen
    | some q =>
      obtain ⟨j, d⟩ := q
      have hj : j ≠ i := by
        rintro rfl
        exact hfree { db := d, saved := some s.db, adapterKey := s.adapterKey }
          (by rw [Gateway.section_, htx, Option.map_some])
      simp only [TaskStep, htx, if_neg hj] at ht
      -- another task's transaction is open: what would change the database does not run
      obtain ⟨rfl, ⟨rfl, hsame⟩ | ⟨-, rfl⟩⟩ := ht
      · refine ⟨rfl, fun _ => rfl, Or.inl ⟨rfl, ?_⟩⟩
        simp only [Gateway.committed, hsame]
      · exact ⟨rfl, fun _ => rfl, Or.inr ⟨rfl, rfl⟩⟩
  within := by
    intro i c s r s' w hc hw ht
    obtain ⟨a, rfl⟩ := c.eq_of_serialKind.2.1 hc
    obtain ⟨⟨j, d⟩, htx, heq⟩ := Option.map_eq_some_iff.mp hw
    obtain ⟨rfl, rfl⟩ := Prod.mk.inj heq
    simp only [TaskStep, htx, if_true] at ht
    obtain ⟨rfl, rfl⟩ := ht
    exact ⟨rfl, _, rfl, rfl, rfl⟩
  opens := by
    intro i c s r s' hc hfree ht
    obtain rfl := c.eq_of_serialKind.2.2.1 hc
    rcases ht with ⟨htx, rfl, rfl⟩ | ⟨-, rfl, rfl⟩
    · exact ⟨rfl, Or.inl ⟨by simp [Gateway.section_, htx], _, rfl, rfl, rfl⟩⟩
    · exact ⟨rfl, Or.inr ⟨rfl, rfl⟩⟩
  closes := by
    intro i c s r s' w hc hw ht
    obtain ⟨⟨j, d⟩, htx, heq⟩ := Option.map_eq_some_iff.mp hw
    obtain ⟨rfl, rfl⟩ := Prod.mk.inj heq
    rcases c.eq_of_serialKind.2.2.2 hc with rfl | rfl
    · obtain ⟨d', htx', rfl, rfl⟩ := ht
      rw [htx] at htx'
      obtain ⟨-, rfl⟩ := Prod.mk.inj (Option.some.inj htx')
      exact ⟨rfl, rfl, rfl⟩
    · obtain ⟨d', -, rfl, rfl⟩ := ht
      exact ⟨rfl, rfl, rfl⟩

/-! ## 3. Serializability -/

omit [DecidableEq ι] in
/-- An order of tasks is a run of their requests. -/
theorem run_of_ordered {g : Setup} {answers : Answers} {req : ι → Request}
    {out : ι → Except Exc Response} {cur : ι → Prog Call Call.Res Exc (Except Exc Response)}
    {w w' : World} {order : List ι}
    (h : Serial.Ordered (Step g answers) (fun i => ((req i).handle g).tree) cur w order w')
    (hcur : ∀ i ∈ order, cur i = .ret (out i)) :
    ∃ hs, Run g (Step g answers) w hs w' ∧
      hs.map (fun k => (k.request, k.outcome)) = order.map fun i => (req i, out i) := by
  induction h with
  | nil => exact ⟨[], .nil w, rfl⟩
  | @snoc is i w₁ w₂ _ hruns ih =>
    obtain ⟨hs, hrun, hmap⟩ := ih fun j hj => hcur j (List.mem_append_left _ hj)
    rw [hcur i (List.mem_append_right _ (List.mem_singleton.mpr rfl))] at hruns
    obtain ⟨tr, hexec⟩ := hruns.exec
    refine ⟨hs ++ [⟨req i, tr, out i, w₂⟩], hrun.snoc hexec, ?_⟩
    rw [List.map_append, List.map_append, hmap]
    rfl

/-- **Concurrent writes are serializable.** -/
theorem writes_serializable [Fintype ι] {g : Setup} {answers : Answers} {req : ι → Request}
    (hreq : ∀ i, (req i).Atomic) {s : Gateway ι} (htx : s.tx = none)
    {p : Pool ι Call Call.Res Exc (Gateway ι) (Except Exc Response)}
    (hrun : Relation.ReflTransGen (Pool.Step (TaskStep g answers)) (s.serve g req) p)
    {out : ι → Except Exc Response} (hdone : ∀ i, p.Finished i (out i)) :
    ∃ (order : List ι) (hs : List Handled), order.Nodup ∧
      Run g (Step g answers) s.committed hs p.state.committed ∧
      hs.map (fun k => (k.request, k.outcome)) = order.map (fun i => (req i, out i)) ∧
      ∀ i, i ∉ order → out i = .error databaseLocked := by
  obtain ⟨order, hnodup, hordered, hleft⟩ := Serial.exists_order (sections_taskStep g answers)
    (fun i => follows_handle g answers (req i) (hreq i)) (by simp [Gateway.section_, htx]) hrun hdone
  obtain ⟨hs, hruns, hmap⟩ := run_of_ordered hordered fun i _ => hdone i
  exact ⟨order, hs, hnodup, hruns, hmap, hleft⟩

/-- Two submissions under one id, and a checkpoint. -/
def duelRequests (i : Fin 3) : Request :=
  match i with
  | 0 => openSubmission "node-1" ["clean-parent-1"]
  | 1 => openSubmission "node-1" ["clean-parent-1"]
  | 2 => openCheckpoint "clean-parent-1"

/-- The first submission stops inside its transaction; the others come as far as they can. -/
def duelTurns : List (Fin 3 × (Call → Bool)) :=
  [(0, fun c => c.kind = .commit .admission), (1, fun _ => false), (2, fun _ => false),
    (0, fun _ => false), (2, fun _ => false), (1, fun _ => false)]

def duelStart : Gateway (Fin 3) := { db := ({} : Db).reset openSetup.env.sha256 }

def duelEnd : Pool (Fin 3) Call Call.Res Exc (Gateway (Fin 3)) (Except Exc Response) :=
  Pool.schedule (fun i => (openScript (toString i.val)).taskStep openSetup i) duelTurns
    (duelStart.serve openSetup duelRequests)

/-- The first submission is committed, the second is a duplicate. -/
def duelOut (i : Fin 3) : Except Exc Response :=
  match i with
  | 0 => .ok { reply := .committed false }
  | 1 => .ok { reply := .committed true }
  | 2 => .ok { reply := .success "Checkpoint declared" }

theorem duel_run : Relation.ReflTransGen (Pool.Step (TaskStep openSetup Answers.lawful))
    (duelStart.serve openSetup duelRequests) duelEnd := by
  unfold duelEnd
  exact Script.schedule_run _ openSetup duelTurns (duelStart.serve openSetup duelRequests)

theorem duel_finished (i : Fin 3) : duelEnd.Finished i (duelOut i) := by
  have hresult : ∀ i, (duelEnd.prog i).result? = some (duelOut i) := by decide +kernel
  exact Pool.finished_of_result (hresult i)

theorem duel_atomic (i : Fin 3) : (duelRequests i).Atomic := by
  rcases i with ⟨_ | _ | _ | n, hi⟩
  · trivial
  · trivial
  · trivial
  · omega

theorem writes_serializable_duel : duelEnd.state.db.nodeIds = ["clean-parent-1", "node-1"] ∧
    ∃ (order : List (Fin 3)) (hs : List Handled), order.Nodup ∧
      Run openSetup (Step openSetup Answers.lawful) duelStart.committed hs duelEnd.state.committed ∧
      hs.map (fun k => (k.request, k.outcome)) = order.map (fun i => (duelRequests i, duelOut i)) ∧
      ∀ i, i ∉ order → duelOut i = .error databaseLocked :=
  ⟨by decide +kernel, writes_serializable duel_atomic rfl duel_run duel_finished⟩

/-! ## 4. Acknowledged once, and durably -/

/-- What a request of a run has to do with the nodes that are stored after it. -/
structure Accounts (g : Setup) (w : World) (k : Handled) : Prop where
  kept : ∀ n ∈ w.lin.nodes, n ∈ k.after.lin.nodes
  new : ∀ p, k.request.Submits g p → k.outcome = .ok { reply := .committed false } →
    p.payloadId ∉ w.lin.nodeIds ∧
      ∃ gap, Lineage.nodeRow g.env.sha256 { p with coversIntervalGap := gap } ∈ k.after.lin.nodes
  answered : ∀ n ∈ k.after.lin.nodes, n ∉ w.lin.nodes → ∃ p a, k.request.Submits g p ∧
    n.nodeId = p.payloadId ∧ k.outcome = .ok a ∧ (a.Admits ∨ a.Rejects)

/-- A request that leaves the lineage alone, and was not told that it has committed. -/
theorem Accounts.of_same {g : Setup} {w : World} {k : Handled} (hlin : k.after.lin = w.lin)
    (hout : ∀ p, k.request.Submits g p → k.outcome ≠ .ok { reply := .committed false }) :
    Accounts g w k where
  kept := fun n hn => by rwa [hlin]
  new := fun p hp h => absurd h (hout p hp)
  answered := fun n hn hnot => by
    rw [hlin] at hn
    exact absurd hn hnot

variable {g : Setup} {answers : Answers}

/-- **The step lemma**: every request accounts for the nodes it stores. -/
theorem accounts_of_exec (hlaw : answers.Lawful) (hmode : g.settings.enforcementMode = .enforce)
    {w : World} {k : Handled} (hk : k.request.Atomic)
    (hexec : Exec (Step g answers) (k.request.handle g).tree w k.trace k.outcome k.after) :
    Accounts g w k := by
  have hexec : Exec (restrict (Step g answers) Trans.any) (k.request.handle g).tree w k.trace
      k.outcome k.after := hexec.mono fun _ _ _ _ ht => ⟨ht, trivial⟩
  obtain ⟨request, trace, outcome, after⟩ := k
  have hquiet : request.Quiet → (∀ p, ¬ request.Submits g p) →
      Accounts g w ⟨request, trace, outcome, after⟩ := by
    intro hq hnone
    have hsame := (Prog.Sat.sound ((acts_step hlaw Trans.any).sat_quiet (P := Trans.any)
      (fun _ _ _ _ _ => trivial) (quiet_handle g request hq) w) hexec).2
    exact .of_same hsame fun p hp => absurd hp (hnone p)
  cases request with
  | submitCandidate bytes body =>
    have hsat : Act.Sat (restrict (Step g answers) Trans.any) Trans.any (submitCandidate g bytes body)
        (onOk (fun a w' => ∃ p, parseSubmission g bytes body = .ok p ∧
            SubmitOutcome (fun _ _ _ => True) g.env.sha256 p w.lin a w'.lin)
          fun _ w' => w'.lin = w.lin) w := by
      refine sat_submission (fun _ _ _ _ => trivial) (fun _ _ _ _ => trivial) bytes body
        (fun _ _ => rfl) fun p auth decisionId hparse => ?_
      refine (sat_submitLocked (P := Trans.any) (K := fun _ _ _ => True) (acts_step hlaw Trans.any)
        hmode p auth decisionId { w with saved := some w.db }
        ⟨fun _ _ _ _ _ => trivial, fun _ _ _ _ _ _ => ⟨trivial, trivial⟩,
          fun _ _ _ _ _ _ => trivial, fun _ _ _ _ _ _ _ _ _ _ _ => ⟨trivial, trivial⟩⟩).mono ?_
      rintro (e | a) w' h'
      · rfl
      · exact ⟨p, hparse, h'⟩
    have hpost := (Prog.Sat.sound hsat hexec).2
    cases outcome with
    | error e => exact .of_same hpost fun _ _ => by simp
    | ok a =>
      obtain ⟨p, hparse, hout⟩ := hpost
      have hsubmits : ∀ q, parseSubmission g bytes body = .ok q → q = p := by
        intro q hq
        rw [hparse] at hq
        exact (Except.ok.inj hq).symm
      generalize hL : w.lin = L at hout
      generalize hL' : after.lin = L' at hout
      cases hout with
      | refused ha hclean =>
        refine .of_same (by rw [hL, hL']) fun q _ h => ha (Or.inl (Except.ok.inj h))
      | admitted gap hid hparents hcovers hhashes hK =>
        refine ⟨fun n hn => ?_, fun q hq h => ?_, fun n hn hnot => ?_⟩
        · rw [hL] at hn
          rw [hL']
          exact Lineage.mem_nodes_commitNode.mpr (Or.inl hn)
        · obtain rfl := hsubmits q hq
          have hnew : q.payloadId ∉ L.nodeIds := by
            intro hmem
            rw [Lineage.commitNode_of_mem (by exact hmem)] at h
            exact absurd h (by simp)
          rw [hL, hL']
          exact ⟨hnew, gap, Lineage.mem_nodes_commitNode.mpr (Or.inr ⟨rfl, hnew⟩)⟩
        · rw [hL'] at hn
          rw [hL] at hnot
          rcases Lineage.mem_nodes_commitNode.mp hn with hn | ⟨rfl, hfresh⟩
          · exact absurd hn hnot
          · refine ⟨p, _, hparse, rfl, rfl, Or.inl ?_⟩
            rw [Response.Admits, Lineage.commitNode, if_neg hfresh]
            rfl
      | rejected gap ha hid htainted hcovers hK =>
        refine ⟨fun n hn => ?_, fun q hq h => ?_, fun n hn hnot => ?_⟩
        · rw [hL] at hn
          rw [hL']
          exact Lineage.mem_nodes_commitNode.mpr (Or.inl hn)
        · obtain ⟨event, replacement, rfl⟩ := ha
          exact absurd h (by simp)
        · rw [hL'] at hn
          rw [hL] at hnot
          rcases Lineage.mem_nodes_commitNode.mp hn with hn | ⟨rfl, hfresh⟩
          · exact absurd hn hnot
          · exact ⟨p, a, hparse, rfl, rfl, Or.inr ha⟩
  | checkpoint header c => exact hquiet trivial fun _ h => h
  | declareExternalEffect header key x type => exact hquiet trivial fun _ h => h
  | calibrate header r => exact hquiet trivial fun _ h => h
  | contextCompacted e => exact absurd hk id
  | designate header e => exact absurd hk id
  | detector header source raw => exact absurd hk id
  | observe header e => exact absurd hk id
  | declareSubstitute header target source declaredAt => exact absurd hk id
  | seedRoot header rootId => exact absurd hk id
  | continuityExpose header node status reason => exact absurd hk id
  | renewTrust header x => exact absurd hk id

/-- The two answers, taken as a task's request and what it was told, are not both "committed" under
one id. -/
def NotBothNew (g : Setup) (a b : Request × Except Exc Response) : Prop :=
  ∀ p q, a.1.Submits g p → b.1.Submits g q → p.payloadId = q.payloadId →
    a.2 = .ok { reply := .committed false } → b.2 ≠ .ok { reply := .committed false }

/-- **The run lemma.** -/
theorem accounts_of_run (hlaw : answers.Lawful) (hmode : g.settings.enforcementMode = .enforce)
    {w w' : World} {hs : List Handled} (hrun : Run g (Step g answers) w hs w')
    (hatomic : ∀ k ∈ hs, k.request.Atomic) :
    (∀ n ∈ w.lin.nodes, n ∈ w'.lin.nodes) ∧
      (∀ k ∈ hs, ∀ p, k.request.Submits g p → k.outcome = .ok { reply := .committed false } →
        p.payloadId ∉ w.lin.nodeIds ∧
          ∃ gap, Lineage.nodeRow g.env.sha256 { p with coversIntervalGap := gap } ∈ w'.lin.nodes) ∧
      (∀ n ∈ w'.lin.nodes, n ∉ w.lin.nodes → ∃ k ∈ hs, ∃ p a, k.request.Submits g p ∧
        n.nodeId = p.payloadId ∧ k.outcome = .ok a ∧ (a.Admits ∨ a.Rejects)) ∧
      (hs.map fun k => (k.request, k.outcome)).Pairwise (NotBothNew g) := by
  induction hrun with
  | nil w => exact ⟨fun _ h => h, by simp, fun n hn hnot => absurd hn hnot, List.Pairwise.nil⟩
  | @cons k w w' hs hexec _ ih =>
    have hk := accounts_of_exec hlaw hmode (hatomic k List.mem_cons_self) hexec
    obtain ⟨hkept, hnew, hanswered, hpairs⟩ :=
      ih fun j hj => hatomic j (List.mem_cons_of_mem _ hj)
    have hids : ∀ x, x ∈ w.lin.nodeIds → x ∈ k.after.lin.nodeIds := by
      intro x hx
      obtain ⟨n, hn, rfl⟩ := Lineage.mem_nodeIds.mp hx
      exact Lineage.mem_nodeIds.mpr ⟨n, hk.kept n hn, rfl⟩
    refine ⟨fun n hn => hkept n (hk.kept n hn), ?_, ?_, ?_⟩
    · intro j hj p hp hout
      rcases List.mem_cons.mp hj with rfl | hj
      · obtain ⟨hfresh, gap, hmem⟩ := hk.new p hp hout
        exact ⟨hfresh, gap, hkept _ hmem⟩
      · obtain ⟨hfresh, gap, hmem⟩ := hnew j hj p hp hout
        exact ⟨fun hmem' => hfresh (hids _ hmem'), gap, hmem⟩
    · intro n hn hnot
      by_cases hmid : n ∈ k.after.lin.nodes
      · obtain ⟨p, a, h⟩ := hk.answered n hmid hnot
        exact ⟨k, List.mem_cons_self, p, a, h⟩
      · obtain ⟨j, hj, p, a, h⟩ := hanswered n hn hmid
        exact ⟨j, List.mem_cons_of_mem _ hj, p, a, h⟩
    · rw [List.map_cons, List.pairwise_cons]
      refine ⟨fun b hb p q hp hq hpq hout hout' => ?_, hpairs⟩
      obtain ⟨j, hj, rfl⟩ := List.mem_map.mp hb
      -- the id is stored since the first of the two
      obtain ⟨-, gap, hmem⟩ := hk.new p hp hout
      refine (hnew j hj q hq hout').1 ?_
      rw [← hpq]
      exact Lineage.mem_nodeIds.mpr ⟨_, hmem, rfl⟩

/-- **Acknowledged once, and durably.** -/
theorem committed_once [Fintype ι] (hlaw : answers.Lawful)
    (hmode : g.settings.enforcementMode = .enforce) {req : ι → Request}
    (hreq : ∀ i, (req i).Atomic) {s : Gateway ι} (htx : s.tx = none)
    {pool : Pool ι Call Call.Res Exc (Gateway ι) (Except Exc Response)}
    (hrun : Relation.ReflTransGen (Pool.Step (TaskStep g answers)) (s.serve g req) pool)
    {out : ι → Except Exc Response} (hdone : ∀ i, pool.Finished i (out i)) :
    (∀ i p, (req i).Submits g p → out i = .ok { reply := .committed false } →
      p.payloadId ∉ s.db.nodeIds ∧ ∃ gap,
        Lineage.nodeRow g.env.sha256 { p with coversIntervalGap := gap } ∈ pool.state.db.nodes) ∧
    (∀ i j p q, (req i).Submits g p → (req j).Submits g q → p.payloadId = q.payloadId →
      out i = .ok { reply := .committed false } → out j = .ok { reply := .committed false } → i = j) ∧
    (∀ n ∈ pool.state.db.nodes, n ∉ s.db.nodes → ∃ i p a, (req i).Submits g p ∧
      n.nodeId = p.payloadId ∧ out i = .ok a ∧ (a.Admits ∨ a.Rejects)) := by
  obtain ⟨order, hnodup, hordered, hleft⟩ := Serial.exists_order (sections_taskStep g answers)
    (fun i => follows_handle g answers (req i) (hreq i)) (by simp [Gateway.section_, htx]) hrun hdone
  obtain ⟨hs, hruns, hmap⟩ := run_of_ordered hordered fun i _ => hdone i
  have hatomic : ∀ k ∈ hs, k.request.Atomic := by
    intro k hk
    have hmem := List.mem_map_of_mem (f := fun k : Handled => (k.request, k.outcome)) hk
    rw [hmap] at hmem
    obtain ⟨i, -, heq⟩ := List.mem_map.mp hmem
    rw [← (Prod.mk.inj heq).1]
    exact hreq i
  obtain ⟨-, hnew, hanswered, hpairs⟩ := accounts_of_run hlaw hmode hruns hatomic
  have hserved : ∀ i a, out i = .ok a → i ∈ order := by
    intro i a hi
    by_contra hnot
    rw [hleft i hnot] at hi
    exact absurd hi (by simp)
  have hhandled : ∀ i ∈ order, ∃ k ∈ hs, k.request = req i ∧ k.outcome = out i := by
    intro i hi
    have hmem := List.mem_map_of_mem (f := fun i => (req i, out i)) hi
    rw [← hmap] at hmem
    obtain ⟨k, hk, heq⟩ := List.mem_map.mp hmem
    exact ⟨k, hk, (Prod.mk.inj heq).1, (Prod.mk.inj heq).2⟩
  refine ⟨fun i p hp hi => ?_, fun i j p q hp hq hpq hi hj => ?_, fun n hn hnot => ?_⟩
  · obtain ⟨k, hk, hkreq, hkout⟩ := hhandled i (hserved i _ hi)
    exact hnew k hk p (by rwa [hkreq]) (by rwa [hkout])
  · rw [hmap, List.pairwise_map] at hpairs
    by_contra hij
    have : Std.Symm fun i j => NotBothNew g (req i, out i) (req j, out j) :=
      ⟨fun i j h p q hp hq hpq hi hj => h q p hq hp hpq.symm hj hi⟩
    exact hpairs.forall (hserved i _ hi) (hserved j _ hj) hij p q hp hq hpq hi hj
  · obtain ⟨k, hk, p, a, hp, hid, hout, ha⟩ := hanswered n hn hnot
    have hmem := List.mem_map_of_mem (f := fun k : Handled => (k.request, k.outcome)) hk
    rw [hmap] at hmem
    obtain ⟨i, -, heq⟩ := List.mem_map.mp hmem
    obtain ⟨hreqi, houti⟩ := Prod.mk.inj heq
    exact ⟨i, p, a, by rwa [hreqi], hid, by rwa [houti], ha⟩

/-- Both submissions are told about the same node, one of them that it is new. -/
theorem committed_once_duel :
    (∃ gap, Lineage.nodeRow openSetup.env.sha256
        { openPayload "agent" "node-1" ["clean-parent-1"] with coversIntervalGap := gap } ∈
      duelEnd.state.db.nodes) ∧
    ¬ (duelOut 0 = .ok { reply := .committed false } ∧ duelOut 1 = .ok { reply := .committed false }) := by
  have hsubmits : ∀ i : Fin 3, i ≠ 2 →
      (duelRequests i).Submits openSetup (openPayload "agent" "node-1" ["clean-parent-1"]) := by
    intro i hi
    rcases i with ⟨_ | _ | _ | n, hlt⟩
    · rfl
    · rfl
    · exact absurd rfl hi
    · omega
  obtain ⟨hnew, honce, -⟩ := committed_once (fun _ _ h => h) rfl duel_atomic rfl duel_run duel_finished
  refine ⟨(hnew 0 _ (hsubmits 0 (by decide)) rfl).2, fun h => ?_⟩
  have hsame := honce 0 1 _ _ (hsubmits 0 (by decide)) (hsubmits 1 (by decide)) rfl h.1 h.2
  exact absurd hsame (by decide)

end GovernorGateway
