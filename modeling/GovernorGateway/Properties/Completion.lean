/-
# Rejections, offers and completions

`tainted_rejections` is what the completion metric is computed from.  An offer and a completion are
UPDATEs by `node_id`, so they reach the right row only as long as no id is rejected twice.  That
rests on the lineage: a rejection puts its id into the ledger, which never forgets, and a submission
under a quarantined id is refused (`Tracked.reject`).

`check_retry_completion` compares identities when `retry_of` names the rejected node, but takes an
EMPTY `retry_of` for none: a rejection under the id `""` can be completed in another's name
(`completion_unverified`).  Apart from that a completed row is what it should be
(`completion_of_run`).
-/
import GovernorGateway.Semantics.Stable
import GovernorGateway.Semantics.Scripted

namespace GovernorGateway

open Effects

/-! ## 1. The rows -/

namespace TaintedRejection

/-- The write of `p` took up the offer of the row, and in the name of its author if it says that it
retries it. -/
structure CompletedBy (row : TaintedRejection) (p : Payload) : Prop where
  offered : row.offered = true
  by_ : row.completedBy = some p.payloadId
  parent : ∃ x ∈ p.parentIds, row.offeredReplacement = some x
  author : p.retryOf = some row.nodeId → row.nodeId ≠ "" → row.authorIdentity ≠ "" →
    p.identityId = some row.authorIdentity

/-- What `check_retry_completion` does to one row. -/
def settle (p : Payload) (r : TaintedRejection) : TaintedRejection :=
  if r.offered = true ∧ r.completed = false ∧ Db.retryCompletes p r = true then
    { r with completed := true, completedBy := some p.payloadId }
  else r

/-- What `record_tainted_offer` does to one row. -/
def offer (x replacement : NodeId) (type : ReplacementType) (r : TaintedRejection) :
    TaintedRejection :=
  if r.nodeId = x ∧ !r.offered then
    { r with offered := true, offeredReplacement := some replacement, replacementType := some type }
  else r

variable {p : Payload} {r : TaintedRejection} {x replacement : NodeId} {type : ReplacementType}

@[simp] theorem settle_nodeId : (settle p r).nodeId = r.nodeId := by
  unfold settle
  split <;> rfl

@[simp] theorem offer_nodeId : (offer x replacement type r).nodeId = r.nodeId := by
  unfold offer
  split <;> rfl

/-- A completed row stays as it is; a row that is completed now is completed by `p`. -/
theorem settle_completed (h : (settle p r).completed = true) :
    (settle p r = r ∧ r.completed = true) ∨ (settle p r).CompletedBy p := by
  by_cases hr : r.offered = true ∧ r.completed = false ∧ Db.retryCompletes p r = true
  · refine Or.inr ?_
    rw [settle, if_pos hr]
    obtain ⟨hoffered, -, hmatch⟩ := hr
    simp only [Db.retryCompletes, Bool.and_eq_true, decide_eq_true_eq, Bool.not_eq_true',
      Bool.and_eq_false_iff, decide_eq_false_iff_not] at hmatch
    obtain ⟨⟨hne, hparent⟩, hidentity⟩ := hmatch
    refine ⟨hoffered, rfl, ?_, ?_⟩
    · cases hreplacement : r.offeredReplacement with
      | none =>
        rw [hreplacement] at hne
        exact absurd rfl hne
      | some x =>
        rw [hreplacement] at hparent
        exact ⟨x, hparent, rfl⟩
    · intro hretry hid hauthor
      rcases hidentity with ((h | h) | h) | h
      · exact absurd hretry h
      · exact absurd hid h
      · exact absurd hauthor h
      · cases hidentity : p.identityId with
        | none =>
          rw [hidentity] at h
          exact absurd (not_not.mp h).symm hauthor
        | some y =>
          rw [hidentity] at h
          exact congrArg some (not_not.mp h)
  · rw [settle, if_neg hr] at h ⊢
    exact Or.inl ⟨rfl, h⟩

/-- An offer does not touch a row that was offered, and completes none. -/
theorem offer_completed (h : (offer x replacement type r).completed = true)
    (hr : r.completed = true → r.offered = true) :
    offer x replacement type r = r ∧ r.completed = true := by
  by_cases hx : r.nodeId = x ∧ !r.offered
  · rw [offer, if_pos hx] at h
    have hoffered := hr h
    rw [hoffered] at hx
    exact absurd hx.2 (by simp)
  · rw [offer, if_neg hx] at h ⊢
    exact ⟨rfl, h⟩

end TaintedRejection

/-- The UPDATEs one after the other: a row is completed if its id is among the ids. -/
theorem foldl_complete (p : Payload) (done rows : List TaintedRejection) :
    done.foldl (fun rows d => rows.map fun r : TaintedRejection =>
        if r.nodeId = d.nodeId ∧ !r.completed then
          { r with completed := true, completedBy := some p.payloadId }
        else r) rows =
      rows.map fun r : TaintedRejection =>
        if r.nodeId ∈ done.map TaintedRejection.nodeId ∧ !r.completed then
          { r with completed := true, completedBy := some p.payloadId }
        else r := by
  induction done generalizing rows with
  | nil => simp
  | cons d done ih =>
    rw [List.foldl_cons, ih, List.map_map]
    refine List.map_congr_left fun r _ => ?_
    rw [Function.comp_apply, List.map_cons]
    by_cases hd : r.nodeId = d.nodeId ∧ !r.completed
    · rw [if_pos hd, if_neg (by simp), if_pos ⟨List.mem_cons.mpr (Or.inl hd.1), hd.2⟩]
    · rw [if_neg hd]
      refine if_congr ?_ rfl rfl
      rw [List.mem_cons]
      constructor
      · exact fun h => ⟨Or.inr h.1, h.2⟩
      · rintro ⟨h | h, hc⟩
        · exact absurd ⟨h, hc⟩ hd
        · exact ⟨h, hc⟩

/-- When every id has one row, `check_retry_completion` looks at each row for itself. -/
theorem Db.taintedRejections_checkRetryCompletion (db : Db) (p : Payload)
    (hnodup : (db.taintedRejections.map TaintedRejection.nodeId).Nodup) :
    (db.checkRetryCompletion p).taintedRejections =
      db.taintedRejections.map (TaintedRejection.settle p) := by
  rw [Db.checkRetryCompletion]
  refine (foldl_complete p _ _).trans ?_
  refine List.map_congr_left fun r hr => ?_
  rw [TaintedRejection.settle]
  refine if_congr ?_ rfl rfl
  simp only [List.mem_map, List.mem_filter, Bool.and_eq_true, Bool.not_eq_true']
  constructor
  · rintro ⟨⟨d, ⟨⟨hd, hoffered, -⟩, hmatch⟩, hid⟩, hcompleted⟩
    obtain rfl := List.inj_on_of_nodup_map hnodup hd hr hid
    exact ⟨hoffered, hcompleted, hmatch⟩
  · rintro ⟨hoffered, hcompleted, hmatch⟩
    exact ⟨⟨r, ⟨⟨hr, hoffered, hcompleted⟩, hmatch⟩, rfl⟩, hcompleted⟩

/-! ## 2. What is tracked -/

/-- The payload is stored; a compaction got its interval gap before. -/
def Lineage.Stores (L : Lineage) (p : Payload) : Prop :=
  ∃ n ∈ L.nodes, ∃ gap, n.payload = { p with coversIntervalGap := gap }

/-- No id was rejected twice, and a completed row was completed by the write of an admitted
payload; `A` are the payloads that were admitted. -/
structure Tracked (A : Payload → Prop) (db : Db) : Prop where
  nodup : (db.taintedRejections.map TaintedRejection.nodeId).Nodup
  quarantined : ∀ row ∈ db.taintedRejections, row.nodeId ∈ db.ledger
  completed : ∀ row ∈ db.taintedRejections, row.completed = true →
    ∃ p, A p ∧ db.Stores p ∧ row.CompletedBy p

namespace Tracked

variable {A B : Payload → Prop} {db db' : Db} {p : Payload}

/-- The lineage has grown, the rows are the same. -/
theorem grow (h : Tracked A db) (hrows : db'.taintedRejections = db.taintedRejections)
    (hnodes : ∀ n ∈ db.nodes, n ∈ db'.nodes) (hledger : ∀ x ∈ db.ledger, x ∈ db'.ledger)
    (hA : ∀ p, A p → B p) : Tracked B db' := by
  refine ⟨by rw [hrows]; exact h.nodup, ?_, ?_⟩
  · intro row hrow
    rw [hrows] at hrow
    exact hledger _ (h.quarantined row hrow)
  · intro row hrow hcompleted
    rw [hrows] at hrow
    obtain ⟨p, hp, ⟨n, hn, hpayload⟩, hby⟩ := h.completed row hrow hcompleted
    exact ⟨p, hA p hp, ⟨n, hnodes n hn, hpayload⟩, hby⟩

/-- A completed row was offered. -/
theorem offered (h : Tracked A db) {row : TaintedRejection} (hrow : row ∈ db.taintedRejections)
    (hcompleted : row.completed = true) : row.offered = true := by
  obtain ⟨p, -, -, hby⟩ := h.completed row hrow hcompleted
  exact hby.offered

/-- A rejection under an id that was not quarantined, and is now. -/
theorem reject (h : Tracked A db) {row : TaintedRejection} (hnew : row.nodeId ∉
    db.taintedRejections.map TaintedRejection.nodeId) (hledger : row.nodeId ∈ db.ledger)
    (hcompleted : row.completed = false) :
    Tracked A { db with taintedRejections := db.taintedRejections ++ [row] } := by
  refine ⟨?_, ?_, ?_⟩
  · rw [List.map_append, List.map_singleton]
    exact h.nodup.append (List.nodup_singleton _) (List.disjoint_singleton.mpr hnew)
  · intro r hr
    rcases List.mem_append.mp hr with hr | hr
    · exact h.quarantined r hr
    · rw [List.mem_singleton.mp hr]
      exact hledger
  · intro r hr hc
    rcases List.mem_append.mp hr with hr | hr
    · exact h.completed r hr hc
    · rw [List.mem_singleton.mp hr, hcompleted] at hc
      exact absurd hc (by simp)

/-- A function of single rows that keeps the ids. -/
theorem map (h : Tracked A db) {f : TaintedRejection → TaintedRejection}
    (hid : ∀ row, (f row).nodeId = row.nodeId)
    (hf : ∀ row ∈ db.taintedRejections, (f row).completed = true →
      (f row = row ∧ row.completed = true) ∨ ∃ p, B p ∧ db.Stores p ∧ (f row).CompletedBy p)
    (hA : ∀ p, A p → B p) :
    Tracked B { db with taintedRejections := db.taintedRejections.map f } := by
  refine ⟨?_, ?_, ?_⟩
  · change ((db.taintedRejections.map f).map TaintedRejection.nodeId).Nodup
    rw [List.map_map, show TaintedRejection.nodeId ∘ f = TaintedRejection.nodeId from funext hid]
    exact h.nodup
  · intro r hr
    obtain ⟨row, hrow, rfl⟩ := List.mem_map.mp hr
    rw [hid]
    exact h.quarantined row hrow
  · intro r hr hc
    obtain ⟨row, hrow, rfl⟩ := List.mem_map.mp hr
    rcases hf row hrow hc with ⟨heq, hcompleted⟩ | hnew
    · rw [heq]
      obtain ⟨p, hp, hstored, hby⟩ := h.completed row hrow hcompleted
      exact ⟨p, hA p hp, hstored, hby⟩
    · exact hnew

theorem offer (h : Tracked A db) (x replacement : NodeId) (type : ReplacementType) :
    Tracked A (db.recordTaintedOffer x replacement type) :=
  h.map (f := TaintedRejection.offer x replacement type) (fun _ => TaintedRejection.offer_nodeId)
    (fun _ hrow hc => Or.inl (TaintedRejection.offer_completed hc fun hr => h.offered hrow hr))
    fun _ hp => hp

/-- The completions of an admitted payload that is stored. -/
theorem settle (h : Tracked A db) (hA : ∀ q, A q → B q) (hp : B p) (hstored : db.Stores p) :
    Tracked B { db with taintedRejections := db.taintedRejections.map (.settle p) } :=
  h.map (fun _ => TaintedRejection.settle_nodeId)
    (fun _ _ hc => (TaintedRejection.settle_completed hc).imp_right fun hby =>
      ⟨p, hp, hstored, hby⟩) hA

/-- The metric counts no more completions than offers, and no more offers than rejections. -/
theorem stats (h : Tracked A db) :
    db.getTaintedActionStats.completed ≤ db.getTaintedActionStats.offered ∧
      db.getTaintedActionStats.offered ≤ db.getTaintedActionStats.totalRejections := by
  refine ⟨?_, List.countP_le_length⟩
  exact List.countP_mono_left fun row hrow hc => h.offered hrow hc

end Tracked

variable {g : Setup} {answers : Answers} {A : Payload → Prop}

/-- Three calls write the table. -/
theorem Store.exec_taintedRejections {c : Store} (hc : c.kind ≠ .tainted) (db : Db) :
    (c.exec g db).2.taintedRejections = db.taintedRejections := by
  cases c with
  | recordTaintedRejection x parent rejectedAt author => exact absurd rfl hc
  | recordTaintedOffer x replacement type => exact absurd rfl hc
  | checkRetryCompletion p => exact absurd rfl hc
  | computeBlastRadius root =>
    obtain ⟨rcs, hrcs⟩ := Db.computeBlastRadius_snd g.settings.maxTraversalDepth root db
    change (db.computeBlastRadius g.settings.maxTraversalDepth root).2.taintedRejections = _
    rw [hrcs]
    rfl
  | recordShadowDecision d =>
    simp only [Store.exec, Db.recordShadowDecision]
    split <;> rfl
  | _ => rfl

/-- The others only let the lineage grow. -/
theorem Tracked.exec {c : Store} {db : Db} (hc : c.kind ≠ .tainted) (h : Tracked A db) :
    Tracked A (c.exec g db).2 := by
  refine h.grow (Store.exec_taintedRejections hc db) ?_ ?_ fun _ hp => hp
  · exact Store.exec_lineage (K := fun L => ∀ n ∈ db.nodes, n ∈ L.nodes)
      (fun p L hL n hn => Lineage.mem_nodes_commitNode.mpr (Or.inl (hL n hn)))
      (fun _ _ hL => hL) c db fun _ hn => hn
  · exact Store.exec_lineage (K := fun L => ∀ x ∈ db.ledger, x ∈ L.ledger)
      (fun p L hL x hx => by rw [Lineage.commitNode_ledger]; exact hL x hx)
      (fun _ _ hL x hx => Lineage.mem_ledger_quarantine.mpr (Or.inl (hL x hx))) c db fun _ hx => hx

/-! ## 3. The locked section of a submission -/

/-- A call inside a transaction that leaves the table alone. -/
def Call.Untainted (c : Call) : Prop := c.kind ≠ .tainted ∧ c.NoTx

theorem Call.of_untainted {ks : List CallKind}
    (h : (ks.all fun k => decide (k ≠ .tainted ∧ k ≠ .tx)) = true) : Call.Of Call.Untainted ks := by
  intro c hc
  obtain ⟨htainted, htx⟩ := of_decide_eq_true (List.all_eq_true.mp h c.kind hc)
  have hnoTx : Call.Of Call.NoTx [c.kind] := Call.of_noTx (by simpa using fun h => htx h.symm)
  exact ⟨htainted, hnoTx c List.mem_cons_self⟩

section Section

variable {α β : Type} {C : Trans Call Call.Res Exc World} {rows : List TaintedRejection}

theorem rows_of_step {c : Call} {w w' : World} {r : Except Exc c.Res} (hc : c.Untainted)
    (ht : restrict (Step g answers) C c w r w') :
    w'.db.taintedRejections = w.db.taintedRejections := by
  cases c with
  | store c =>
    rw [ht.1.2]
    exact Store.exec_taintedRejections hc.1 w.db
  | ext e => rw [ht.1.2]
  | getAdapterKey => rw [ht.1.2]
  | setAdapterKey key => rw [ht.1.2]
  | sync k =>
    rw [ht.1.2]
    cases k with
    | begin => exact absurd hc.2 id
    | commit => exact absurd hc.2 id
    | rollback => exact absurd hc.2 id
    | _ => rfl

/-- A part that leaves the table alone, in front of the rest of the section. -/
theorem untainted_bind {x : Handler α} {f : α → Handler β} {F : β → World → Prop} {w : World}
    (hx : x.Uses Call.Untainted) (hw : w.db.taintedRejections = rows)
    (hok : ∀ a w', w'.db.taintedRejections = rows →
      Act.Sat (restrict (Step g answers) C) Trans.any (f a) (onOk F fun _ _ => True) w') :
    Act.Sat (restrict (Step g answers) C) Trans.any (x >>= f) (onOk F fun _ _ => True) w := by
  refine Act.Uses.sat_bind (I := fun w' : World => w'.db.taintedRejections = rows) hx ?_ hw hok
    fun _ _ _ => trivial
  intro c hc w₁ r w₂ ht hw₁
  exact ⟨trivial, (rows_of_step hc ht).trans hw₁⟩

/-- What the section does to the table, with its answer. -/
inductive RowsOutcome (p : Payload) (rows : List TaintedRejection) :
    Response → List TaintedRejection → Prop
  | kept (a : Response) : RowsOutcome p rows a rows
  | rejected {a : Response} {row : TaintedRejection} (ha : a.Rejects)
      (hid : row.nodeId = p.payloadId) (hcompleted : row.completed = false) :
      RowsOutcome p rows a (rows ++ [row])
  | offered {a : Response} {row : TaintedRejection} {x : NodeId} {type : ReplacementType}
      (ha : a.Rejects) (hid : row.nodeId = p.payloadId) (hcompleted : row.completed = false) :
      RowsOutcome p rows a ((rows ++ [row]).map (.offer p.payloadId x type))
  | completed {db : Db} {gap : Option (List NodeId)} (hdb : db.taintedRejections = rows) :
      RowsOutcome p rows { reply := .committed false }
        (db.checkRetryCompletion { p with coversIntervalGap := gap }).taintedRejections

/-- A prepared payload is the payload, with an interval gap. -/
theorem rows_prepareCompaction {f : Payload → Handler β} {F : β → World → Prop} {w : World}
    (p : Payload) (hw : w.db.taintedRejections = rows)
    (hok : ∀ gap w', w'.db.taintedRejections = rows →
      Act.Sat (restrict (Step g answers) C) Trans.any (f { p with coversIntervalGap := gap })
        (onOk F fun _ _ => True) w') :
    Act.Sat (restrict (Step g answers) C) Trans.any (prepareCompaction p >>= f)
      (onOk F fun _ _ => True) w := by
  have hread : Call.Of Call.Untainted [.read] := Call.of_untainted rfl
  rw [Act.sat_bind]
  unfold prepareCompaction
  split
  · refine untainted_bind (uses_store hread rfl) hw fun gap w₁ hw₁ => ?_
    dsimp only
    split
    · exact hok (some gap) w₁ hw₁
    · refine untainted_bind (uses_store hread rfl) hw₁ fun quarantined w₂ hw₂ => ?_
      split
      · exact hok (some gap) w₂ hw₂
      · trivial
  · exact hok p.coversIntervalGap w hw

/-- A rejection adds one row, and may offer a replacement to it. -/
theorem rows_rejectTainted {f : QuarantineEvent × Option Db.Replacement → Handler β}
    {F : β → World → Prop} {w : World} (p : Payload) (root : NodeId)
    (hw : w.db.taintedRejections = rows)
    (hok : ∀ out w' row, row.nodeId = p.payloadId → row.completed = false →
      (w'.db.taintedRejections = rows ++ [row] ∨ ∃ x type,
        w'.db.taintedRejections = (rows ++ [row]).map (.offer p.payloadId x type)) →
      Act.Sat (restrict (Step g answers) C) Trans.any (f out) (onOk F fun _ _ => True) w') :
    Act.Sat (restrict (Step g answers) C) Trans.any (rejectTainted g p root >>= f)
      (onOk F fun _ _ => True) w := by
  have hA : Call.Of Call.Untainted [.ext, .read, .commit .rejection, .repair, .withdrawal, .ledger] :=
    Call.of_untainted rfl
  rw [Act.sat_bind]
  refine untainted_bind (uses_store hA rfl) hw fun _ w₁ hw₁ => ?_
  refine untainted_bind (uses_store hA rfl) hw₁ fun ids w₂ hw₂ => ?_
  refine untainted_bind (uses_recurrenceHook g (hA.sub rfl) _ _) hw₂ fun _ w₃ hw₃ => ?_
  refine untainted_bind (uses_store hA rfl) hw₃ fun digest w₄ hw₄ => ?_
  refine untainted_bind (uses_ext hA _ rfl) hw₄ fun eventId w₅ hw₅ => ?_
  refine untainted_bind (uses_stampNow (hA.sub rfl)) hw₅ fun detected w₆ hw₆ => ?_
  refine untainted_bind (uses_store hA rfl) hw₆ fun event w₇ hw₇ => ?_
  refine untainted_bind (uses_stampNow (hA.sub rfl)) hw₇ fun rejected w₈ hw₈ => ?_
  rw [Act.sat_bind]
  rintro r w₉ ⟨⟨rfl, rfl⟩, -⟩
  refine ⟨trivial, ?_⟩
  obtain ⟨row, hid, hcompleted, hrejected⟩ : ∃ row : TaintedRejection,
      row.nodeId = p.payloadId ∧ row.completed = false ∧
      (w₈.db.recordTaintedRejection p.payloadId root rejected
        (p.identityId.getD "")).taintedRejections = rows ++ [row] := by
    rw [← hw₈]
    exact ⟨_, rfl, rfl, rfl⟩
  change Act.Sat _ _ (offerReplacement p root >>= _) _ _
  rw [Act.sat_bind]
  refine untainted_bind (uses_store hA rfl) hrejected fun replacement w₁₀ hw₁₀ => ?_
  cases replacement with
  | none => exact hok (event, none) w₁₀ row hid hcompleted (Or.inl hw₁₀)
  | some x =>
    rw [Act.sat_bind]
    rintro r w₁₁ ⟨⟨rfl, rfl⟩, -⟩
    refine ⟨trivial, hok (event, some x) _ row hid hcompleted (Or.inr ⟨x.replacementNodeId,
      if x.replacementFor = root then .direct else .ancestor, ?_⟩)⟩
    rw [← hw₁₀]
    rfl

theorem rows_enforce {w : World} (p : Payload) (gap : Option (List NodeId))
    (status : List ParentStatus) (hashes : NodeId → Option String) (decisionId writer : String)
    (decision : Decision) (hw : w.db.taintedRejections = rows) :
    Act.Sat (restrict (Step g answers) C) Trans.any
      (enforce g { p with coversIntervalGap := gap } status hashes decisionId writer decision)
      (onOk (fun a w' => RowsOutcome p rows a w'.db.taintedRejections) fun _ _ => True) w := by
  have hA : Call.Of Call.Untainted [.ext, .audit, .commit .admission] := Call.of_untainted rfl
  have hkept : ∀ status' blocked reason (a : Response),
      Act.Sat (restrict (Step g answers) C) Trans.any
        (recordDecision g decisionId writer { p with coversIntervalGap := gap } status' blocked
          reason >>= fun _ => pure a)
        (onOk (fun a w' => RowsOutcome p rows a w'.db.taintedRejections) fun _ _ => True) w := by
    intro status' blocked reason a
    refine untainted_bind (uses_recordDecision g (hA.sub rfl) _ _ _ _ _ _) hw fun _ w₁ hw₁ => ?_
    change RowsOutcome p rows a w₁.db.taintedRejections
    rw [hw₁]
    exact .kept a
  cases decision with
  | admitted =>
    have hadmit : (admitWrite { p with coversIntervalGap := gap } hashes).Uses Call.Untainted := by
      unfold admitWrite
      split
      · exact Act.uses_raise _
      · exact uses_store hA rfl
    refine untainted_bind hadmit hw fun isNew w₁ hw₁ => ?_
    cases isNew with
    | false =>
      change RowsOutcome p rows _ w₁.db.taintedRejections
      rw [hw₁]
      exact .kept _
    | true =>
      change Act.Sat _ _ ((recordDecision g decisionId writer _ status false "admit" >>= fun _ =>
        store (.checkRetryCompletion _)) >>= _) _ _
      rw [Act.sat_bind]
      refine untainted_bind (uses_recordDecision g (hA.sub rfl) _ _ _ _ _ _) hw₁ fun _ w₂ hw₂ => ?_
      rintro r w₃ ⟨⟨rfl, rfl⟩, -⟩
      exact ⟨trivial, .completed hw₂⟩
  | taintedParent root =>
    refine rows_rejectTainted _ root hw fun out w₁ row hid hcompleted hw₁ => ?_
    refine untainted_bind (uses_recordDecision g (hA.sub rfl) _ _ _ _ _ _)
      (Eq.refl w₁.db.taintedRejections) fun _ w₂ hw₂ => ?_
    change RowsOutcome p rows _ w₂.db.taintedRejections
    rw [hw₂]
    rcases hw₁ with h | ⟨x, type, h⟩
    · rw [h]
      exact .rejected ⟨_, _, rfl⟩ hid hcompleted
    · rw [h]
      exact .offered ⟨_, _, rfl⟩ hid hcompleted
  | lineageInvalid => exact hkept _ _ _ _
  | verificationFailed => exact hkept _ _ _ _

/-- **The locked section and the table.** -/
theorem rows_submitLocked (p : Payload) (auth : Claims) (decisionId : String) (w : World)
    (hmode : g.settings.enforcementMode = .enforce) :
    Act.Sat (restrict (Step g answers) C) Trans.any (submitLocked g p auth decisionId)
      (onOk (fun a w' => RowsOutcome p w.db.taintedRejections a w'.db.taintedRejections)
        fun _ _ => True) w := by
  have hA : Call.Of Call.Untainted [.ext, .read] := Call.of_untainted rfl
  refine untainted_bind (uses_store hA rfl) rfl fun _ w₁ hw₁ => ?_
  refine untainted_bind (Act.uses_raiseIf _ _) hw₁ fun _ w₂ hw₂ => ?_
  refine untainted_bind (uses_store hA rfl) hw₂ fun _ w₃ hw₃ => ?_
  refine untainted_bind (uses_store hA rfl) hw₃ fun _ w₄ hw₄ => ?_
  refine untainted_bind (uses_store hA rfl) hw₄ fun _ w₅ hw₅ => ?_
  refine rows_prepareCompaction p hw₅ fun gap w₆ hw₆ => ?_
  refine untainted_bind (uses_failClosed (uses_evaluateAdmission (hA.sub rfl) _ _ _ _)) hw₆
    fun decision w₇ hw₇ => ?_
  simp only [hmode]
  exact rows_enforce p gap _ _ _ _ decision hw₇

end Section

/-! ## 4. Runs -/

/-- A submission of `p` was answered 200, and the node was new. -/
def Handled.Admitted (k : Handled) (p : Payload) : Prop :=
  ∃ bytes, k.request = .submitCandidate bytes (.payload p) ∧
    k.outcome = .ok { reply := .committed false }

namespace SubmitOutcome

variable {K : CommitSite → Payload → Lineage → Prop} {sha256 : String → String} {p : Payload}
  {L L' : Lineage} {a : Response}

theorem nodes (h : SubmitOutcome K sha256 p L a L') : ∀ n ∈ L.nodes, n ∈ L'.nodes := by
  intro n hn
  cases h with
  | refused _ _ => exact hn
  | admitted gap _ _ _ _ _ => exact Lineage.mem_nodes_commitNode.mpr (Or.inl hn)
  | rejected gap _ _ _ _ _ => exact Lineage.mem_nodes_commitNode.mpr (Or.inl hn)

theorem ledger (h : SubmitOutcome K sha256 p L a L') : ∀ x ∈ L.ledger, x ∈ L'.ledger := by
  intro x hx
  cases h with
  | refused _ _ => exact hx
  | admitted gap _ _ _ _ _ => rwa [Lineage.commitNode_ledger]
  | rejected gap _ _ _ _ _ =>
    rw [Lineage.mem_ledger_quarantine, Lineage.commitNode_ledger]
    exact Or.inl hx

/-- A rejected id was not in the ledger, and is now. -/
theorem quarantines (h : SubmitOutcome K sha256 p L a L') (ha : a.Rejects) :
    p.payloadId ∉ L.ledger ∧ p.payloadId ∈ L'.ledger := by
  cases h with
  | refused hnot _ => exact absurd (Or.inr ha) hnot
  | admitted gap _ _ _ _ _ =>
    obtain ⟨event, replacement, heq⟩ := ha
    exact absurd (congrArg Response.status heq) (by simp)
  | rejected gap _ hid _ _ _ =>
    refine ⟨hid, ?_⟩
    rw [Lineage.mem_ledger_quarantine]
    exact Or.inr (by simp)

/-- An admitted payload is stored. -/
theorem stores (h : SubmitOutcome K sha256 p L a L') (ha : a.Admits) : L'.Stores p := by
  cases h with
  | refused hnot _ => exact absurd (Or.inl ha) hnot
  | rejected gap hrej _ _ _ _ =>
    obtain ⟨event, replacement, heq⟩ := hrej
    rw [Response.Admits, heq] at ha
    exact absurd (congrArg Response.status ha) (by simp)
  | admitted gap _ _ _ _ _ =>
    have hnew : (L.commitNode sha256 { p with coversIntervalGap := gap }).1 = true := by
      have hreply := congrArg Response.reply ha
      simpa using hreply
    have hfree : p.payloadId ∉ L.nodeIds := by
      intro hmem
      rw [Lineage.commitNode_of_mem (p := { p with coversIntervalGap := gap }) hmem] at hnew
      exact absurd hnew (by simp)
    exact ⟨_, Lineage.mem_nodes_commitNode.mpr (Or.inr ⟨rfl, hfree⟩), gap, rfl⟩

end SubmitOutcome

/-- The two accounts of the section, put together. -/
theorem Tracked.submit {db db' : Db} {p : Payload} {a : Response}
    {K : CommitSite → Payload → Lineage → Prop} (h : Tracked A db)
    (hlin : SubmitOutcome K g.env.sha256 p db.toLineage a db'.toLineage)
    (hrows : RowsOutcome p db.taintedRejections a db'.taintedRejections) :
    Tracked (fun q => A q ∨ q = p ∧ a.Admits) db' := by
  have hgrow : Tracked A { db' with taintedRejections := db.taintedRejections } :=
    h.grow rfl hlin.nodes hlin.ledger fun _ hq => hq
  have hreject : ∀ row : TaintedRejection, a.Rejects → row.nodeId = p.payloadId →
      row.completed = false →
      Tracked A { db' with taintedRejections := db.taintedRejections ++ [row] } := by
    intro row ha hid hcompleted
    obtain ⟨hfree, hledger⟩ := hlin.quarantines ha
    have hnew : row.nodeId ∉ db.taintedRejections.map TaintedRejection.nodeId := by
      intro hmem
      obtain ⟨r, hr, heq⟩ := List.mem_map.mp hmem
      exact hfree (hid ▸ heq ▸ h.quarantined r hr)
    exact hgrow.reject hnew (hid ▸ hledger) hcompleted
  have hweaken : ∀ {db₁ : Db}, Tracked A db₁ → Tracked (fun q => A q ∨ q = p ∧ a.Admits) db₁ :=
    fun h₁ => h₁.grow rfl (fun _ hn => hn) (fun _ hx => hx) fun _ => Or.inl
  suffices hall : ∀ rows, RowsOutcome p db.taintedRejections a rows →
      Tracked (fun q => A q ∨ q = p ∧ a.Admits) { db' with taintedRejections := rows } from
    hall _ hrows
  intro rows hout
  cases hout with
  | kept _ => exact hweaken hgrow
  | rejected ha hid hcompleted => exact hweaken (hreject _ ha hid hcompleted)
  | @offered _ row x type ha hid hcompleted =>
    exact hweaken ((hreject row ha hid hcompleted).offer p.payloadId x type)
  | @completed db₁ gap hdb =>
    have hnodup : (db₁.taintedRejections.map TaintedRejection.nodeId).Nodup := by
      rw [hdb]
      exact h.nodup
    rw [Db.taintedRejections_checkRetryCompletion db₁ _ hnodup, hdb]
    exact hgrow.settle (p := p) (fun _ => Or.inl) (Or.inr ⟨rfl, rfl⟩) (hlin.stores rfl)

theorem tracked_submit (hlaw : answers.Lawful) (hmode : g.settings.enforcementMode = .enforce)
    {bytes : ℕ} {body : SubmitBody} {w : World} (hw : Tracked A w.db) :
    Act.Sat (restrict (Step g answers) Trans.any) Trans.any (submitCandidate g bytes body)
      (fun r w' => Tracked (fun q => A q ∨ body = .payload q ∧ r = .ok { reply := .committed false })
        w'.db) w := by
  have hsync : ∀ k w r w', (Trans.any : Trans Call Call.Res Exc World) (.sync k) w r w' :=
    fun _ _ _ _ => trivial
  have hweaken : ∀ {r : Except Exc Response} {w' : World}, Tracked A w'.db →
      Tracked (fun q => A q ∨ body = .payload q ∧ r = .ok { reply := .committed false }) w'.db :=
    fun h => h.grow rfl (fun _ hn => hn) (fun _ hx => hx) fun _ => Or.inl
  rw [submitCandidate, Act.sat_bind]
  refine Act.Sat.mono (Prog.Sat.restrict (sat_submitChecks (fun _ _ _ _ ht => ht.2) bytes body w)
    fun _ _ _ _ ht => ht.1) ?_
  rintro (e | ⟨p, auth, decisionId⟩) w₁ h₁
  · obtain rfl := h₁
    exact hweaken hw
  · obtain ⟨rfl, hparse, -⟩ := h₁
    obtain rfl := parseSubmission_body hparse
    refine sat_withShared hsync
      (sat_withTransaction hsync (uses_submitLocked g (Call.of_noTx rfl) p auth _) ?_)
    have hlin := sat_submitLocked (P := Trans.any) (K := fun _ _ _ => True)
      (acts_step hlaw Trans.any) hmode p auth decisionId { w₁ with saved := some w₁.db }
      ⟨fun _ _ _ _ _ => trivial, fun _ _ _ _ _ _ => ⟨trivial, trivial⟩,
        fun _ _ _ _ _ _ => trivial, fun _ _ _ _ _ _ _ _ _ _ _ => ⟨trivial, trivial⟩⟩
    have hrows : Act.Sat (restrict (Step g answers) Trans.any) Trans.any
        (submitLocked g p auth decisionId) (onOk (fun a w' =>
          RowsOutcome p w₁.db.taintedRejections a w'.db.taintedRejections) fun _ _ => True)
        { w₁ with saved := some w₁.db } :=
      rows_submitLocked p auth decisionId _ hmode
    refine ((Prog.Sat.and hlin hrows).weaken fun _ _ _ _ _ => trivial).mono ?_
    rintro (e | a) w₂ ⟨h₂, h₂'⟩
    · exact hweaken hw
    · refine (hw.submit h₂ h₂').grow rfl (fun _ hn => hn) (fun _ hx => hx) ?_
      rintro q (hq | ⟨rfl, ha⟩)
      · exact Or.inl hq
      · exact Or.inr ⟨rfl, congrArg Except.ok ha⟩

theorem tracked_handle (hlaw : answers.Lawful) (hmode : g.settings.enforcementMode = .enforce)
    (req : Request) {w : World} (hsaved : w.saved = none) (hw : Tracked A w.db) :
    Act.Sat (Step g answers) Trans.any (req.handle g) (fun r w' =>
      Tracked (fun q => A q ∨ (∃ bytes, req = .submitCandidate bytes (.payload q)) ∧
        r = .ok { reply := .committed false }) w'.db) w := by
  have hother : req.kinds.contains .tainted = false → Act.Sat (Step g answers) Trans.any (req.handle g)
      (fun r w' => Tracked (fun q => A q ∨ (∃ bytes, req = .submitCandidate bytes (.payload q)) ∧
        r = .ok { reply := .committed false }) w'.db) w := by
    intro hkinds
    refine Prog.Sat.mono (Prog.Uses.sat (I := World.Both (Tracked A))
      (uses_handle g req (A := fun c => c.kind ≠ .tainted)
        fun c hc heq => ?_) ?_ (World.both_of_saved hsaved hw)) ?_
    · rw [heq] at hc
      rw [List.contains_iff_mem.mpr hc] at hkinds
      exact absurd hkinds (by simp)
    · intro c hc w₁ r w₂ ht h₁
      refine ⟨trivial, h₁.step (fun k hk h => h.exec ?_) ht⟩
      rw [hk] at hc
      exact hc
    · exact fun r w' h => h.1.grow rfl (fun _ hn => hn) (fun _ hx => hx) fun _ => Or.inl
  cases req with
  | submitCandidate bytes body =>
    refine Prog.Sat.mono (Prog.Sat.restrict (tracked_submit hlaw hmode hw)
      fun _ _ _ _ ht => ⟨ht, trivial⟩) ?_
    intro r w' h
    refine h.grow rfl (fun _ hn => hn) (fun _ hx => hx) ?_
    rintro q (hq | ⟨rfl, hr⟩)
    · exact Or.inl hq
    · exact Or.inr ⟨⟨bytes, rfl⟩, hr⟩
  | _ => exact hother rfl

theorem tracked_run (hlaw : answers.Lawful) (hmode : g.settings.enforcementMode = .enforce)
    {w w' : World} {hs : List Handled} (hrun : Run g (Step g answers) w hs w')
    (hsaved : w.saved = none) (hw : Tracked A w.db) :
    Tracked (fun p => A p ∨ ∃ k ∈ hs, k.Admitted p) w'.db := by
  induction hrun generalizing A with
  | nil w => exact hw.grow rfl (fun _ hn => hn) (fun _ hx => hx) fun _ => Or.inl
  | @cons k w w' hs hexec _ ih =>
    have hafter := (Prog.Sat.sound (tracked_handle hlaw hmode k.request hsaved hw) hexec).2
    have hclosed := (Prog.Sat.sound (saved_handle k.request hsaved) hexec).2
    refine (ih hclosed hafter).grow rfl (fun _ hn => hn) (fun _ hx => hx) ?_
    rintro p ((hp | ⟨⟨bytes, hreq⟩, hout⟩) | ⟨j, hj, hadmitted⟩)
    · exact Or.inl hp
    · exact Or.inr ⟨k, List.mem_cons_self, bytes, hreq, hout⟩
    · exact Or.inr ⟨j, List.mem_cons_of_mem _ hj, hadmitted⟩

/-- **The completion metric.**  After every run from an empty table, a completed row was offered,
and it was completed by a stored node whose submission was answered 200 as new, with the offered
replacement among its parents, and by the author of the rejection if its `retry_of` is not empty and
names it; so the metric counts no more completions than offers and no more offers than
rejections. -/
theorem completion_of_run (hlaw : answers.Lawful) (hmode : g.settings.enforcementMode = .enforce)
    {w w' : World} {hs : List Handled} (hrun : Run g (Step g answers) w hs w')
    (hsaved : w.saved = none) (hempty : w.db.taintedRejections = []) :
    (∀ row ∈ w'.db.taintedRejections, row.completed = true →
      ∃ p, (∃ k ∈ hs, k.Admitted p) ∧ w'.lin.Stores p ∧ row.CompletedBy p) ∧
    w'.db.getTaintedActionStats.completed ≤ w'.db.getTaintedActionStats.offered ∧
    w'.db.getTaintedActionStats.offered ≤ w'.db.getTaintedActionStats.totalRejections := by
  have hinitial : Tracked (fun _ => False) w.db :=
    ⟨by rw [hempty]; exact List.nodup_nil, fun row hrow => by rw [hempty] at hrow; simp at hrow,
      fun row hrow => by rw [hempty] at hrow; simp at hrow⟩
  have htracked := tracked_run hlaw hmode hrun hsaved hinitial
  refine ⟨fun row hrow hc => ?_, htracked.stats⟩
  obtain ⟨p, hp, hstored, hby⟩ := htracked.completed row hrow hc
  exact ⟨p, hp.resolve_left id, hstored, hby⟩

/-- A root of the initial quarantine gets a substitute; a write on the quarantined root is rejected
under the id `x`, and retried on the substitute by `agent`. -/
def retryRequests (x : NodeId) (agent : String) : List Request :=
  [.declareSubstitute (some "Bearer admin") (some "quarantined-node-A") (some "clean-parent-1")
      (.str "2025-10-27"),
    openSubmission x ["quarantined-node-A"],
    .submitCandidate 512 (.payload
      { openPayload agent "retry" ["clean-parent-1"] with retryOf := some x })]

/-- The author's retry completes the row. -/
theorem completion_of_retry : ∃ hs w, Run openSetup (Step openSetup Answers.lawful)
    (World.initial openSetup {} none) hs w ∧ ∃ row ∈ w.db.taintedRejections, row.nodeId = "lost" ∧
      ∃ p, (∃ k ∈ hs, k.Admitted p) ∧ w.lin.Stores p ∧ row.CompletedBy p := by
  obtain ⟨hs, hrun, -⟩ := exists_open_run (retryRequests "lost" "agent") none
  obtain ⟨hall, -⟩ := completion_of_run (fun _ _ h => h) rfl hrun rfl rfl
  have hrow : ∃ row ∈ (openWorld (retryRequests "lost" "agent") none).db.taintedRejections,
      row.nodeId = "lost" ∧ row.completed = true := by
    decide +kernel
  obtain ⟨row, hrow, hid, hc⟩ := hrow
  exact ⟨hs, _, hrun, row, hrow, hid, hall row hrow hc⟩

/-- Another agent completes the row of a rejection with the empty id, and names it. -/
theorem completion_unverified : ¬ ∀ hs w, Run openSetup (Step openSetup Answers.lawful)
    (World.initial openSetup {} none) hs w → ∀ row ∈ w.db.taintedRejections, row.completed = true →
      ∃ n ∈ w.lin.nodes, row.completedBy = some n.nodeId ∧
        (n.payload.retryOf = some row.nodeId → row.authorIdentity ≠ "" →
          n.payload.identityId = some row.authorIdentity) := by
  intro hall
  obtain ⟨hs, hrun, -⟩ := exists_open_run (retryRequests "" "other-agent") none
  have hnot : ¬ ∀ row ∈ (openWorld (retryRequests "" "other-agent") none).db.taintedRejections,
      row.completed = true →
      ∃ n ∈ (openWorld (retryRequests "" "other-agent") none).lin.nodes,
        row.completedBy = some n.nodeId ∧
        (n.payload.retryOf = some row.nodeId → row.authorIdentity ≠ "" →
          n.payload.identityId = some row.authorIdentity) := by
    decide +kernel
  exact hnot (hall hs _ hrun)

end GovernorGateway
