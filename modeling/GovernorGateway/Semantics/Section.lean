/-
# What a section of a handler can do to the lineage

The same stretch of a handler runs in several settings: alone on the database, inside a
transaction on a private copy, or under the exclusive lock while other tasks write other tables.
`Acts` says what these settings have in common: the lineage changes only by the two calls that
write it, and a call of the store answers as it would on SOME database with the current lineage.

The rest of the module is the calculus for programs under `Acts`: calls that leave the lineage
alone (`Acts.sat_quiet`), and one rule for each kind of call.
-/
import GovernorGateway.Semantics.Calls

namespace GovernorGateway

open Effects

/-! ## 1. Quiet calls -/

/-- A call that neither writes the lineage nor concerns the lock or a transaction. -/
def Call.Quiet : Call → Prop
  | .store c => ¬ c.Loud
  | .sync _ => False
  | _ => True

@[simp] theorem Call.quiet_store (c : Store) : (Call.store c).Quiet ↔ ¬ c.Loud := Iff.rfl

@[simp] theorem Call.quiet_ext (e : Ext) : (Call.ext e).Quiet := trivial

@[simp] theorem Call.quiet_getAdapterKey : Call.getAdapterKey.Quiet := trivial

@[simp] theorem Call.quiet_setAdapterKey (key : String) : (Call.setAdapterKey key).Quiet := trivial

/-- The kinds of calls that are quiet, whatever the call. -/
def CallKind.quiet : CallKind → Bool
  | .commit _ | .ledger | .reopen | .shared | .exclusive | .tx => false
  | _ => true

theorem Call.of_quiet {ks : List CallKind} (h : ks.all CallKind.quiet = true) :
    Call.Of Call.Quiet ks := by
  intro c hc
  have hk : c.kind.quiet = true := List.all_eq_true.mp h c.kind hc
  cases c with
  | store c =>
    cases c with
    | commitNode site p => exact absurd hk (by simp [Call.kind, Store.kind, CallKind.quiet])
    | applyQuarantineTransaction event ids =>
      exact absurd hk (by simp [Call.kind, Store.kind, CallKind.quiet])
    | updateRepairCandidate x rc =>
      intro (hp : rc.disposition = .pendingReconstruction)
      rw [Call.kind, Store.kind, if_pos hp] at hk
      exact absurd hk (by simp [CallKind.quiet])
    | _ => exact id
  | sync k => cases k <;> exact absurd hk (by simp [Call.kind, Sync.kind, CallKind.quiet])
  | _ => trivial

/-- A part of a handler that makes only quiet calls, on every branch. -/
abbrev QuietPart {α : Type} (x : Handler α) : Prop := x.Uses Call.Quiet

theorem quiet_store {c : Store} (h : ¬ c.Loud) : QuietPart (store c) :=
  (Act.uses_perform (R := Call.Res) (Call.store c)).mpr h

theorem quiet_ext (e : Ext) : QuietPart (ext e) :=
  (Act.uses_perform (R := Call.Res) (Call.ext e)).mpr trivial

/-! ## 2. Settings in which a section runs -/

/-- What the outside world can answer.  The policy engine evaluates the repository's policies, or
fails; the combined package may also be missing from its bundle. -/
def Ext.Lawful : (e : Ext) → Except Exc e.Res → Prop
  | .opa q, r =>
    (∃ e, r = .error e) ∨ r = .ok (Policy.rego q) ∨
      ∃ i v, q = .combined i v ∧ r = .ok (.bool false)
  | .reconstruct _, _ => True
  | .iterSet xs, r => ∃ ys : List NodeId, r = .ok ys ∧ ys.Perm xs
  | .now _, r => ∃ t, r = .ok t
  | .uuid, r => ∃ u, r = .ok u
  | .generateKey, r => ∃ k, r = .ok k
  | .sign _ _, r => ∃ s, r = .ok s

/-- The transitions `T` change the lineage `lin` as the store functions do, and answer as the store
does on some database with that lineage.  A call of the store may also fail and change nothing. -/
structure Acts {σ : Type} (g : Setup) (T : Trans Call Call.Res Exc σ) (lin : σ → Lineage) : Prop where
  store : ∀ {c : Store} {s : σ} {r : Except Exc c.Res} {s' : σ}, T (.store c) s r s' →
    (∃ e, r = .error e ∧ lin s' = lin s) ∨
      ∃ db : Db, db.toLineage = lin s ∧ r = (c.exec g db).1 ∧ lin s' = (c.exec g db).2.toLineage
  ext : ∀ {e : Ext} {s : σ} {r : Except Exc e.Res} {s' : σ}, T (.ext e) s r s' →
    e.Lawful r ∧ lin s' = lin s
  sync : ∀ {k : Sync} {s : σ} {r : Except Exc Unit} {s' : σ}, (Call.sync k).NoTx →
    T (.sync k) s r s' → lin s' = lin s
  getKey : ∀ {s : σ} {r : Except Exc (Option String)} {s' : σ},
    T .getAdapterKey s r s' → lin s' = lin s
  setKey : ∀ {key : String} {s : σ} {r : Except Exc Unit} {s' : σ},
    T (.setAdapterKey key) s r s' → lin s' = lin s

namespace Acts

variable {σ α β : Type} {g : Setup} {T P : Trans Call Call.Res Exc σ} {lin : σ → Lineage}

/-- A quiet call leaves the lineage alone. -/
theorem quiet (h : Acts g T lin) : ∀ {c : Call}, c.Quiet → ∀ {s r s'}, T c s r s' → lin s' = lin s
  | .store c, hc, s, r, s', ht => by
    rcases h.store ht with ⟨e, -, hl⟩ | ⟨db, hdb, -, hl⟩
    · exact hl
    · rw [hl, Store.exec_toLineage g db c hc, hdb]
  | .ext e, _, s, r, s', ht => (h.ext ht).2
  | .sync k, hk, s, r, s', ht => absurd hk id
  | .getAdapterKey, _, s, r, s', ht => h.getKey ht
  | .setAdapterKey key, _, s, r, s', ht => h.setKey ht

/-- **A part that makes only quiet calls leaves the lineage alone**, however it ends. -/
theorem sat_quiet (h : Acts g T lin) (hP : ∀ c s r s', c.Quiet → P c s r s') {x : Handler α}
    (hx : QuietPart x) (s : σ) : Act.Sat T P x (fun _ s' => lin s' = lin s) s := by
  refine Prog.Uses.sat (I := fun s' => lin s' = lin s) hx ?_ rfl
  intro c hc s₁ r s₂ ht hs₁
  exact ⟨hP c s₁ r s₂ hc, (h.quiet hc ht).trans hs₁⟩

/-- The same rule in front of the rest of a handler. -/
theorem quiet_bind (h : Acts g T lin) (hP : ∀ c s r s', c.Quiet → P c s r s') {x : Handler α}
    {f : α → Handler β} {F : β → σ → Prop} {G : Exc → σ → Prop} {s : σ} (hx : QuietPart x)
    (hok : ∀ a s', lin s' = lin s → Act.Sat T P (f a) (onOk F G) s')
    (herr : ∀ e s', lin s' = lin s → G e s') : Act.Sat T P (x >>= f) (onOk F G) s := by
  rw [Act.sat_bind]
  refine (h.sat_quiet hP hx s).mono ?_
  rintro (e | a) s' hs'
  · exact herr e s' hs'
  · exact hok a s' hs'

/-- A call of the store that leaves the lineage alone, in front of the rest of a handler: its
answer is that of the store on a database with this lineage. -/
theorem read_bind (h : Acts g T lin) (hP : ∀ c s r s', c.Quiet → P c s r s') {c : Store}
    {f : c.Res → Handler β} {F : β → σ → Prop} {G : Exc → σ → Prop} {s : σ}
    (hc : ¬ c.Loud)
    (hok : ∀ db a s', db.toLineage = lin s → (c.exec g db).1 = .ok a → lin s' = lin s →
      Act.Sat T P (f a) (onOk F G) s')
    (herr : ∀ e s', lin s' = lin s → G e s') :
    Act.Sat T P (GovernorGateway.store c >>= f) (onOk F G) s := by
  rw [Act.sat_bind]
  intro r s' ht
  refine ⟨hP _ _ _ _ hc, ?_⟩
  have hl : lin s' = lin s := h.quiet (c := .store c) hc ht
  cases r with
  | error e => exact herr e s' hl
  | ok a =>
    rcases h.store ht with ⟨e, he, -⟩ | ⟨db, hdb, hr, -⟩
    · exact absurd he (by simp)
    · exact hok db a s' hdb hr.symm hl

/-- A call to the outside world, in front of the rest of a handler. -/
theorem ext_bind (h : Acts g T lin) (hP : ∀ c s r s', c.Quiet → P c s r s') {e : Ext}
    {f : e.Res → Handler β} {F : β → σ → Prop} {G : Exc → σ → Prop} {s : σ}
    (hok : ∀ a s', e.Lawful (.ok a) → lin s' = lin s → Act.Sat T P (f a) (onOk F G) s')
    (herr : ∀ x s', lin s' = lin s → G x s') :
    Act.Sat T P (GovernorGateway.ext e >>= f) (onOk F G) s := by
  rw [Act.sat_bind]
  intro r s' ht
  refine ⟨hP _ _ _ _ trivial, ?_⟩
  obtain ⟨hlaw, hl⟩ := h.ext ht
  cases r with
  | error x => exact herr x s' hl
  | ok a => exact hok a s' hlaw hl

/-- A commit, in front of the rest of a handler: an obligation on the call itself, and a fact `K`
that the transition brings with it. -/
theorem commit_bind (h : Acts g T lin) {site : CommitSite} {p : Payload} {f : Bool → Handler β}
    {F : β → σ → Prop} {G : Exc → σ → Prop} {s : σ} {K : Prop}
    (hcall : ∀ r s', T (.store (.commitNode site p)) s r s' →
      P (.store (.commitNode site p)) s r s' ∧ K)
    (hok : ∀ s', K → lin s' = ((lin s).commitNode g.env.sha256 p).2 →
      Act.Sat T P (f ((lin s).commitNode g.env.sha256 p).1) (onOk F G) s')
    (herr : ∀ e s', lin s' = lin s → G e s') :
    Act.Sat T P (GovernorGateway.store (.commitNode site p) >>= f) (onOk F G) s := by
  rw [Act.sat_bind]
  intro r s' ht
  obtain ⟨hp, hK⟩ := hcall r s' ht
  refine ⟨hp, ?_⟩
  rcases h.store ht with ⟨e, rfl, hl⟩ | ⟨db, hdb, rfl, hl⟩
  · exact herr e s' hl
  · simp only [Store.exec, Db.commitNode, hdb] at hl ⊢
    exact hok s' hK hl

/-- A ledger write, in front of the rest of a handler. -/
theorem quarantine_bind (h : Acts g T lin) {event : QuarantineEvent} {ids : List NodeId}
    {f : QuarantineEvent → Handler β} {F : β → σ → Prop} {G : Exc → σ → Prop} {s : σ} {K : Prop}
    (hcall : ∀ r s', T (.store (.applyQuarantineTransaction event ids)) s r s' →
      P (.store (.applyQuarantineTransaction event ids)) s r s' ∧ K)
    (hok : ∀ s', K → lin s' = (lin s).quarantine ids →
      Act.Sat T P (f { event with maxTraversalDepth := some g.settings.maxTraversalDepth })
        (onOk F G) s')
    (herr : ∀ e s', lin s' = lin s → G e s') :
    Act.Sat T P (GovernorGateway.store (.applyQuarantineTransaction event ids) >>= f)
      (onOk F G) s := by
  rw [Act.sat_bind]
  intro r s' ht
  obtain ⟨hp, hK⟩ := hcall r s' ht
  refine ⟨hp, ?_⟩
  rcases h.store ht with ⟨e, rfl, hl⟩ | ⟨db, hdb, rfl, hl⟩
  · exact herr e s' hl
  · simp only [Store.exec, Db.applyQuarantineTransaction, hdb] at hl ⊢
    exact hok s' hK hl

end Acts

/-! ## 3. Sections that have the database to themselves -/

/-- The transitions `T` run the store on the database `db`, which nothing else changes. -/
structure Solo {σ : Type} (g : Setup) (T : Trans Call Call.Res Exc σ) (db : σ → Db) : Prop where
  store : ∀ {c : Store} {s : σ} {r : Except Exc c.Res} {s' : σ}, T (.store c) s r s' →
    r = (c.exec g (db s)).1 ∧ db s' = (c.exec g (db s)).2
  ext : ∀ {e : Ext} {s : σ} {r : Except Exc e.Res} {s' : σ}, T (.ext e) s r s' →
    e.Lawful r ∧ db s' = db s
  sync : ∀ {k : Sync} {s : σ} {r : Except Exc Unit} {s' : σ}, (Call.sync k).NoTx →
    T (.sync k) s r s' → db s' = db s
  getKey : ∀ {s : σ} {r : Except Exc (Option String)} {s' : σ},
    T .getAdapterKey s r s' → db s' = db s
  setKey : ∀ {key : String} {s : σ} {r : Except Exc Unit} {s' : σ},
    T (.setAdapterKey key) s r s' → db s' = db s

namespace Solo

variable {σ β : Type} {g : Setup} {T P : Trans Call Call.Res Exc σ} {db : σ → Db}

theorem acts (h : Solo g T db) : Acts g T fun s => (db s).toLineage where
  store := by
    intro c s r s' ht
    obtain ⟨hr, hs⟩ := h.store ht
    exact Or.inr ⟨db s, rfl, hr, by rw [hs]⟩
  ext := fun ht => ⟨(h.ext ht).1, by rw [(h.ext ht).2]⟩
  sync := fun hk ht => by rw [h.sync hk ht]
  getKey := fun ht => by rw [h.getKey ht]
  setKey := fun ht => by rw [h.setKey ht]

/-- A call that only reads, in front of the rest of a handler. -/
theorem read_bind (h : Solo g T db) (hP : ∀ c s r s', c.Quiet → P c s r s') {c : Store}
    {f : c.Res → Handler β} {Q : Except Exc β → σ → Prop} {s : σ} {a : c.Res}
    (hc : ¬ c.Loud) (hread : c.exec g (db s) = (.ok a, db s))
    (hok : ∀ s', db s' = db s → Act.Sat T P (f a) Q s') :
    Act.Sat T P (GovernorGateway.store c >>= f) Q s := by
  rw [Act.sat_bind]
  intro r s' ht
  refine ⟨hP _ _ _ _ hc, ?_⟩
  obtain ⟨rfl, hs'⟩ := h.store ht
  rw [hread] at hs' ⊢
  exact hok s' hs'

end Solo

end GovernorGateway
