/-
# Rules for one handler among others

The lock and the transaction as rules of the logic of `Concurrency/Tasks.lean`: how a handler that
is outside enters a section, what it may use there, and what it owes when it leaves.

Inside a transaction the task has a copy of the database to itself, so a section is verified over
that copy (`TxStep`, which is `Solo`).  Under the exclusive side without a transaction it has the
lineage to itself (`ExclusiveStep`, which is `Acts`).  The specifications of
`Semantics/Admission.lean` and `Semantics/Recovery.lean` hold over both.
-/
import GovernorGateway.Concurrency.Tasks

namespace GovernorGateway

open Effects

variable {g : Setup} {answers : Answers} {t : Terms} {F : Bool → Lineage → Prop}
  {G : Lineage → Lineage → Prop} {α β : Type}

/-! ## 1. Outside transactions -/

/-- The quiet calls do no harm: they keep the invariant, and a task may always leave the lineage as
it is. -/
structure Gentle (g : Setup) (t : Terms) (G : Lineage → Lineage → Prop) : Prop where
  store : ∀ (c : Store) d, ¬ c.Loud → t.invariant d → t.invariant (c.exec g d).2
  refl : ∀ L, G L L
  keys : ∀ key v r, t.condition (.setAdapterKey key) v r → t.keys (some key)

theorem Store.not_commits {c : Store} (hc : ¬ c.Loud) : c.commits = false := by
  cases c with
  | commitNode site p => exact absurd trivial hc
  | _ => rfl

/-- A quiet call of a task outside transactions leaves it where it is. -/
theorem frame_local (h : Gentle g t G) {l₀ : Loc} (hl : l₀.tx = none) :
    Frame (LocalStep g answers t F) (Duty g t F G) fun l => l = l₀ := by
  rintro c l r l' hc rfl ⟨v, hsees, hok, heffect⟩
  cases c with
  | sync k => exact absurd hc id
  | ext e => exact ⟨trivial, heffect.2⟩
  | getAdapterKey => exact ⟨trivial, heffect.2⟩
  | setAdapterKey key => exact ⟨h.keys key v r hok, heffect.2⟩
  | store c =>
    have hquiet : ¬ c.Loud := hc
    refine ⟨fun _ v' hsees' _ => ?_, ?_⟩
    · simp only [Loc.Sees, hl] at hsees'
      obtain ⟨-, hJ, hF, -⟩ := hsees'
      have hlin := Store.exec_toLineage g v'.db c hquiet
      refine ⟨h.store c v'.db hquiet hJ, ?_, ?_⟩
      · rw [hlin, Store.not_commits hquiet]
        simpa using hF
      · rw [hlin]
        cases l.side with
        | outside => rfl
        | waiting => rfl
        | shared => exact h.refl _
        | exclusive L => exact h.refl _
    · rcases heffect with ⟨-, rfl⟩ | ⟨-, -, rfl⟩
      · simp only [Loc.Sees, hl] at hsees
        obtain ⟨-, -, -, hexcl⟩ := hsees
        obtain ⟨side, tx, fresh⟩ := l
        obtain rfl : tx = none := hl
        have hlin := Store.exec_toLineage g v.db c hquiet
        simp only [Loc.wrote, Store.not_commits hquiet, hlin, Bool.not_false, Bool.and_true]
        cases side with
        | exclusive L => simp only [hexcl L rfl]
        | _ => rfl
      · rfl

/-- A quiet part in front of the rest of a handler. -/
theorem local_quiet_bind (h : Gentle g t G) {l : Loc} (hl : l.tx = none) {x : Handler α}
    {f : α → Handler β} {Q : Except Exc β → Loc → Prop} (hx : QuietPart x)
    (hok : ∀ a, Act.Sat (LocalStep g answers t F) (Duty g t F G) (f a) Q l)
    (herr : ∀ e, Q (.error e) l) :
    Act.Sat (LocalStep g answers t F) (Duty g t F G) (x >>= f) Q l := by
  rw [Act.sat_bind]
  refine (Keeps.quiet (frame_local h hl) hx l rfl).mono ?_
  rintro (e | a) l' hl'
  · obtain rfl : l' = l := hl'
    exact herr e
  · obtain rfl : l' = l := hl'.1
    exact hok a

/-! ## 2. The lock -/

/-- `async with _admission_shared():`, from outside. -/
theorem local_withShared {x : Handler α} {Q : Except Exc α → Loc → Prop} {b : Bool}
    (h : Act.Sat (LocalStep g answers t F) (Duty g t F G) x
      (fun r l => ∃ b', l = ⟨.shared, none, b'⟩ ∧ Q r ⟨.outside, none, b'⟩) ⟨.shared, none, b⟩) :
    Act.Sat (LocalStep g answers t F) (Duty g t F G) (withShared x) Q ⟨.outside, none, b⟩ := by
  rw [withShared, Act.sat_bind]
  rintro r l₁ ⟨v, -, -, heffect⟩
  simp only [LocalEffect, Loc.next] at heffect
  rcases heffect with ⟨rfl, rfl⟩ | ⟨hk, -⟩
  · refine ⟨⟨fun _ => rfl, fun hk => absurd hk (by decide)⟩, ?_⟩
    change Act.Sat _ _ (x.always _) _ _
    rw [Act.sat_always]
    refine Act.Sat.mono h ?_
    rintro r l₂ ⟨b', rfl, hQ⟩ r' l₃ ⟨v', -, -, heffect'⟩
    simp only [LocalEffect, Loc.next] at heffect'
    rcases heffect' with ⟨rfl, rfl⟩ | ⟨hk, -⟩
    · exact ⟨⟨fun _ => rfl, fun hk => absurd hk (by decide)⟩, hQ⟩
    · exact absurd hk (by decide)
  · exact absurd hk (by decide)

/-- `async with _admission_exclusive():`, from outside.  The task knows the lineage from then on. -/
theorem local_withExclusive {x : Handler α} {Q : Except Exc α → Loc → Prop} {b : Bool}
    (h : ∀ d, t.invariant d → F b d.toLineage →
      t.condition (.sync .enterExclusive) ⟨false, d⟩ (.ok ()) →
      Act.Sat (LocalStep g answers t F) (Duty g t F G) x
        (fun r l => ∃ L b', l = ⟨.exclusive L, none, b'⟩ ∧ Q r ⟨.outside, none, b'⟩)
        ⟨.exclusive d.toLineage, none, b⟩) :
    Act.Sat (LocalStep g answers t F) (Duty g t F G) (withExclusive x) Q ⟨.outside, none, b⟩ := by
  rw [withExclusive, Act.sat_bind]
  rintro r l₁ ⟨v₁, -, -, heffect₁⟩
  simp only [LocalEffect, Loc.next] at heffect₁
  rcases heffect₁ with ⟨rfl, rfl⟩ | ⟨hk, -⟩
  · refine ⟨⟨fun _ => rfl, fun hk => absurd hk (by decide)⟩, ?_⟩
    change Act.Sat _ _ (sync .enterExclusive >>= _) _ _
    rw [Act.sat_bind]
    rintro r l₂ ⟨⟨inTx, d⟩, hsees, hok, heffect₂⟩
    simp only [LocalEffect, Loc.next] at heffect₂
    rcases heffect₂ with ⟨rfl, rfl⟩ | ⟨hk, -⟩
    · refine ⟨⟨fun _ => rfl, fun hk => absurd hk (by decide)⟩, ?_⟩
      change Act.Sat _ _ (x.always _) _ _
      rw [Act.sat_always]
      obtain ⟨rfl, hJ, hF, -⟩ := hsees
      refine Act.Sat.mono (h d hJ hF hok) ?_
      rintro r l₃ ⟨L, b', rfl, hQ⟩ r' l₄ ⟨v', -, -, heffect'⟩
      simp only [LocalEffect, Loc.next] at heffect'
      rcases heffect' with ⟨rfl, rfl⟩ | ⟨hk, -⟩
      · exact ⟨⟨fun _ => rfl, fun hk => absurd hk (by decide)⟩, hQ⟩
      · exact absurd hk (by decide)
    · exact absurd hk (by decide)
  · exact absurd hk (by decide)

/-! ## 3. Inside a transaction -/

/-- A call inside the transaction of a task, on its copy of the database.  One that holds the
exclusive side and asks for the shared one is not followed, unless the terms say so. -/
def TxStep (g : Setup) (answers : Answers) (t : Terms) (role : Role) : Trans Call Call.Res Exc Db
  | .store c, d, r, d' =>
    t.condition (.store c) ⟨true, d⟩ r ∧ r = (c.exec g d).1 ∧ d' = (c.exec g d).2
  | .ext e, d, r, d' => t.condition (.ext e) ⟨true, d⟩ r ∧ answers e r ∧ d' = d
  | .getAdapterKey, d, r, d' => t.condition .getAdapterKey ⟨true, d⟩ r ∧ d' = d
  | .setAdapterKey _, d, _, d' => d' = d
  | .sync k, d, _, d' => (k = .enterShared → role = .writer → t.nested) ∧ d' = d

/-- Neither the lock nor a transaction is touched. -/
def TxDuty (t : Terms) : Trans Call Call.Res Exc Db
  | .sync _, _, _, _ => False
  | .setAdapterKey key, _, _, _ => t.keys (some key)
  | _, _, _, _ => True

theorem solo_txStep (hlaw : answers.Lawful) (role : Role) : Solo g (TxStep g answers t role) id where
  store := fun ht => ht.2
  ext := fun ht => ⟨hlaw _ _ ht.2.1, ht.2.2⟩
  sync := fun _ ht => ht.2
  getKey := fun ht => ht.2
  setKey := fun ht => ht

theorem txDuty_quiet (hkeys : ∀ key, t.keys key) : ∀ c d r d', c.Quiet → TxDuty t c d r d' := by
  intro c d r d' hc
  cases c with
  | sync k => exact absurd hc id
  | setAdapterKey key => exact hkeys (some key)
  | _ => trivial

/-- A commit under the shared side is not reached in the transaction of a task that holds the
exclusive one: the lock never lets it in. -/
theorem keeps_commitShared_nested (hnested : ¬ t.nested) {I : Db → Prop} (site : CommitSite)
    (p : Payload) :
    Keeps (TxStep g answers t .writer) (TxDuty t) I (commitShared site p) fun _ => True := by
  intro d _ r d' ht
  exact absurd (ht.1 rfl rfl) hnested

/-- **The section of a transaction is verified over the copy of its task.** -/
theorem local_inTx {side : Side} {b : Bool} {d₀ d : Db} {x : Handler α}
    {Q : Except Exc α → Db → Prop} (h : Act.Sat (TxStep g answers t side.role) (TxDuty t) x Q d) :
    Act.Sat (LocalStep g answers t F) (Duty g t F G) x
      (fun r l => ∃ d', l = ⟨side, some (d₀, d'), b⟩ ∧ Q r d') ⟨side, some (d₀, d), b⟩ := by
  refine Prog.Sat.lift (f := fun d => Loc.mk side (some (d₀, d)) b) ?_ h
  rintro c d r l ⟨v, hsees, hok, heffect⟩
  have hv : v = ⟨true, d⟩ := hsees
  subst hv
  cases c with
  | store c =>
    rcases heffect with ⟨hr, hl⟩ | ⟨htx, -⟩
    · exact ⟨_, ⟨hok, hr, rfl⟩, fun _ => ⟨fun htx => absurd htx (by simp), hl⟩⟩
    · exact absurd htx (by simp)
  | ext e => exact ⟨d, ⟨hok, heffect.1, rfl⟩, fun _ => ⟨trivial, heffect.2⟩⟩
  | getAdapterKey => exact ⟨d, ⟨hok, rfl⟩, fun _ => ⟨trivial, heffect.2⟩⟩
  | setAdapterKey key => exact ⟨d, rfl, fun hkey => ⟨hkey, heffect.2⟩⟩
  | sync k =>
    have hnested : k = .enterShared → side.role = .writer → t.nested := by
      intro hk hrole
      subst hk
      cases side <;> simp only [LocalEffect, Loc.next] at heffect
      · exact absurd hrole (by decide)
      · exact absurd hrole (by decide)
      · exact absurd hrole (by decide)
      · exact heffect.1 trivial hrole
    exact ⟨d, ⟨hnested, rfl⟩, fun hfalse => hfalse.elim⟩

/-- `async with backend.transaction():`, under one side of the lock.  The task starts from what is
committed; what it leaves behind must be fit to be committed. -/
theorem local_withTransaction {side : Side} {b : Bool} {x : Handler α}
    {Q : Except Exc α → Loc → Prop} (hside : side = .shared ∨ ∃ L, side = .exclusive L)
    (hbody : ∀ d, t.invariant d → F b d.toLineage → (∀ L, side = .exclusive L → d.toLineage = L) →
      Act.Sat (TxStep g answers t side.role) (TxDuty t) x
        (onOk (fun a d' => t.invariant d' ∧ F false d'.toLineage ∧ G d.toLineage d'.toLineage ∧
            ∀ side', side'.role = side.role → Q (.ok a) ⟨side', none, false⟩)
          fun _ _ => True) d)
    (hfail : ∀ e, Q (.error e) ⟨side, none, b⟩) :
    Act.Sat (LocalStep g answers t F) (Duty g t F G) (withTransaction x) Q ⟨side, none, b⟩ := by
  have hnone : (⟨side, none, b⟩ : Loc).tx = none := rfl
  have hbegin : ∀ d, (⟨side, none, b⟩ : Loc).next d .begin = some ⟨side, some (d, d), b⟩ := by
    intro d
    rcases hside with rfl | ⟨L, rfl⟩
    · rfl
    · rfl
  have hrollback : ∀ d d₀ d₁,
      (⟨side, some (d₀, d₁), b⟩ : Loc).next d .rollback = some ⟨side, none, b⟩ := by
    intro d d₀ d₁
    rcases hside with rfl | ⟨L, rfl⟩
    · rfl
    · rfl
  have hcommit : ∀ d₀ d₁, ∃ side', side'.role = side.role ∧
      ∀ d, (⟨side, some (d₀, d₁), b⟩ : Loc).next d .commit = some ⟨side', none, false⟩ := by
    intro d₀ d₁
    rcases hside with rfl | ⟨L, rfl⟩
    · exact ⟨.shared, rfl, fun _ => rfl⟩
    · exact ⟨.exclusive d₁.toLineage, rfl, fun _ => rfl⟩
  rw [withTransaction, Act.sat_bind]
  rintro r l₁ ⟨⟨inTx, d⟩, hsees, -, heffect⟩
  refine ⟨⟨fun d' => by rw [hbegin]; rfl, fun hk => absurd hk (by decide)⟩, ?_⟩
  simp only [LocalEffect, hbegin] at heffect
  rcases heffect with ⟨rfl, rfl⟩ | ⟨-, ⟨e, rfl⟩, rfl⟩
  · simp only [Loc.Sees] at hsees
    obtain ⟨-, hJ, hF, hexcl⟩ := hsees
    change Act.Sat _ _ (Act.attempt _ >>= _) _ _
    rw [Act.sat_bind, Act.sat_attempt, Act.sat_bind]
    refine Act.Sat.mono (local_inTx (hbody d hJ hF hexcl)) ?_
    rintro (e | a) l₂ ⟨d', rfl, hout⟩
    · -- the body raised: roll back
      rintro r l₃ ⟨v, -, -, heffect⟩
      simp only [LocalEffect, hrollback] at heffect
      rcases heffect with ⟨rfl, rfl⟩ | ⟨hk, -⟩
      · exact ⟨⟨fun d' => by rw [hrollback]; rfl, fun hk => absurd hk (by decide)⟩, hfail e⟩
      · exact absurd hk (by decide)
    · obtain ⟨hJ', hF', hG', hQ⟩ := hout
      obtain ⟨side', hrole, hnext⟩ := hcommit d d'
      rintro r l₃ ⟨v, -, -, heffect⟩
      simp only [LocalEffect, hnext] at heffect
      rcases heffect with ⟨rfl, rfl⟩ | ⟨hk, -⟩
      · refine ⟨⟨fun d' => by rw [hnext]; rfl, fun _ d₀ d₁ htx => ?_⟩, hQ side' hrole⟩
        obtain ⟨rfl, rfl⟩ := Prod.mk.inj (Option.some.inj htx)
        exact ⟨hJ', hF', hG'⟩
      · exact absurd hk (by decide)
  · exact hfail e

/-! ## 4. Under the exclusive side, without a transaction -/

/-- A call of a task that holds the exclusive side: it knows the lineage, and of the other tables
only that the invariant holds. -/
def ExclusiveStep (g : Setup) (answers : Answers) (t : Terms) : Trans Call Call.Res Exc Lineage
  | .store c, L, r, L' => ∃ d, t.invariant d ∧ d.toLineage = L ∧ t.condition (.store c) ⟨false, d⟩ r ∧
      ((r = (c.exec g d).1 ∧ L' = (c.exec g d).2.toLineage) ∨ (∃ e, r = .error e) ∧ L' = L)
  | .ext e, L, r, L' => answers e r ∧ L' = L
  | .getAdapterKey, L, _, L' => L' = L
  | .setAdapterKey _, L, _, L' => L' = L
  | .sync _, L, _, L' => L' = L

/-- Every write keeps the invariant and stays within the guarantee; it is no commit of a node. -/
def ExclusiveDuty (g : Setup) (t : Terms) (F : Bool → Lineage → Prop)
    (G : Lineage → Lineage → Prop) : Trans Call Call.Res Exc Lineage
  | .store c, L, _, _ => c.commits = false ∧ ∀ d, t.invariant d → d.toLineage = L →
      t.condition (.store c) ⟨false, d⟩ (c.exec g d).1 → t.invariant (c.exec g d).2 ∧
        (∀ b, F b L → F b (c.exec g d).2.toLineage) ∧ G L (c.exec g d).2.toLineage
  | .sync _, _, _, _ => False
  | .setAdapterKey key, _, _, _ => t.keys (some key)
  | _, _, _, _ => True

theorem acts_exclusiveStep (hlaw : answers.Lawful) : Acts g (ExclusiveStep g answers t) id where
  store := by
    rintro c L r L' ⟨d, -, hd, -, ⟨hr, hL'⟩ | ⟨he, hL'⟩⟩
    · exact Or.inr ⟨d, hd, hr, hL'⟩
    · obtain ⟨e, rfl⟩ := he
      exact Or.inl ⟨e, rfl, hL'⟩
  ext := fun ht => ⟨hlaw _ _ ht.1, ht.2⟩
  sync := fun _ ht => ht
  getKey := fun ht => ht
  setKey := fun ht => ht

/-- A quiet call does its duty. -/
theorem exclusiveDuty_quiet (h : Gentle g t G) (hkeys : ∀ key, t.keys key) :
    ∀ c L r L', c.Quiet → ExclusiveDuty g t F G c L r L' := by
  intro c L r L' hc
  cases c with
  | sync k => exact absurd hc id
  | ext e => trivial
  | getAdapterKey => trivial
  | setAdapterKey key => exact hkeys (some key)
  | store c =>
    refine ⟨Store.not_commits hc, fun d hJ hd _ => ?_⟩
    have hlin : (c.exec g d).2.toLineage = L := (Store.exec_toLineage g d c hc).trans hd
    rw [hlin]
    exact ⟨h.store c d hc hJ, fun _ hF => hF, h.refl L⟩

/-- **The section under the exclusive side is verified over the lineage.** -/
theorem local_inExclusive {b : Bool} {L : Lineage} {x : Handler α}
    {Q : Except Exc α → Lineage → Prop}
    (h : Act.Sat (ExclusiveStep g answers t) (ExclusiveDuty g t F G) x Q L) :
    Act.Sat (LocalStep g answers t F) (Duty g t F G) x
      (fun r l => ∃ L', l = ⟨.exclusive L', none, b⟩ ∧ Q r L') ⟨.exclusive L, none, b⟩ := by
  refine Prog.Sat.lift (f := fun L => Loc.mk (.exclusive L) none b) ?_ h
  rintro c L r l ⟨⟨inTx, d⟩, hsees, hok, heffect⟩
  obtain ⟨rfl, hJ, -, hexcl⟩ := hsees
  have hd : d.toLineage = L := hexcl L rfl
  have hduty : ∀ c : Store, ExclusiveDuty g t F G (.store c) L (c.exec g d).1 L →
      Duty g t F G (.store c) ⟨.exclusive L, none, b⟩ (c.exec g d).1 ⟨.exclusive L, none, b⟩ := by
    rintro c ⟨hcommits, hwrite⟩ - ⟨inTx', d'⟩ hsees' hok'
    obtain ⟨rfl, hJ', hF', hexcl'⟩ := hsees'
    obtain ⟨hkeep, hown, hG⟩ := hwrite d' hJ' (hexcl' L rfl) hok'
    have hd' : d'.toLineage = L := hexcl' L rfl
    change F b d'.toLineage at hF'
    rw [hd'] at hF'
    refine ⟨hkeep, ?_, ?_⟩
    · rw [hcommits, Bool.not_false, Bool.and_true]
      exact hown b hF'
    · change G d'.toLineage _
      rw [hd']
      exact hG
  cases c with
  | store c =>
    rcases heffect with ⟨rfl, rfl⟩ | ⟨-, he, rfl⟩
    · refine ⟨_, ⟨d, hJ, hd, hok, Or.inl ⟨rfl, rfl⟩⟩, fun hex => ⟨hduty c hex, ?_⟩⟩
      simp only [Loc.wrote, hex.1, Bool.not_false, Bool.and_true]
    · exact ⟨L, ⟨d, hJ, hd, hok, Or.inr ⟨he, rfl⟩⟩, fun hex => ⟨hduty c hex, rfl⟩⟩
  | ext e => exact ⟨L, ⟨heffect.1, rfl⟩, fun _ => ⟨trivial, heffect.2⟩⟩
  | getAdapterKey => exact ⟨L, rfl, fun _ => ⟨trivial, heffect.2⟩⟩
  | setAdapterKey key => exact ⟨L, rfl, fun hkey => ⟨hkey, heffect.2⟩⟩
  | sync k => exact ⟨L, rfl, fun hfalse => hfalse.elim⟩

end GovernorGateway
