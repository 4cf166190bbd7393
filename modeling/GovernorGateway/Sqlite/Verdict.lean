/-
# The verdict on an affected compaction

Both backends classify an affected compaction with the same tests in the same order, and neither
looks at the record it has unless that record is final.  `verdict` is what they store; `Classified`
is the effect of the whole loop on the records.
-/
import GovernorGateway.Sqlite.Repair

namespace GovernorGateway

/-! ## 1. The verdict -/

/-- What is stored for a compaction without a final record; `none` for a node that is not there. -/
def verdict (checkpoints : List Checkpoint) (reached : List NodeId) (rollback : Bool) :
    Option Payload → Option RepairCandidate
  | node =>
    if rollback then
      some { disposition := .irreducible, reason := some "semantic_rollback_hazard",
             escalationRecord :=
               some "Quarantined subgraph contains irreversible external effects" }
    else
      match node with
      | none => none
      | some p =>
        let frontier := p.covers.filter (· ∉ reached)
        if frontier = [] then
          some { disposition := .irreducible, reason := some "empty_frontier",
                 escalationRecord := some "Requires human review" }
        else if p.methodId = some "llm-v1" then
          match checkpoints.find? fun cp => cp.targetNodeId ∈ frontier with
          | none =>
            some { disposition := .irreducible, reason := some "no_admissible_checkpoint",
                   escalationRecord := some "Requires human review" }
          | some cp =>
            some { disposition := .pendingReconstruction, frontier := frontier,
                   method := some "verified_checkpoint_reconstruction", checkpoint := some cp }
        else
          some { disposition := .irreducible, reason := some "no_reconstruction_backend",
                 escalationRecord := some "Unknown summarizer method" }

/-- What a record says: the disposition, the reason and the frontier. -/
abbrev Finding := Disposition × Option String × List NodeId

def RepairCandidate.finding (rc : RepairCandidate) : Finding := (rc.disposition, rc.reason, rc.frontier)

/-- What the record kept for a node says. -/
def findingOf (rcs : List (NodeId × RepairCandidate)) (x : NodeId) : Option Finding :=
  (Keyed.lookup Prod.fst rcs x).map fun row => row.2.finding

/-- The record is final. -/
def finalIn (rcs : List (NodeId × RepairCandidate)) (x : NodeId) : Bool :=
  match findingOf rcs x with
  | some f => f.1 ≠ .pendingReconstruction
  | none => false

section Verdict

variable {checkpoints checkpoints' : List Checkpoint} {reached reached' : List NodeId}
  {rollback : Bool} {p : Payload}

/-- A node that is there gets a verdict. -/
theorem verdict_isSome : (verdict checkpoints reached rollback (some p)).isSome = true := by
  unfold verdict
  split
  · rfl
  · dsimp only
    split
    · rfl
    · split
      · split
        · rfl
        · rfl
      · rfl

/-- The finding depends on WHICH nodes are reached and have checkpoints, not on their order. -/
theorem verdict_congr (hreached : ∀ x, x ∈ reached ↔ x ∈ reached')
    (hcheckpoints : ∀ cp, cp ∈ checkpoints ↔ cp ∈ checkpoints') (node : Option Payload) :
    (verdict checkpoints reached rollback node).map RepairCandidate.finding =
      (verdict checkpoints' reached' rollback node).map RepairCandidate.finding := by
  cases rollback with
  | true => rfl
  | false =>
    cases node with
    | none => rfl
    | some p =>
      have hfrontier : p.covers.filter (· ∉ reached) = p.covers.filter (· ∉ reached') :=
        List.filter_congr fun x _ => by rw [decide_eq_decide, hreached x]
      simp only [verdict, Bool.false_eq_true, if_false, hfrontier]
      split
      · rfl
      · split
        · cases hfind : checkpoints.find?
            fun cp => cp.targetNodeId ∈ p.covers.filter (· ∉ reached') with
          | none =>
            have hfind' : (checkpoints'.find?
                fun cp => cp.targetNodeId ∈ p.covers.filter (· ∉ reached')) = none := by
              rw [List.find?_eq_none] at hfind ⊢
              exact fun cp hcp => hfind cp ((hcheckpoints cp).mpr hcp)
            rw [hfind']
          | some cp =>
            obtain ⟨cp', hcp'⟩ : ∃ cp', (checkpoints'.find?
                fun cp => cp.targetNodeId ∈ p.covers.filter (· ∉ reached')) = some cp' := by
              rw [← Option.isSome_iff_exists, List.find?_isSome]
              have htarget := List.find?_some hfind
              exact ⟨cp, (hcheckpoints cp).mp (List.mem_of_find?_eq_some hfind), htarget⟩
            rw [hcp']
            rfl
        · rfl

/-- **The verdict "pending"**: no rollback, something left of what it covers, the method that is
known, and a checkpoint of what is left. -/
theorem verdict_pending_iff {reason : Option String} {frontier : List NodeId} :
    (verdict checkpoints reached rollback (some p)).map RepairCandidate.finding =
        some (.pendingReconstruction, reason, frontier) ↔
      reason = none ∧ rollback = false ∧ frontier = p.covers.filter (· ∉ reached) ∧ frontier ≠ [] ∧
        p.methodId = some "llm-v1" ∧ ∃ cp ∈ checkpoints, cp.targetNodeId ∈ frontier := by
  cases rollback with
  | true => simp [verdict, RepairCandidate.finding]
  | false =>
    simp only [verdict, Bool.false_eq_true, if_false]
    split
    · rename_i hempty
      constructor
      · intro h
        exact absurd (congrArg (fun o => o.map Prod.fst) h) (by simp [RepairCandidate.finding])
      · rintro ⟨-, -, rfl, hne, -⟩
        exact absurd hempty hne
    · rename_i hne
      split
      · rename_i hmethod
        cases hfind : checkpoints.find?
          fun cp => cp.targetNodeId ∈ p.covers.filter (· ∉ reached) with
        | none =>
          constructor
          · intro h
            exact absurd (congrArg (fun o => o.map Prod.fst) h) (by simp [RepairCandidate.finding])
          · rintro ⟨-, -, rfl, -, -, cp, hcp, htarget⟩
            exact absurd (List.find?_eq_none.mp hfind cp hcp) (by simpa using htarget)
        | some cp =>
          have htarget : cp.targetNodeId ∈ p.covers.filter (· ∉ reached) := by
            simpa using List.find?_some hfind
          constructor
          · intro h
            have hfinding := Option.some.inj h
            simp only [RepairCandidate.finding, Prod.mk.injEq, true_and] at hfinding
            obtain ⟨rfl, rfl⟩ := hfinding
            exact ⟨rfl, trivial, rfl, hne, hmethod, cp, List.mem_of_find?_eq_some hfind, htarget⟩
          · rintro ⟨rfl, -, rfl, -⟩
            rfl
      · rename_i hmethod
        constructor
        · intro h
          exact absurd (congrArg (fun o => o.map Prod.fst) h) (by simp [RepairCandidate.finding])
        · rintro ⟨-, -, -, -, h, -⟩
          exact absurd h hmethod

end Verdict

/-! ## 2. The loop -/

/-- What the records say after a loop over `xs`: each of these without a final record gets its
verdict, if there is one. -/
def Classified (judge : NodeId → Option RepairCandidate) (xs : List NodeId)
    (rcs rcs' : List (NodeId × RepairCandidate)) : Prop :=
  ∀ x, findingOf rcs' x =
    if x ∈ xs ∧ finalIn rcs x = false then
      ((judge x).map RepairCandidate.finding).or (findingOf rcs x)
    else findingOf rcs x

section Loop

variable {judge : NodeId → Option RepairCandidate} {rcs rcs₁ rcs₂ : List (NodeId × RepairCandidate)}
  {x : NodeId} {xs : List NodeId}

theorem Classified.nil : Classified judge [] rcs rcs := fun x => by simp

theorem finalIn_congr (h : findingOf rcs x = findingOf rcs₁ x) : finalIn rcs x = finalIn rcs₁ x := by
  rw [finalIn, finalIn, h]

/-- A round that stores nothing. -/
theorem Classified.skip (hnone : finalIn rcs x = true ∨ judge x = none)
    (h : Classified judge xs rcs rcs₂) : Classified judge (x :: xs) rcs rcs₂ := by
  intro y
  rw [h y]
  by_cases hy : y = x
  · subst hy
    rcases hnone with hfinal | hnone
    · simp [hfinal]
    · simp [hnone]
  · simp [hy]

/-- A round that stores the verdict; a later round for the same node changes nothing more. -/
theorem Classified.store {rc : RepairCandidate} (hopen : finalIn rcs x = false)
    (hjudge : judge x = some rc)
    (hput : ∀ y, findingOf rcs₁ y = if y = x then some rc.finding else findingOf rcs y)
    (h : Classified judge xs rcs₁ rcs₂) : Classified judge (x :: xs) rcs rcs₂ := by
  intro y
  rw [h y]
  by_cases hy : y = x
  · subst hy
    have hfound : findingOf rcs₁ y = some rc.finding := by rw [hput, if_pos rfl]
    simp only [hfound, hjudge, List.mem_cons, true_or, hopen, and_self, if_true, Option.map_some,
      Option.some_or, ite_self]
  · have hsame : findingOf rcs₁ y = findingOf rcs y := by rw [hput, if_neg hy]
    simp only [hsame, finalIn_congr hsame, List.mem_cons, hy, false_or]

end Loop

/-! ## 3. The loop of the SQLite backend -/

namespace Db

variable {db : Db} {visited : List NodeId} {rollback : Bool} {x : NodeId}

theorem terminal_eq : db.terminal x = finalIn db.repairCandidates x := by
  rw [terminal, finalIn, findingOf]
  cases Keyed.lookup Prod.fst db.repairCandidates x with
  | none => rfl
  | some row => rfl

/-- Without a final record the verdict is stored. -/
theorem classify_eq : db.classify visited rollback x =
    if finalIn db.repairCandidates x then none
    else verdict db.checkpoints visited rollback (db.payload? x) := by
  rw [classify, terminal_eq]
  split
  · rfl
  · cases rollback with
    | true => rfl
    | false => cases db.payload? x <;> rfl

theorem findingOf_setRepairCandidate {rc : RepairCandidate} (y : NodeId) :
    findingOf (setRepairCandidate x rc db).repairCandidates y =
      if y = x then some rc.finding else findingOf db.repairCandidates y := by
  rw [findingOf, setRepairCandidate, Keyed.lookup_insertOrReplace]
  by_cases hy : x = y
  · rw [if_pos hy, if_pos hy.symm]
    rfl
  · rw [if_neg hy, if_neg (Ne.symm hy), findingOf]

theorem classified (visited : List NodeId) (rollback : Bool) : ∀ (xs : List NodeId) (db : Db),
    Classified (fun x => verdict db.checkpoints visited rollback (db.payload? x)) xs
      db.repairCandidates (classifyAll visited rollback xs db).repairCandidates
  | [], _ => Classified.nil
  | x :: xs, db => by
    rw [classifyAll, classify_eq]
    cases hfinal : finalIn db.repairCandidates x with
    | true => exact Classified.skip (Or.inl hfinal) (classified visited rollback xs db)
    | false =>
      simp only [Bool.false_eq_true, if_false]
      cases hverdict : verdict db.checkpoints visited rollback (db.payload? x) with
      | none => exact Classified.skip (Or.inr hverdict) (classified visited rollback xs db)
      | some rc =>
        exact Classified.store hfinal hverdict findingOf_setRepairCandidate
          (classified visited rollback xs (setRepairCandidate x rc db))

/-- Storing a record does not change what is made of another node. -/
theorem classify_setRepairCandidate_ne {rc : RepairCandidate} {y : NodeId} (h : y ≠ x) :
    (setRepairCandidate x rc db).classify visited rollback y = db.classify visited rollback y := by
  have hfinal : finalIn (setRepairCandidate x rc db).repairCandidates y =
      finalIn db.repairCandidates y :=
    finalIn_congr (by rw [findingOf_setRepairCandidate, if_neg h])
  rw [classify_eq, classify_eq, hfinal]
  rfl

/-- Once its record is stored a node is passed over, or gets the same record again. -/
theorem classify_setRepairCandidate {rc rc' : RepairCandidate}
    (h : db.classify visited rollback x = some rc)
    (h' : (setRepairCandidate x rc db).classify visited rollback x = some rc') : rc' = rc := by
  rw [classify_eq] at h h'
  split at h
  · exact absurd h (by simp)
  · split at h'
    · exact absurd h' (by simp)
    · exact Option.some.inj (h'.symm.trans h)

/-- **The rows after the loop**: a node of the list that something is made of has that for its
record, and every other node what it had. -/
theorem mem_classifyAll {row : NodeId × RepairCandidate} : ∀ (xs : List NodeId) (db : Db),
    row ∈ (classifyAll visited rollback xs db).repairCandidates ↔
      (row.1 ∈ xs ∧ db.classify visited rollback row.1 = some row.2) ∨
        ((row.1 ∈ xs → db.classify visited rollback row.1 = none) ∧ row ∈ db.repairCandidates)
  | [], db => by simp [classifyAll]
  | x :: xs, db => by
    rw [classifyAll]
    cases hx : db.classify visited rollback x with
    | none =>
      dsimp only
      rw [mem_classifyAll xs db, List.mem_cons]
      by_cases hrow : row.1 = x
      · simp [hrow, hx]
      · simp [hrow]
    | some rc =>
      dsimp only
      rw [mem_classifyAll xs, List.mem_cons]
      by_cases hrow : row.1 = x
      · subst hrow
        have hstored : row ∈ (setRepairCandidate row.1 rc db).repairCandidates ↔ rc = row.2 := by
          rw [setRepairCandidate, Keyed.mem_insertOrReplace]
          constructor
          · rintro (⟨-, hne⟩ | heq)
            · exact absurd rfl hne
            · exact (congrArg Prod.snd heq).symm
          · exact fun heq => Or.inr (by rw [heq])
        rw [hstored, hx]
        constructor
        · rintro (⟨-, hagain⟩ | ⟨-, rfl⟩)
          · exact Or.inl ⟨Or.inl rfl, by rw [classify_setRepairCandidate hx hagain]⟩
          · exact Or.inl ⟨Or.inl rfl, rfl⟩
        · rintro (⟨-, hrc⟩ | ⟨hnone, -⟩)
          · obtain rfl := Option.some.inj hrc
            cases hagain : (setRepairCandidate row.1 row.2 db).classify visited rollback row.1 with
            | none => exact Or.inr ⟨fun _ => rfl, rfl⟩
            | some rc' =>
              by_cases hmem : row.1 ∈ xs
              · exact Or.inl ⟨hmem, by rw [classify_setRepairCandidate hx hagain]⟩
              · exact Or.inr ⟨fun h => absurd h hmem, rfl⟩
          · exact absurd (hnone (Or.inl rfl)) (by simp)
      · have hsame : row ∈ (setRepairCandidate x rc db).repairCandidates ↔
            row ∈ db.repairCandidates := by
          rw [setRepairCandidate, Keyed.mem_insertOrReplace]
          constructor
          · rintro (⟨h, -⟩ | rfl)
            · exact h
            · exact absurd rfl hrow
          · exact fun h => Or.inl ⟨h, hrow⟩
        rw [classify_setRepairCandidate_ne hrow, hsame]
        simp [hrow]

/-- Everything the loop would store is stored already. -/
theorem classifyAll_same_iff {xs : List NodeId} :
    (∀ row, row ∈ (classifyAll visited rollback xs db).repairCandidates ↔
      row ∈ db.repairCandidates) ↔
    ∀ y ∈ xs, ∀ rc, db.classify visited rollback y = some rc →
      ∀ rc', (y, rc') ∈ db.repairCandidates ↔ rc' = rc := by
  constructor
  · intro hsame y hy rc hrc rc'
    rw [← hsame, mem_classifyAll, hrc]
    constructor
    · rintro (⟨-, heq⟩ | ⟨hnone, -⟩)
      · exact (Option.some.inj heq).symm
      · exact absurd (hnone hy) (by simp)
    · rintro rfl
      exact Or.inl ⟨hy, rfl⟩
  · rintro hstored ⟨y, rc'⟩
    rw [mem_classifyAll]
    constructor
    · rintro (⟨hy, hrc⟩ | ⟨-, hrow⟩)
      · exact (hstored y hy rc' hrc rc').mpr rfl
      · exact hrow
    · intro hrow
      by_cases hy : y ∈ xs
      · cases hrc : db.classify visited rollback y with
        | none => exact Or.inr ⟨fun _ => rfl, hrow⟩
        | some rc =>
          obtain rfl := (hstored y hy rc hrc rc').mp hrow
          exact Or.inl ⟨hy, rfl⟩
      · exact Or.inr ⟨fun h => absurd h hy, hrow⟩

end Db

end GovernorGateway
