/-
# What two equal state digests say

`compute_state_digest` is recorded before and after a reintegration as evidence of what was there.
Two states that runs of requests can reach, with equal digests and no collision among the texts that
were hashed, have the same ids, the same ledger, and of each node the same TEXT of content hash and
parents.  They need not have the same parents: an id is any string, so that of one parent can spell
what is elsewhere a parent, its hash and the id of the next one.

`digest_identifies_of_runs`: the digest identifies the lineage exactly when no such text is cut in
two ways.  `digest_misreads`: two runs of submissions that end with one digest and two sets of
parents.
-/
import GovernorGateway.Sqlite.Digest
import GovernorGateway.Semantics.Stable
import GovernorGateway.Semantics.Scripted

namespace GovernorGateway

open Effects

/-! ## 1. Whole runs -/

variable {g g' : Setup} {answers answers' : Answers}

/-- What a digest rests on: every row is as it was written, and ids are keys. -/
structure Lineage.Digestible (sha256 : String → String) (L : Lineage) : Prop where
  written : L.Written sha256
  nodup : L.nodeIds.Nodup
  ledger_nodup : L.ledger.Nodup

theorem Lineage.digestible_reset (sha256 : String → String) (db : Db) :
    (db.reset sha256).toLineage.Digestible sha256 := by
  rw [Db.reset_toLineage]
  refine ⟨?_, List.nodup_singleton _, List.nodup_singleton _⟩
  intro n hn
  obtain rfl := List.mem_singleton.mp hn
  rfl

/-- A run keeps it. -/
theorem Run.digestible {w w' : World} {hs : List Handled} (hrun : Run g (Step g answers) w hs w')
    (hsaved : w.saved = none) (hw : w.lin.Digestible g.env.sha256) :
    w'.lin.Digestible g.env.sha256 :=
  hrun.stable (K := fun db => db.toLineage.Digestible g.env.sha256)
    (Store.exec_lineage
      (fun _ _ h => ⟨h.1.commitNode, Lineage.nodup_nodeIds_commitNode h.2, by
        rw [Lineage.commitNode_ledger]
        exact h.3⟩)
      fun ids L h => ⟨h.1, h.2, Lineage.nodup_foldl_insertOrIgnore ids L.ledger h.3⟩) hsaved hw

/-- **When a state digest identifies the lineage.**  Two runs from `reset`, with one hash function
that has no collision among the texts the two digests rest on: equal digests mean the same ids, the
same content hash and parents of every node and the same ledger, unless the two states spell all of
this alike and some node's text is cut in two ways. -/
theorem digest_identifies_of_runs {db db' : Db} {adapterKey adapterKey' : Option String}
    {hs hs' : List Handled} {w w' : World} (hfun : g'.env.sha256 = g.env.sha256)
    (hrun : Run g (Step g answers) (World.initial g db adapterKey) hs w)
    (hrun' : Run g' (Step g' answers') (World.initial g' db' adapterKey') hs' w')
    (hsha : Set.InjOn g.env.sha256 (w.lin.hashedTexts ∪ w'.lin.hashedTexts)) :
    (w.db.computeStateDigest g.env.sha256 = w'.db.computeStateDigest g'.env.sha256 →
      w.lin.SameLineage w'.lin) ↔ ¬ w.lin.Misread w'.lin := by
  have h := hrun.digestible rfl (Lineage.digestible_reset g.env.sha256 db)
  have h' := hrun'.digestible rfl (Lineage.digestible_reset g'.env.sha256 db')
  rw [hfun] at h' ⊢
  exact Lineage.digest_identifies_iff h.written h'.written h.nodup h'.nodup h.ledger_nodup
    h'.ledger_nodup hsha

/-! ## 2. A table of hashes -/

/-- The texts that are hashed in the runs below, but for that of the state, and what SHA-256 makes
of them. -/
def knownHashes : List (String × String) :=
  [("\x7b\x7d", emptyDigest),
    ("", "e3b0c44298fc1c149afbf4c8996fb92427ae41e4649b934ca495991b7852b855"),
    (emptyDigest ++ "clean-parent-1:" ++ zeros64,
      "8c68e0caf4b3ccee956305178484cd6b5f2b9e57d947dbc2a50f8c40ecfc012d"),
    (emptyDigest ++ "clean-parent-1:" ++ zeros64 ++ "node-b:" ++ emptyDigest,
      "0a97bee002bad72ebcdcc24a7b654733a2b9000f288bfdb70f9931d00fa8ac92")]

/-- The open deployment, with the SHA-256 of these texts and of the state they end in. -/
def digestSetup (digest : String) : Setup :=
  { openSetup with
    env := { openSetup.env with
      sha256 := fun s => (Keyed.lookup Prod.fst knownHashes s).elim digest Prod.snd } }

theorem nodup_knownHashes :
    (knownHashes.map Prod.fst).Nodup ∧ (knownHashes.map Prod.snd).Nodup := by
  decide +kernel

theorem sha256_known {digest : String} {r : String × String} (hr : r ∈ knownHashes) :
    (digestSetup digest).env.sha256 r.1 = r.2 := by
  change (Keyed.lookup Prod.fst knownHashes r.1).elim digest Prod.snd = r.2
  rw [Keyed.lookup_of_mem nodup_knownHashes.1 hr]
  rfl

/-- The text of a state is not in the table. -/
theorem sha256_stateText (digest : String) (L : Lineage) :
    (digestSetup digest).env.sha256 L.stateText = digest := by
  have hall : ∀ s ∈ knownHashes.map Prod.fst, s.toList.take 2 ≠ [Char.ofNat 123, Char.ofNat 34] := by
    decide +kernel
  have hnone : Keyed.lookup Prod.fst knownHashes L.stateText = none :=
    Keyed.lookup_eq_none.mpr fun hmem => hall _ hmem (Lineage.take_stateText L)
  change (Keyed.lookup Prod.fst knownHashes L.stateText).elim digest Prod.snd = digest
  rw [hnone]
  rfl

/-- No collision among the texts of the table and one state. -/
theorem injOn_hashedTexts {digest : String} (hdigest : digest ∉ knownHashes.map Prod.snd)
    {L M : Lineage} (htext : L.stateText = M.stateText)
    (hL : ∀ n ∈ L.nodes, n.payload.spelled ∈ knownHashes.map Prod.fst)
    (hM : ∀ n ∈ M.nodes, n.payload.spelled ∈ knownHashes.map Prod.fst) :
    Set.InjOn (digestSetup digest).env.sha256 (L.hashedTexts ∪ M.hashedTexts) := by
  have hcases : ∀ t ∈ L.hashedTexts ∪ M.hashedTexts,
      t = L.stateText ∨ t ∈ knownHashes.map Prod.fst := by
    rintro t ((rfl | ⟨n, hn, rfl⟩) | (rfl | ⟨n, hn, rfl⟩))
    · exact Or.inl rfl
    · exact Or.inr (hL n hn)
    · exact Or.inl htext.symm
    · exact Or.inr (hM n hn)
  intro s hs t ht heq
  rcases hcases s hs with rfl | hs
  · rcases hcases t ht with rfl | ht
    · rfl
    · obtain ⟨r, hr, rfl⟩ := List.mem_map.mp ht
      rw [sha256_stateText, sha256_known hr] at heq
      exact absurd (heq ▸ List.mem_map_of_mem hr) hdigest
  · obtain ⟨r, hr, rfl⟩ := List.mem_map.mp hs
    rcases hcases t ht with rfl | ht
    · rw [sha256_stateText, sha256_known hr] at heq
      exact absurd (heq ▸ List.mem_map_of_mem hr) hdigest
    · obtain ⟨r', hr', rfl⟩ := List.mem_map.mp ht
      rw [sha256_known hr, sha256_known hr'] at heq
      rw [List.inj_on_of_nodup_map nodup_knownHashes.2 hr hr' heq]

/-! ## 3. Two pairs of runs -/

/-- A submission without content. -/
def digestSubmission (id : NodeId) (parents : List (NodeId × String)) : Request :=
  .submitCandidate 512 (.payload { openPayload "agent" id [] with
    parents := parents.map fun c => { parentNodeId := c.1, parentContentHash := some c.2 } })

/-- A child of the root. -/
def digestChild (id : NodeId) : Request := digestSubmission id [("clean-parent-1", zeros64)]

/-- An id that spells a parent, its hash and the id of another one. -/
def spelledId : NodeId := "clean-parent-1:" ++ zeros64 ++ "node-b"

/-- The world after these requests. -/
def digestWorld (digest : String) (reqs : List Request) : World :=
  Script.handleAll (digestSetup digest) (openRun reqs) (World.initial (digestSetup digest) {} none)

/-- A row of the digest, with the content hash and the parents it stands for. -/
structure ProfileRow where
  row : NodeId × String
  content : String
  parents : List (NodeId × String)
  deriving DecidableEq

def NodeRow.profile (n : NodeRow) : ProfileRow :=
  ⟨(n.nodeId, n.commitment), n.payload.contentDigest.getD "", n.payload.parentPairs⟩

/-- What the examples look at: these rows, the ledger, and the texts of the commitments. -/
def Lineage.profile (L : Lineage) : List ProfileRow × List NodeId × List String :=
  (L.nodes.map NodeRow.profile, L.ledger, L.nodes.map fun n => n.payload.spelled)

theorem Lineage.digestRows_eq (L : Lineage) : L.digestRows = L.profile.1.map ProfileRow.row := by
  rw [digestRows, profile, List.map_map]
  rfl

theorem Lineage.mem_profile {L : Lineage} {n : NodeRow} (hn : n ∈ L.nodes) :
    n.profile ∈ L.profile.1 ∧ n.payload.spelled ∈ L.profile.2.2 :=
  ⟨List.mem_map_of_mem hn, List.mem_map_of_mem hn⟩

/-- Two runs in a deployment with the table: their states have one text and there is no collision,
if their profiles have the same rows and the same ledger and their texts are known. -/
theorem oneText_of_profiles {digest : String} (hdigest : digest ∉ knownHashes.map Prod.snd)
    {hs hs' : List Handled} {w w' : World}
    (hrun : Run (digestSetup digest) (Step (digestSetup digest) Answers.lawful)
      (World.initial (digestSetup digest) {} none) hs w)
    (hrun' : Run (digestSetup digest) (Step (digestSetup digest) Answers.lawful)
      (World.initial (digestSetup digest) {} none) hs' w')
    (hrows : ∀ r, r ∈ w.lin.profile.1.map ProfileRow.row ↔ r ∈ w'.lin.profile.1.map ProfileRow.row)
    (hledger : ∀ x, x ∈ w.lin.profile.2.1 ↔ x ∈ w'.lin.profile.2.1)
    (htexts : ∀ t ∈ w.lin.profile.2.2, t ∈ knownHashes.map Prod.fst)
    (htexts' : ∀ t ∈ w'.lin.profile.2.2, t ∈ knownHashes.map Prod.fst) :
    w.lin.stateText = w'.lin.stateText ∧
      Set.InjOn (digestSetup digest).env.sha256 (w.lin.hashedTexts ∪ w'.lin.hashedTexts) := by
  have h := hrun.digestible rfl (Lineage.digestible_reset _ {})
  have h' := hrun'.digestible rfl (Lineage.digestible_reset _ {})
  have htext : w.lin.stateText = w'.lin.stateText := by
    rw [Lineage.stateText_eq_iff h.nodup h'.nodup h.ledger_nodup h'.ledger_nodup,
      Lineage.digestRows_eq, Lineage.digestRows_eq]
    exact ⟨hrows, hledger⟩
  exact ⟨htext, injOn_hashedTexts hdigest htext (fun n hn => htexts _ (Lineage.mem_profile hn).2)
    fun n hn => htexts' _ (Lineage.mem_profile hn).2⟩

def rootRow : ProfileRow :=
  ⟨("clean-parent-1", "e3b0c44298fc1c149afbf4c8996fb92427ae41e4649b934ca495991b7852b855"), "", []⟩

/-- A child of the root, and its text. -/
def childRow (id : NodeId) : ProfileRow :=
  ⟨(id, "8c68e0caf4b3ccee956305178484cd6b5f2b9e57d947dbc2a50f8c40ecfc012d"), emptyDigest,
    [("clean-parent-1", zeros64)]⟩

def childText : String := emptyDigest ++ "clean-parent-1:" ++ zeros64

/-- The SHA-256 of the state with two children. -/
def childrenDigest : String := "9117c2c435fc51138a369145f0dc5fe2cb08c6d5d0e7fc38948046f2d43e03f5"

theorem profile_children :
    (digestWorld childrenDigest [digestChild "node-a", digestChild "node-b"]).lin.profile =
        ([rootRow, childRow "node-a", childRow "node-b"], ["quarantined-node-A"],
          ["", childText, childText]) ∧
      (digestWorld childrenDigest [digestChild "node-b", digestChild "node-a"]).lin.profile =
        ([rootRow, childRow "node-b", childRow "node-a"], ["quarantined-node-A"],
          ["", childText, childText]) := by
  decide +kernel

/-- Two children of the root, submitted in either order: the digests are equal, and so is everything
they stand for. -/
theorem digest_identifies_children :
    (digestWorld childrenDigest [digestChild "node-a", digestChild "node-b"]).lin.SameLineage
      (digestWorld childrenDigest [digestChild "node-b", digestChild "node-a"]).lin := by
  obtain ⟨hs, hrun, -⟩ := Script.exists_run (digestSetup childrenDigest)
    (openRun [digestChild "node-a", digestChild "node-b"])
    (World.initial (digestSetup childrenDigest) {} none)
  obtain ⟨hs', hrun', -⟩ := Script.exists_run (digestSetup childrenDigest)
    (openRun [digestChild "node-b", digestChild "node-a"])
    (World.initial (digestSetup childrenDigest) {} none)
  change Run _ _ _ hs (digestWorld childrenDigest [digestChild "node-a", digestChild "node-b"]) at hrun
  change Run _ _ _ hs' (digestWorld childrenDigest [digestChild "node-b", digestChild "node-a"]) at hrun'
  obtain ⟨hprofile, hprofile'⟩ := profile_children
  generalize digestWorld childrenDigest [digestChild "node-a", digestChild "node-b"] = w at *
  generalize digestWorld childrenDigest [digestChild "node-b", digestChild "node-a"] = w' at *
  have hknown : ∀ t ∈ ["", childText, childText], t ∈ knownHashes.map Prod.fst := by
    decide +kernel
  obtain ⟨htext, hsha⟩ := oneText_of_profiles (by decide +kernel) hrun hrun'
    (by rw [hprofile, hprofile']; exact fun r => ((List.Perm.swap _ _ _).cons _).mem_iff)
    (by rw [hprofile, hprofile']; exact fun x => Iff.rfl) (by rw [hprofile]; exact hknown)
    (by rw [hprofile']; exact hknown)
  refine (digest_identifies_of_runs rfl hrun hrun' hsha).mpr ?_ ?_
  · rintro ⟨-, n, hn, n', hn', hid, hrecut⟩
    have hall : ∀ r ∈ [rootRow, childRow "node-a", childRow "node-b"],
        ∀ r' ∈ [rootRow, childRow "node-b", childRow "node-a"], r.row.1 = r'.row.1 →
          r.content = r'.content ∧ r.parents = r'.parents := by
      decide +kernel
    have hrow := (Lineage.mem_profile hn).1
    have hrow' := (Lineage.mem_profile hn').1
    rw [hprofile] at hrow
    rw [hprofile'] at hrow'
    obtain ⟨hcontent, hparents⟩ := hall _ hrow _ hrow' hid
    have hpairs : n.payload.parentPairs = n'.payload.parentPairs := hparents
    exact hrecut.differ ⟨hcontent, fun c => by rw [hpairs]⟩
  · rw [Lineage.computeStateDigest_eq, Lineage.computeStateDigest_eq]
    exact congrArg _ htext

/-- The child of the root and `node-b`, or of the node that spells both. -/
def grandchild (parents : List (NodeId × String)) : ProfileRow :=
  ⟨("node-x", "0a97bee002bad72ebcdcc24a7b654733a2b9000f288bfdb70f9931d00fa8ac92"), emptyDigest, parents⟩

/-- The SHA-256 of the state with the grandchild. -/
def grandchildDigest : String := "4c6a7b0d0133ee29aa94e9f4e56de899ac8e9f9baf89be6004b88affcad31700"

/-- Two children of the root, and a node with these parents. -/
def grandchildRequests (parents : List (NodeId × String)) : List Request :=
  [digestChild "node-b", digestChild spelledId, digestSubmission "node-x" parents]

theorem profile_grandchildren :
    (digestWorld grandchildDigest (grandchildRequests
        [("clean-parent-1", zeros64), ("node-b", emptyDigest)])).lin.profile =
      ([rootRow, childRow "node-b", childRow spelledId,
          grandchild [("clean-parent-1", zeros64), ("node-b", emptyDigest)]], ["quarantined-node-A"],
        ["", childText, childText, childText ++ "node-b:" ++ emptyDigest]) ∧
    (digestWorld grandchildDigest (grandchildRequests [(spelledId, emptyDigest)])).lin.profile =
      ([rootRow, childRow "node-b", childRow spelledId, grandchild [(spelledId, emptyDigest)]],
        ["quarantined-node-A"], ["", childText, childText, childText ++ "node-b:" ++ emptyDigest]) := by
  decide +kernel

/-- **Two sets of parents, one digest.**  In both runs `node-b` and another node, whose id spells
the root, its hash and `node-b`, are children of the root; then one run submits a child of the root
and `node-b`, the other a child of the other node. -/
theorem digest_misreads : ¬ ∀ (hs hs' : List Handled) (w w' : World),
    Run (digestSetup grandchildDigest) (Step (digestSetup grandchildDigest) Answers.lawful)
      (World.initial (digestSetup grandchildDigest) {} none) hs w →
    Run (digestSetup grandchildDigest) (Step (digestSetup grandchildDigest) Answers.lawful)
      (World.initial (digestSetup grandchildDigest) {} none) hs' w' →
    Set.InjOn (digestSetup grandchildDigest).env.sha256 (w.lin.hashedTexts ∪ w'.lin.hashedTexts) →
    w.db.computeStateDigest (digestSetup grandchildDigest).env.sha256 =
      w'.db.computeStateDigest (digestSetup grandchildDigest).env.sha256 →
    w.lin.SameLineage w'.lin := by
  intro h
  obtain ⟨hs, hrun, -⟩ := Script.exists_run (digestSetup grandchildDigest)
    (openRun (grandchildRequests [("clean-parent-1", zeros64), ("node-b", emptyDigest)]))
    (World.initial (digestSetup grandchildDigest) {} none)
  obtain ⟨hs', hrun', -⟩ := Script.exists_run (digestSetup grandchildDigest)
    (openRun (grandchildRequests [(spelledId, emptyDigest)]))
    (World.initial (digestSetup grandchildDigest) {} none)
  change Run _ _ _ hs (digestWorld grandchildDigest
    (grandchildRequests [("clean-parent-1", zeros64), ("node-b", emptyDigest)])) at hrun
  change Run _ _ _ hs'
    (digestWorld grandchildDigest (grandchildRequests [(spelledId, emptyDigest)])) at hrun'
  obtain ⟨hprofile, hprofile'⟩ := profile_grandchildren
  generalize digestWorld grandchildDigest (grandchildRequests
    [("clean-parent-1", zeros64), ("node-b", emptyDigest)]) = w at *
  generalize digestWorld grandchildDigest (grandchildRequests [(spelledId, emptyDigest)]) = w' at *
  have hknown : ∀ t ∈ ["", childText, childText, childText ++ "node-b:" ++ emptyDigest],
      t ∈ knownHashes.map Prod.fst := by
    decide +kernel
  obtain ⟨htext, hsha⟩ := oneText_of_profiles (by decide +kernel) hrun hrun'
    (by rw [hprofile, hprofile']; exact fun r => Iff.rfl)
    (by rw [hprofile, hprofile']; exact fun x => Iff.rfl) (by rw [hprofile]; exact hknown)
    (by rw [hprofile']; exact hknown)
  have hsame := h hs hs' w w' hrun hrun' hsha (by
    rw [Lineage.computeStateDigest_eq, Lineage.computeStateDigest_eq, htext])
  -- the two grandchildren
  have hlast : grandchild [("clean-parent-1", zeros64), ("node-b", emptyDigest)] ∈ w.lin.profile.1 := by
    rw [hprofile]
    simp
  have hlast' : grandchild [(spelledId, emptyDigest)] ∈ w'.lin.profile.1 := by
    rw [hprofile']
    simp
  obtain ⟨n, hn, hrow⟩ := List.mem_map.mp hlast
  obtain ⟨n', hn', hrow'⟩ := List.mem_map.mp hlast'
  obtain ⟨hkey, -, hparents⟩ := ProfileRow.mk.inj hrow
  obtain ⟨hkey', -, hparents'⟩ := ProfileRow.mk.inj hrow'
  have hid : n.nodeId = n'.nodeId := (Prod.mk.inj (hkey.trans hkey'.symm)).1
  have hpairs := ((hsame.declared n hn n' hn' hid).2 ("node-b", emptyDigest)).mp (by
    rw [hparents]
    simp)
  rw [hparents'] at hpairs
  exact absurd hpairs (by decide +kernel)

end GovernorGateway
