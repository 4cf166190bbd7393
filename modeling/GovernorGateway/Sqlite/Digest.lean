/-
# What a state digest commits to

`compute_state_digest` hashes the sorted ids with their commitments and the sorted ledger, as JSON;
a commitment (`commit_node`) hashes a content hash and the sorted `id:hash` entries of the declared
parents, ONE AFTER THE OTHER.  The JSON text can be read back (`stateText_eq_iff`); the entries have
no mark between them and cannot: two lists of parents may spell one text.

Where that happens, and all hashes have 64 characters and no colon among them, the id of one parent
begins with the whole entry of another (`Recut.begins`).
-/
import GovernorGateway.Json.Printed
import GovernorGateway.Sqlite.Queries

namespace GovernorGateway

open PrefixCode

/-! ## 1. The text of a commitment -/

namespace Payload

/-- `parent_node_id` and `parent_content_hash`, as `commit_node` reads them. -/
def parentPairs (p : Payload) : List (NodeId × String) :=
  p.parents.map fun c => (c.parentNodeId, c.parentContentHash.getD "")

/-- What the commitment is the hash of. -/
def spelled (p : Payload) : String :=
  p.contentDigest.getD "" ++ String.join
    ((p.parents.map fun c => c.parentNodeId ++ ":" ++ c.parentContentHash.getD "").insertionSort
      (· ≤ ·))

/-- The two payloads declare the same content hash and the same set of parents with their hashes. -/
def DeclaresSame (p q : Payload) : Prop :=
  p.contentDigest.getD "" = q.contentDigest.getD "" ∧
    ∀ c, c ∈ p.parentPairs ↔ c ∈ q.parentPairs

/-- **One text, cut in two ways**: the declarations differ, and what is hashed does not. -/
structure Recut (p q : Payload) : Prop where
  spelled : p.spelled = q.spelled
  differ : ¬ p.DeclaresSame q

/-- The entry of a parent. -/
def entry (c : NodeId × String) : List Char := c.1.toList ++ Char.ofNat 58 :: c.2.toList

theorem entry_ne_nil (c : NodeId × String) : entry c ≠ [] := by
  rw [entry]
  exact List.append_ne_nil_of_right_ne_nil _ (List.cons_ne_nil _ _)

/-- The entries in their order. -/
def entries (p : Payload) : List (List Char) :=
  ((p.parents.map fun c => c.parentNodeId ++ ":" ++ c.parentContentHash.getD "").insertionSort
    (· ≤ ·)).map String.toList

theorem mem_entries {p : Payload} {e : List Char} :
    e ∈ p.entries ↔ ∃ c ∈ p.parentPairs, entry c = e := by
  simp only [entries, List.mem_map, List.mem_insertionSort, parentPairs]
  constructor
  · rintro ⟨_, ⟨c, hc, rfl⟩, rfl⟩
    refine ⟨_, ⟨c, hc, rfl⟩, ?_⟩
    rw [entry, String.toList_append, String.toList_append, List.append_assoc]
    rfl
  · rintro ⟨_, ⟨c, hc, rfl⟩, rfl⟩
    refine ⟨_, ⟨c, hc, rfl⟩, ?_⟩
    rw [entry, String.toList_append, String.toList_append, List.append_assoc]
    rfl

theorem toList_spelled (p : Payload) :
    p.spelled.toList = (p.contentDigest.getD "").toList ++ p.entries.flatten := by
  rw [spelled, String.toList_append, String.toList_join, entries, List.flatMap_def]

/-- Every hash the payload declares has 64 characters, and no parent's has a colon. -/
structure WellHashed (p : Payload) : Prop where
  content : (p.contentDigest.getD "").toList.length = 64
  length : ∀ c ∈ p.parentPairs, c.2.toList.length = 64
  colon : ∀ c ∈ p.parentPairs, Char.ofNat 58 ∉ c.2.toList

/-- The hash of an entry is its last 64 characters. -/
theorem entry_inj {c d : NodeId × String} (hlen : c.2.toList.length = d.2.toList.length)
    (h : entry c = entry d) : c = d := by
  obtain ⟨hid, hhash⟩ := List.append_inj' h (by rw [List.length_cons, List.length_cons, hlen])
  exact Prod.ext (String.toList_inj.mp hid) (String.toList_inj.mp (List.cons.inj hhash).2)

/-- An entry that begins another one begins its id. -/
theorem begins_id {c d : NodeId × String} (hlen : c.2.toList.length = d.2.toList.length)
    (hcolon : Char.ofNat 58 ∉ c.2.toList) (hne : entry c ≠ entry d) (h : entry c <+: entry d) :
    entry c <+: d.1.toList := by
  have hentry : ∀ c : NodeId × String, (entry c).length = c.1.toList.length + 1 + c.2.toList.length := by
    intro c
    rw [entry, List.length_append, List.length_cons]
    omega
  have hlt : (entry c).length < (entry d).length := by
    refine lt_of_le_of_ne h.length_le fun heq => hne ?_
    exact h.eq_of_length heq
  rw [hentry, hentry] at hlt
  by_cases hid : (entry c).length ≤ d.1.toList.length
  · exact List.prefix_of_prefix_length_le h (List.prefix_append _ _) hid
  · -- otherwise the colon of the longer entry stands inside the hash of the shorter one
    exfalso
    rw [hentry] at hid
    have hcolonAt : (entry c)[d.1.toList.length]? = some (Char.ofNat 58) := by
      obtain ⟨t, ht⟩ := h
      have hleft : (entry c ++ t)[d.1.toList.length]? = (entry c)[d.1.toList.length]? :=
        List.getElem?_append_left (by rw [hentry]; omega)
      rw [← hleft, ht, entry, List.getElem?_append_right le_rfl, Nat.sub_self]
      rfl
    rw [entry, List.getElem?_append_right (by omega)] at hcolonAt
    obtain ⟨k, hk⟩ : ∃ k, d.1.toList.length - c.1.toList.length = k + 1 :=
      ⟨d.1.toList.length - c.1.toList.length - 1, by omega⟩
    rw [hk, List.getElem?_cons_succ] at hcolonAt
    exact hcolon (List.mem_of_getElem? hcolonAt)

/-- **What a collision looks like**: the id of one parent begins with the entry of another. -/
theorem Recut.begins {p q : Payload} (h : p.Recut q) (hp : p.WellHashed) (hq : q.WellHashed) :
    ∃ c ∈ p.parentPairs, ∃ d ∈ q.parentPairs,
      entry c <+: d.1.toList ∨ entry d <+: c.1.toList := by
  have htext : (p.contentDigest.getD "").toList ++ p.entries.flatten =
      (q.contentDigest.getD "").toList ++ q.entries.flatten := by
    rw [← toList_spelled, ← toList_spelled, h.spelled]
  obtain ⟨hcontent, hflatten⟩ := List.append_inj htext (by rw [hp.content, hq.content])
  have hentries : p.entries ≠ q.entries := by
    intro heq
    refine h.differ ⟨String.toList_inj.mp hcontent, fun c => ?_⟩
    have hsame : ∀ {p q : Payload}, p.entries = q.entries → p.WellHashed → q.WellHashed →
        c ∈ p.parentPairs → c ∈ q.parentPairs := by
      intro p q heq hp hq hc
      have hmem : entry c ∈ q.entries := heq ▸ mem_entries.mpr ⟨c, hc, rfl⟩
      obtain ⟨d, hd, hdc⟩ := mem_entries.mp hmem
      rwa [← entry_inj (by rw [hq.length d hd, hp.length c hc]) hdc]
    exact ⟨hsame heq hp hq, hsame heq.symm hq hp⟩
  obtain ⟨e, he, e', he', hne, hprefix⟩ := exists_prefix_of_flatten_eq
    (fun e he => by obtain ⟨c, -, rfl⟩ := mem_entries.mp he; exact entry_ne_nil c)
    (fun e he => by obtain ⟨c, -, rfl⟩ := mem_entries.mp he; exact entry_ne_nil c) hflatten hentries
  obtain ⟨c, hc, rfl⟩ := mem_entries.mp he
  obtain ⟨d, hd, rfl⟩ := mem_entries.mp he'
  refine ⟨c, hc, d, hd, ?_⟩
  rcases hprefix with hcd | hdc
  · exact Or.inl (begins_id (by rw [hp.length c hc, hq.length d hd]) (hp.colon c hc) hne hcd)
  · exact Or.inr (begins_id (by rw [hp.length c hc, hq.length d hd]) (hq.colon d hd) hne.symm hdc)

end Payload

/-! ## 2. The text of a state -/

namespace Lineage

variable {L M : Lineage}

/-- The rows the digest is made of: an id and a commitment. -/
def digestRows (L : Lineage) : List (NodeId × String) := L.nodes.map fun n => (n.nodeId, n.commitment)

/-- In the order of the ids. -/
def sortedRows (L : Lineage) : List (NodeId × String) :=
  (L.nodes.insertionSort fun a b => a.nodeId ≤ b.nodeId).map fun n => (n.nodeId, n.commitment)

/-- The text `compute_state_digest` hashes. -/
def stateText (L : Lineage) : String :=
  Json.dumps (.obj
    [("nodes", .arr ((L.nodes.insertionSort (fun a b => a.nodeId ≤ b.nodeId)).map fun n =>
        .arr [.str n.nodeId, .str n.commitment])),
     ("quarantine", .arr ((L.ledger.insertionSort (· ≤ ·)).map .str))])

theorem computeStateDigest_eq (sha256 : String → String) (db : Db) :
    db.computeStateDigest sha256 = sha256 db.toLineage.stateText := rfl

/-- A row of the digest, as JSON. -/
def rowJson (r : NodeId × String) : Json := .arr ([r.1, r.2].map .str)

/-- The two arrays, with the text between them. -/
def bodyText (r : List (NodeId × String) × List NodeId) : List Char :=
  (Json.dumps (.arr (r.1.map rowJson))).toList ++
    (", \"quarantine\": ".toList ++ (Json.dumps (.arr (r.2.map .str))).toList)

theorem toList_stateText (L : Lineage) : L.stateText.toList =
    "\x7b\"nodes\": ".toList ++ bodyText (L.sortedRows, L.ledger.insertionSort (· ≤ ·)) ++
      "\x7d".toList := by
  have hkeys : ∀ a b : String, ([("nodes", a), ("quarantine", b)] : List (String × String)).insertionSort
      (fun x y => x.1 ≤ y.1) = [("nodes", a), ("quarantine", b)] := by
    intro a b
    have hle : "nodes" ≤ "quarantine" := by decide
    simp only [List.insertionSort, List.foldr_cons, List.foldr_nil, List.orderedInsert, hle, if_true]
  have hrows : (L.nodes.insertionSort fun a b => a.nodeId ≤ b.nodeId).map
      (fun n => Json.arr [.str n.nodeId, .str n.commitment]) = L.sortedRows.map rowJson := by
    rw [sortedRows, List.map_map]
    rfl
  rw [stateText, hrows, Json.dumps, Json.dumpsWith, Json.dumpsFields, Json.dumpsFields,
    Json.dumpsFields, if_pos rfl, hkeys]
  simp only [Json.items, List.map_cons, List.map_nil, String.intercalate_cons_cons,
    String.intercalate_singleton, String.toList_append, bodyText, List.append_assoc, Json.dumps]
  rfl

/-- How the text of every state begins. -/
theorem take_stateText (L : Lineage) : L.stateText.toList.take 2 = [Char.ofNat 123, Char.ofNat 34] := by
  rw [toList_stateText]
  rfl

theorem isPrefixCode_rowJson : IsPrefixCode fun r => (Json.dumps (rowJson r)).toList := by
  have harr := Json.isPrefixCode_arr Json.isPrefixCode_str Json.avoids_str
  refine harr.comp (k := fun r : NodeId × String => [r.1, r.2]) ?_
  rintro ⟨a, b⟩ ⟨a', b'⟩ h
  simp only [List.cons.injEq, and_true] at h
  exact Prod.ext h.1 h.2

theorem isPrefixCode_bodyText : IsPrefixCode bodyText := by
  have hrows := Json.isPrefixCode_arr isPrefixCode_rowJson
    (Json.avoids_arr fun r : NodeId × String => [r.1, r.2].map .str)
  have hledger := Json.isPrefixCode_arr Json.isPrefixCode_str Json.avoids_str
  have hmark := hledger.enclosed ", \"quarantine\": ".toList []
  simp only [List.append_nil] at hmark
  exact hrows.append hmark

/-- **The text of a state can be read back.** -/
theorem sorted_of_stateText (h : L.stateText = M.stateText) :
    L.sortedRows = M.sortedRows ∧
      L.ledger.insertionSort (· ≤ ·) = M.ledger.insertionSort (· ≤ ·) := by
  have htext : L.stateText.toList = M.stateText.toList := by rw [h]
  rw [toList_stateText, toList_stateText] at htext
  have hpair := (isPrefixCode_bodyText.enclosed _ _).injective htext
  exact Prod.mk.inj hpair

theorem mem_sortedRows {r : NodeId × String} : r ∈ L.sortedRows ↔ r ∈ L.digestRows := by
  simp only [sortedRows, digestRows, List.mem_map, List.mem_insertionSort]

theorem keys_digestRows (L : Lineage) : L.digestRows.map Prod.fst = L.nodeIds := by
  rw [digestRows, List.map_map]
  rfl

theorem nodup_sortedRows (h : L.nodeIds.Nodup) : L.sortedRows.Nodup := by
  have hperm : L.sortedRows.Perm L.digestRows := (List.perm_insertionSort _ L.nodes).map _
  rw [hperm.nodup_iff]
  refine List.Nodup.of_map Prod.fst ?_
  rwa [keys_digestRows]

theorem pairwise_sortedRows (L : Lineage) : L.sortedRows.Pairwise fun a b => a.1 ≤ b.1 := by
  have htotal : Std.Total fun a b : NodeRow => a.nodeId ≤ b.nodeId := ⟨fun a b => le_total _ _⟩
  have htrans : IsTrans NodeRow fun a b => a.nodeId ≤ b.nodeId := ⟨fun _ _ _ => le_trans⟩
  rw [sortedRows, List.pairwise_map]
  exact List.pairwise_insertionSort _ L.nodes

/-- Two rows for one id are one row. -/
theorem eq_of_digestRows (h : L.nodeIds.Nodup) {r s : NodeId × String} (hr : r ∈ L.digestRows)
    (hs : s ∈ L.digestRows) (hid : r.1 = s.1) : r = s := by
  rw [← keys_digestRows] at h
  exact List.inj_on_of_nodup_map h hr hs hid

/-- **The text of a state determines the rows and the ledger**, and is determined by them. -/
theorem stateText_eq_iff (hL : L.nodeIds.Nodup) (hM : M.nodeIds.Nodup) (hledger : L.ledger.Nodup)
    (hledger' : M.ledger.Nodup) : L.stateText = M.stateText ↔
      (∀ r, r ∈ L.digestRows ↔ r ∈ M.digestRows) ∧ ∀ x, x ∈ L.ledger ↔ x ∈ M.ledger := by
  constructor
  · intro h
    obtain ⟨hrows, hquarantined⟩ := sorted_of_stateText h
    refine ⟨fun r => ?_, fun x => ?_⟩
    · rw [← mem_sortedRows, hrows, mem_sortedRows]
    · rw [← List.mem_insertionSort (r := (· ≤ ·)), hquarantined, List.mem_insertionSort]
  · rintro ⟨hrows, hquarantined⟩
    have hsorted : L.sortedRows = M.sortedRows := by
      have hperm : L.sortedRows.Perm M.sortedRows := by
        rw [List.perm_ext_iff_of_nodup (nodup_sortedRows hL) (nodup_sortedRows hM)]
        intro r
        rw [mem_sortedRows, mem_sortedRows, hrows]
      refine List.Perm.eq_of_pairwise (fun r s hr hs hrs hsr => ?_) (pairwise_sortedRows L)
        (pairwise_sortedRows M) hperm
      exact eq_of_digestRows hL (mem_sortedRows.mp hr) ((hrows s).mpr (mem_sortedRows.mp hs))
        (le_antisymm hrs hsr)
    have hledgers : L.ledger.insertionSort (· ≤ ·) = M.ledger.insertionSort (· ≤ ·) := by
      have hset := sortedSet_congr hquarantined
      rwa [sortedSet, sortedSet, hledger.dedup, hledger'.dedup] at hset
    exact String.toList_inj.mp (by rw [toList_stateText, toList_stateText, hsorted, hledgers])

/-! ## 3. What a digest tells -/

/-- Every row is the one `commit_node` makes of its payload. -/
def Written (sha256 : String → String) (L : Lineage) : Prop :=
  ∀ n ∈ L.nodes, n = nodeRow sha256 n.payload

theorem Written.commitNode {sha256 : String → String} {p : Payload} (h : L.Written sha256) :
    (L.commitNode sha256 p).2.Written sha256 := by
  intro n hn
  rcases mem_nodes_commitNode.mp hn with hn | ⟨rfl, -⟩
  · exact h n hn
  · rfl

/-- The same ids, of each the same content hash and the same set of parents with their hashes, and
the same ledger. -/
structure SameLineage (L M : Lineage) : Prop where
  nodeIds : ∀ x, x ∈ L.nodeIds ↔ x ∈ M.nodeIds
  declared : ∀ n ∈ L.nodes, ∀ n' ∈ M.nodes, n.nodeId = n'.nodeId →
    n.contentHash = n'.contentHash ∧ ∀ c, c ∈ n.payload.parentPairs ↔ c ∈ n'.payload.parentPairs
  ledger : ∀ x, x ∈ L.ledger ↔ x ∈ M.ledger

/-- The same ids, of each the same text, and the same ledger. -/
structure SameSpelling (L M : Lineage) : Prop where
  nodeIds : ∀ x, x ∈ L.nodeIds ↔ x ∈ M.nodeIds
  spelled : ∀ n ∈ L.nodes, ∀ n' ∈ M.nodes, n.nodeId = n'.nodeId →
    n.payload.spelled = n'.payload.spelled
  ledger : ∀ x, x ∈ L.ledger ↔ x ∈ M.ledger

/-- **The pairs of states a digest does not tell apart**: they spell the same, and some node's text
is cut in two ways. -/
def Misread (L M : Lineage) : Prop :=
  L.SameSpelling M ∧
    ∃ n ∈ L.nodes, ∃ n' ∈ M.nodes, n.nodeId = n'.nodeId ∧ n.payload.Recut n'.payload

/-- The texts a digest rests on. -/
def hashedTexts (L : Lineage) : Set String :=
  { t | t = L.stateText ∨ ∃ n ∈ L.nodes, t = n.payload.spelled }

section Digest

variable {sha256 : String → String}

/-- Without a collision the digest tells the rows, and the commitments in them tell the texts. -/
theorem digest_eq_iff (hL : L.Written sha256) (hM : M.Written sha256) (hLids : L.nodeIds.Nodup)
    (hMids : M.nodeIds.Nodup) (hledger : L.ledger.Nodup) (hledger' : M.ledger.Nodup)
    (hsha : Set.InjOn sha256 (L.hashedTexts ∪ M.hashedTexts)) :
    sha256 L.stateText = sha256 M.stateText ↔ L.SameSpelling M := by
  have hstate : sha256 L.stateText = sha256 M.stateText ↔ L.stateText = M.stateText :=
    hsha.eq_iff (Or.inl (Or.inl rfl)) (Or.inr (Or.inl rfl))
  have hcommitment : ∀ n ∈ L.nodes, ∀ n' ∈ M.nodes,
      (n.commitment = n'.commitment ↔ n.payload.spelled = n'.payload.spelled) := by
    intro n hn n' hn'
    rw [hL n hn, hM n' hn']
    exact hsha.eq_iff (Or.inl (Or.inr ⟨n, hn, rfl⟩)) (Or.inr (Or.inr ⟨n', hn', rfl⟩))
  rw [hstate, stateText_eq_iff hLids hMids hledger hledger']
  constructor
  · rintro ⟨hrows, hquarantined⟩
    refine ⟨fun x => ?_, fun n hn n' hn' hid => ?_, hquarantined⟩
    · simp only [← keys_digestRows, List.mem_map, hrows]
    · have hrow : (n.nodeId, n.commitment) ∈ M.digestRows :=
        (hrows _).mp (List.mem_map_of_mem hn)
      have hrow' : (n'.nodeId, n'.commitment) ∈ M.digestRows := List.mem_map_of_mem hn'
      have hsame := eq_of_digestRows hMids hrow hrow' hid
      exact (hcommitment n hn n' hn').mp (Prod.mk.inj hsame).2
  · intro h
    refine ⟨?_, h.ledger⟩
    rintro ⟨x, k⟩
    constructor
    · intro hr
      obtain ⟨n, hn, hrow⟩ := List.mem_map.mp hr
      obtain ⟨rfl, rfl⟩ := Prod.mk.inj hrow
      obtain ⟨n', hn', hid⟩ := mem_nodeIds.mp ((h.nodeIds _).mp (mem_nodeIds.mpr ⟨n, hn, rfl⟩))
      have hsame := (hcommitment n hn n' hn').mpr (h.spelled n hn n' hn' hid.symm)
      exact List.mem_map.mpr ⟨n', hn', Prod.ext hid hsame.symm⟩
    · intro hr
      obtain ⟨n', hn', hrow⟩ := List.mem_map.mp hr
      obtain ⟨rfl, rfl⟩ := Prod.mk.inj hrow
      obtain ⟨n, hn, hid⟩ := mem_nodeIds.mp ((h.nodeIds _).mpr (mem_nodeIds.mpr ⟨n', hn', rfl⟩))
      have hsame := (hcommitment n hn n' hn').mpr (h.spelled n hn n' hn' hid)
      exact List.mem_map.mpr ⟨n, hn, Prod.ext hid hsame⟩

/-- The content hash of a row is its payload's. -/
theorem declared_iff (hL : L.Written sha256) (hM : M.Written sha256) {n n' : NodeRow}
    (hn : n ∈ L.nodes) (hn' : n' ∈ M.nodes) :
    (n.contentHash = n'.contentHash ∧
      ∀ c, c ∈ n.payload.parentPairs ↔ c ∈ n'.payload.parentPairs) ↔
      n.payload.DeclaresSame n'.payload := by
  rw [hL n hn, hM n' hn']
  rfl

/-- **When a digest identifies a lineage.** -/
theorem digest_identifies_iff (hL : L.Written sha256) (hM : M.Written sha256) (hLids : L.nodeIds.Nodup)
    (hMids : M.nodeIds.Nodup) (hledger : L.ledger.Nodup) (hledger' : M.ledger.Nodup)
    (hsha : Set.InjOn sha256 (L.hashedTexts ∪ M.hashedTexts)) :
    (sha256 L.stateText = sha256 M.stateText → L.SameLineage M) ↔ ¬ L.Misread M := by
  rw [digest_eq_iff hL hM hLids hMids hledger hledger' hsha]
  constructor
  · rintro h ⟨hspelled, n, hn, n', hn', hid, hrecut⟩
    have hsame := (h hspelled).declared n hn n' hn' hid
    exact hrecut.differ ((declared_iff hL hM hn hn').mp hsame)
  · intro h hspelled
    refine ⟨hspelled.nodeIds, fun n hn n' hn' hid => ?_, hspelled.ledger⟩
    rw [declared_iff hL hM hn hn']
    by_contra hdiffer
    exact h ⟨hspelled, n, hn, n', hn', hid, hspelled.spelled n hn n' hn' hid, hdiffer⟩

end Digest

end Lineage

end GovernorGateway
