/-
# What a content hash pins

Children name their parents by `parent_content_hash`, agents sign `content_digest_sha256`, and both
are only as good as the stored hash.  `/submit-candidate` and `/context-compacted` compare the
declared digest with the content (`verify_cryptographic_signature`), the reintegration gate does it
again for what an adapter sends, and the gateway computes the digest of its own nodes.  So no task
can commit a node whose hash is that of another content (`Payload.Sealed`), in either mode and in
any interleaving.

What is left is the text that is hashed: `json.dumps(..., sort_keys=True)`, which tells documents
apart up to the order of their keys.  `content_pinned` puts the two together.
-/
import GovernorGateway.Properties.Provenance
import GovernorGateway.Json.Canonical

namespace GovernorGateway

open Effects

/-! ## 1. Sealed payloads -/

/-- The declared digest is the digest of the content. -/
def Payload.Sealed (g : Setup) (p : Payload) : Prop :=
  p.contentDigest = some (contentHash g.env p.stateContent)

variable {g : Setup} {answers : Answers}

/-- The signature check compares the two. -/
theorem Payload.sealed_of_signature {p : Payload} (h : verifyCryptographicSignature g.env p = true) :
    p.Sealed g := by
  unfold verifyCryptographicSignature at h
  split at h
  · exact absurd h (by simp)
  · rw [Bool.and_eq_true, Bool.and_eq_true] at h
    have hdigest : p.contentDigest = some (contentHash g.env p.stateContent) := by simpa using h.1.2
    exact hdigest

/-- **Whatever a request may commit is sealed**, from wherever it is committed. -/
theorem MayCommit.isSealed {K : Option String → Prop} {req : Request} {site : CommitSite} {p : Payload}
    (h : MayCommit g answers K req site p) : p.Sealed g := by
  cases h with
  | submission gap hparse hauth hlength hsite => exact Payload.sealed_of_signature hauth.2
  | compaction ps hauth => exact rfl
  | reconstruction hdes hgrant hsignature hkey hne => exact Payload.sealed_of_signature hsignature
  | continuity id key signature token containment timestamp content parents weight hdes hgrant
      henabled hsite => exact rfl
  | seed hgrant hid hparents hcovers hdigest => exact hdigest

/-! ## 2. The hash of a stored node -/

variable {ι : Type} [DecidableEq ι]

/-- The hash a node is stored under, if there is one, is that of its content. -/
def Pinned (g : Setup) (n : NodeRow) : Prop :=
  n.contentHash ≠ "" → n.contentHash = contentHash g.env n.payload.stateContent

instance (n : NodeRow) : Decidable (Pinned g n) := inferInstanceAs (Decidable (_ → _))

omit [DecidableEq ι] in
theorem pinned_of_authorised {key₀ : Option String} {req : ι → Request} {db₀ db : Db}
    (h : Db.Authorised g answers key₀ req db₀ db) (hstart : ∀ n ∈ db₀.nodes, Pinned g n) :
    ∀ n ∈ db.nodes, Pinned g n := by
  intro n hn
  rcases h.nodes n hn with hold | ⟨i, site, p, hmay, rfl⟩
  · exact hstart n hold
  · have hsealed : p.contentDigest = some (contentHash g.env p.stateContent) := hmay.isSealed
    intro _
    change p.contentDigest.getD "" = contentHash g.env p.stateContent
    rw [hsealed]
    rfl

/-- **A stored hash pins the content.**  In every state of every interleaving of any requests, a
document has the hash of a stored node exactly when it is that node's content up to the order of
keys, at every depth, and then it answers every key as the content does.  `hcollision` leaves out a
collision of these two texts. -/
theorem content_pinned (req : ι → Request) {s : Gateway ι} (hs : s.tx = none)
    (hstart : ∀ n ∈ s.db.nodes, Pinned g n)
    {p : Pool ι Call Call.Res Exc (Gateway ι) (Except Exc Response)}
    (hrun : Relation.ReflTransGen (Pool.Step (TaskStep g answers)) (s.serve g req) p)
    {readFloat : String → ℚ} {n : NodeRow} (hn : n ∈ p.state.db.nodes) (hhash : n.contentHash ≠ "")
    (hread : (Json.obj n.payload.stateContent).Readable readFloat) {doc : List (String × Json)}
    (hdoc : (Json.obj doc).Readable readFloat)
    (hcollision : contentHash g.env doc = contentHash g.env n.payload.stateContent →
      (Json.obj doc).dumps = (Json.obj n.payload.stateContent).dumps) :
    (contentHash g.env doc = n.contentHash ↔
      (Json.obj doc).canon = (Json.obj n.payload.stateContent).canon) ∧
    (contentHash g.env doc = n.contentHash → ∀ key,
      (Json.find? doc key).map Json.canon = (Json.find? n.payload.stateContent key).map Json.canon) := by
  have hpinned : n.contentHash = contentHash g.env n.payload.stateContent :=
    pinned_of_authorised (Gateway.authorised_of_run hs hrun).1 hstart n hn hhash
  have hiff : contentHash g.env doc = n.contentHash ↔
      (Json.obj doc).canon = (Json.obj n.payload.stateContent).canon := by
    rw [hpinned, ← Json.dumps_eq_iff hdoc hread]
    exact ⟨hcollision, fun htext => congrArg g.env.sha256 htext⟩
  exact ⟨hiff, fun h key => Json.find?_of_canon hdoc hread (hiff.mp h) key⟩

/-! ## 3. A root that is seeded while another is reported -/

/-- A deployment whose hash is the text itself. -/
def plainTextSetup : Setup := { openSetup with env := { openSetup.env with sha256 := fun s => s } }

def seedRequests (i : Fin 2) : Request :=
  match i with
  | 0 => .seedRoot (some "Bearer admin") (some "root-2")
  | 1 => openReport "clean-parent-1"

def seedStart : Gateway (Fin 2) := { db := ({} : Db).reset plainTextSetup.env.sha256 }

def seedEnd : Pool (Fin 2) Call Call.Res Exc (Gateway (Fin 2)) (Except Exc Response) :=
  Pool.schedule (fun i => (openScript (toString i.val)).taskStep plainTextSetup i)
    [(⟨0, Nat.zero_lt_two⟩, fun _ => false), (⟨1, Nat.one_lt_two⟩, fun _ => false)]
    (seedStart.serve plainTextSetup seedRequests)

theorem seed_run : Relation.ReflTransGen (Pool.Step (TaskStep plainTextSetup Answers.lawful))
    (seedStart.serve plainTextSetup seedRequests) seedEnd := by
  unfold seedEnd
  exact Script.schedule_run _ plainTextSetup _ (seedStart.serve plainTextSetup seedRequests)

/-- What the root is seeded with, its keys the other way round. -/
def seedContent : List (String × Json) := [("seeded_by", .str "admin"), ("type", .str "seed_root")]

/-- The stored root has the hash of that, and a content of two texts. -/
def isSeeded (n : NodeRow) : Bool :=
  n.nodeId = "root-2" && n.contentHash = contentHash plainTextSetup.env seedContent &&
    n.contentHash ≠ "" && n.payload.stateContent.map Prod.fst = ["type", "seeded_by"] &&
    n.payload.stateContent.all fun f =>
      Policy.isText "seed_root" (some f.2) || Policy.isText "admin" (some f.2)

/-- A text can be read. -/
theorem readable_of_isText {s : String} {v : Json} (h : Policy.isText s (some v) = true)
    (readFloat : String → ℚ) : v.Readable readFloat := by
  cases v with
  | str t => exact .str t
  | _ => exact absurd h (by simp [Policy.isText])

theorem content_pinned_seeded : ∃ n ∈ seedEnd.state.db.nodes, n.nodeId = "root-2" ∧
    (Json.obj seedContent).canon = (Json.obj n.payload.stateContent).canon := by
  have hseeded : seedEnd.state.db.nodes.any isSeeded = true := by decide +kernel
  obtain ⟨n, hn, h⟩ := List.any_eq_true.mp hseeded
  simp only [isSeeded, Bool.and_eq_true, decide_eq_true_eq, List.all_eq_true] at h
  obtain ⟨⟨⟨⟨hid, hhash⟩, hne⟩, hkeys⟩, htexts⟩ := h
  have hread : (Json.obj n.payload.stateContent).Readable fun _ => 0 := by
    refine .obj (by rw [hkeys]; decide) fun f hf => ?_
    rcases (Bool.or_eq_true _ _).mp (htexts f hf) with htext | htext
    · exact readable_of_isText htext _
    · exact readable_of_isText htext _
  have hdoc : (Json.obj seedContent).Readable fun _ => 0 := by
    refine .obj (by decide) fun f hf => ?_
    rcases List.mem_cons.mp hf with rfl | hf
    · exact .str _
    · rw [List.mem_singleton.mp hf]
      exact .str _
  obtain ⟨hiff, -⟩ := content_pinned seedRequests rfl (by decide +kernel) seed_run hn hne hread hdoc
    fun h => h
  exact ⟨n, hn, hid, hiff.mp hhash.symm⟩

end GovernorGateway
