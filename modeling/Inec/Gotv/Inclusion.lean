import Inec.Gotv.Chain
import Inec.Lib.MerkleProof

/-!
# Proofs of inclusion in an anchored batch

AnchorMerkleRoot stores a proof for each leaf of the tree it anchors, and VerifyInclusion recomputes the root from the
proof it finds for the hash of a leaf. A level with an odd element promotes it, and the proof skips that level. All
proofs of a batch that is still as it was stored verify, whichever of them the database finds first for a leaf that
occurs twice.
-/

namespace Inec

/-- The position is "left" or "right". -/
structure ProofStep where
  hash : String
  position : String
  deriving DecidableEq, Repr

/-- A row of `gotv_merkle_proofs`, its JSON path as the steps it was marshalled from. -/
structure MerkleProofRow where
  anchorId : Nat
  leafHash : String
  proofPath : List ProofStep
  leafIndex : Nat
  deriving DecidableEq, Repr

structure VerificationResult where
  valid : Bool
  leafHash : String
  rootHash : String
  leafIndex : Nat
  proofSteps : Nat
  reason : String
  deriving DecidableEq, Repr

/-- The loop body of generateMerkleProof. Below the root an odd index always has a left neighbour. -/
def proofSteps (levelNodes : List String) (idx : Nat) : List ProofStep :=
  if idx % 2 = 0 then (levelNodes[idx + 1]?.map fun hash => ⟨hash, "right"⟩).toList
  else (levelNodes[idx - 1]?.map fun hash => ⟨hash, "left"⟩).toList

def generateMerkleProof : List (List String) → Nat → List ProofStep
  | levelNodes :: above :: rest, idx => proofSteps levelNodes idx ++ generateMerkleProof (above :: rest) (idx / 2)
  | _, _ => []

section Verify

variable (sha256Hex : String → String)

/-- The loop over the proof path. -/
def recomputeRoot (leafHash : String) (proof : List ProofStep) : String :=
  proof.foldl (fun current step =>
    if step.position = "left" then sha256Hex (step.hash ++ current) else sha256Hex (current ++ step.hash)) leafHash

/-- The proofs that AnchorMerkleRoot stores for an anchor, where all its inserts work. -/
def proofRows (anchorId : Nat) (leaves : List String) : List MerkleProofRow :=
  leaves.mapIdx fun i leaf =>
    ⟨anchorId, sha256Hex leaf, generateMerkleProof (buildMerkleTree sha256Hex leaves) i, i⟩

/-- The anchors and the proofs. -/
structure AnchoredProofs where
  anchors : List GotvAnchor
  proofs : List MerkleProofRow
  deriving DecidableEq, Repr

/-- The rows of the join of VerifyInclusion. -/
def AnchoredProofs.joined (s : AnchoredProofs) (anchorId : Nat) (leafHash : String) :
    List (MerkleProofRow × GotvAnchor) :=
  (s.proofs.filter fun mp => mp.anchorId == anchorId && mp.leafHash == leafHash).flatMap fun mp =>
    (s.anchors.filter fun ma => ma.id == mp.anchorId).map fun ma => (mp, ma)

/-- The order in which the database finds the rows of a query. -/
structure RowOrder where
  arrange : List (MerkleProofRow × GotvAnchor) → List (MerkleProofRow × GotvAnchor)
  perm : ∀ rows, (arrange rows).Perm rows

def AnchoredProofs.VerifyInclusion (s : AnchoredProofs) (order : RowOrder) (anchorId : Nat) (dataItem : String) :
    VerificationResult :=
  let leafHash := sha256Hex dataItem
  match order.arrange (s.joined anchorId leafHash) with
  | [] => ⟨false, "", "", 0, 0, "leaf not found in anchor"⟩
  | (mp, ma) :: _ =>
      let valid := decide (recomputeRoot sha256Hex leafHash mp.proofPath = ma.merkleRoot)
      ⟨valid, leafHash, ma.merkleRoot, mp.leafIndex, mp.proofPath.length,
        if valid then "inclusion verified" else "proof path does not match root"⟩

/-- The rows of an anchor are those of its batch: one anchor, with the root of the leaves, and their proofs. -/
structure AnchoredProofs.Untampered (s : AnchoredProofs) (anchorId : Nat) (leaves : List String) : Prop where
  anchored : ∃ ma ∈ s.anchors, ma.id = anchorId
  root : ∀ ma ∈ s.anchors, ma.id = anchorId → ma.merkleRoot = merkleTop (buildMerkleTree sha256Hex leaves)
  proofs : (s.proofs.filter fun mp => mp.anchorId == anchorId).Perm (proofRows sha256Hex anchorId leaves)

end Verify

/-! ### Proofs and levels -/

variable {sha256Hex : String → String}

/-- What two nodes are joined to. -/
def joinHashes (sha256Hex : String → String) (left right : String) : String := sha256Hex (left ++ right)

theorem merkleNext_eq (level : List String) :
    merkleNext sha256Hex level = MerkleTree.next (joinHashes sha256Hex) level := by
  fun_induction merkleNext sha256Hex level with
  | case1 left right rest ih =>
      rw [ih, MerkleTree.next]
      rfl
  | case2 odd => rfl
  | case3 => rfl

theorem merkleLevels_eq (fuel : Nat) (level : List String) :
    merkleLevels sha256Hex fuel level = MerkleProof.levels (joinHashes sha256Hex) fuel level := by
  induction fuel generalizing level with
  | zero => rfl
  | succ fuel ih => rw [merkleLevels, MerkleProof.levels, ih, merkleNext_eq]

/-- A step as a sibling and its side. -/
def ProofStep.toStep (step : ProofStep) : MerkleProof.Step String := ⟨step.hash, decide (step.position ≠ "left")⟩

theorem map_proofSteps (levelNodes : List String) (idx : Nat) :
    (proofSteps levelNodes idx).map ProofStep.toStep = MerkleProof.siblings levelNodes idx := by
  rw [proofSteps, MerkleProof.siblings]
  split
  · cases levelNodes[idx + 1]? <;> rfl
  · cases levelNodes[idx - 1]? <;> rfl

theorem map_generateMerkleProof (tree : List (List String)) (idx : Nat) :
    (generateMerkleProof tree idx).map ProofStep.toStep = MerkleProof.proof tree idx := by
  fun_induction generateMerkleProof tree idx with
  | case1 idx levelNodes above rest ih => rw [List.map_append, ih, map_proofSteps, MerkleProof.proof]
  | case2 tree idx hshort =>
      obtain rfl | ⟨top, rfl⟩ := MerkleTree.nil_or_singleton hshort
      · rfl
      · rfl

theorem recomputeRoot_eq (leafHash : String) (proof : List ProofStep) :
    recomputeRoot sha256Hex leafHash proof =
      MerkleProof.recompute (joinHashes sha256Hex) leafHash (proof.map ProofStep.toStep) := by
  rw [recomputeRoot, MerkleProof.recompute, List.foldl_map]
  congr 1
  funext current step
  by_cases hleft : step.position = "left"
  · simp [ProofStep.toStep, hleft, joinHashes]
  · simp [ProofStep.toStep, hleft, joinHashes]

/-- The proof of every leaf recomputes the root. -/
theorem recomputeRoot_generate {items : List String} {idx : Nat} {item : String} (h : items[idx]? = some item) :
    recomputeRoot sha256Hex (sha256Hex item) (generateMerkleProof (buildMerkleTree sha256Hex items) idx) =
      merkleTop (buildMerkleTree sha256Hex items) := by
  have hne : items ≠ [] := by
    rintro rfl
    cases h
  have hlevel : (items.map sha256Hex)[idx]? = some (sha256Hex item) := by
    rw [List.getElem?_map, h]
    rfl
  have hshort : (MerkleTree.climb (joinHashes sha256Hex) items.length (items.map sha256Hex)).length ≤ 1 :=
    MerkleTree.length_climb _ _ (by rw [List.length_map]; omega)
  have hsome : MerkleTree.climb (joinHashes sha256Hex) items.length (items.map sha256Hex) ≠ [] :=
    MerkleTree.climb_ne_nil _ (by simpa using hne)
  obtain ⟨top, htop⟩ := List.length_eq_one_iff.mp (Nat.le_antisymm hshort (List.length_pos_of_ne_nil hsome))
  rw [recomputeRoot_eq, map_generateMerkleProof, buildMerkleTree, if_neg hne, merkleLevels_eq,
    MerkleProof.recompute_proof hlevel htop, merkleTop, MerkleProof.getLast?_levels, htop]
  rfl

/-! ### The rows of a batch -/

theorem mem_proofRows {anchorId : Nat} {leaves : List String} {mp : MerkleProofRow} :
    mp ∈ proofRows sha256Hex anchorId leaves ↔ ∃ i leaf, leaves[i]? = some leaf ∧
      mp = ⟨anchorId, sha256Hex leaf, generateMerkleProof (buildMerkleTree sha256Hex leaves) i, i⟩ := by
  rw [proofRows, List.mem_mapIdx]
  constructor
  · rintro ⟨i, hi, rfl⟩
    exact ⟨i, leaves[i], List.getElem?_eq_getElem hi, rfl⟩
  · rintro ⟨i, leaf, hleaf, rfl⟩
    obtain ⟨hi, rfl⟩ := List.getElem?_eq_some_iff.mp hleaf
    exact ⟨i, hi, rfl⟩

/-- The join finds a proof of the leaf, and all it finds recompute the root. -/
theorem AnchoredProofs.Untampered.joined_spec {s : AnchoredProofs} {anchorId : Nat} {leaves : List String}
    (h : s.Untampered sha256Hex anchorId leaves) {leaf : String} (hleaf : leaf ∈ leaves) :
    s.joined anchorId (sha256Hex leaf) ≠ [] ∧ ∀ row ∈ s.joined anchorId (sha256Hex leaf),
      recomputeRoot sha256Hex (sha256Hex leaf) row.1.proofPath = row.2.merkleRoot := by
  have hrows {mp : MerkleProofRow} : mp ∈ s.proofs ∧ mp.anchorId = anchorId ↔
      mp ∈ proofRows sha256Hex anchorId leaves := by
    rw [← h.proofs.mem_iff, List.mem_filter, beq_iff_eq]
  constructor
  · obtain ⟨ma, hma, hid⟩ := h.anchored
    obtain ⟨i, hi⟩ := List.mem_iff_getElem?.mp hleaf
    obtain ⟨hmp, -⟩ := hrows.mpr (mem_proofRows.mpr ⟨i, leaf, hi, rfl⟩)
    apply List.ne_nil_of_mem
    refine List.mem_flatMap.mpr ⟨_, List.mem_filter.mpr ⟨hmp, ?_⟩, List.mem_map.mpr ⟨ma, ?_, rfl⟩⟩
    · simp
    · exact List.mem_filter.mpr ⟨hma, beq_iff_eq.mpr hid⟩
  · intro row hrow
    obtain ⟨mp, hmp, hrow⟩ := List.mem_flatMap.mp hrow
    obtain ⟨ma, hma, rfl⟩ := List.mem_map.mp hrow
    rw [List.mem_filter, Bool.and_eq_true, beq_iff_eq, beq_iff_eq] at hmp
    rw [List.mem_filter, beq_iff_eq] at hma
    obtain ⟨hmp, hanchor, hhash⟩ := hmp
    obtain ⟨i, leaf', hleaf', rfl⟩ := mem_proofRows.mp (hrows.mp ⟨hmp, hanchor⟩)
    -- the found proof may be that of another leaf with the same hash
    have hsame : sha256Hex leaf' = sha256Hex leaf := hhash
    rw [h.root ma hma.1 (hma.2.trans hanchor), ← hsame]
    exact recomputeRoot_generate hleaf'

/-- Every proof of a tree recomputes its root, and every leaf of an untampered batch verifies. -/
theorem inclusion_complete (sha256Hex : String → String) :
    (∀ (items : List String) (idx : Nat) (item : String), items[idx]? = some item →
      recomputeRoot sha256Hex (sha256Hex item) (generateMerkleProof (buildMerkleTree sha256Hex items) idx) =
        merkleTop (buildMerkleTree sha256Hex items)) ∧
    ∀ (s : AnchoredProofs) (anchorId : Nat) (leaves : List String), s.Untampered sha256Hex anchorId leaves →
      ∀ leaf ∈ leaves, ∀ order : RowOrder, (s.VerifyInclusion sha256Hex order anchorId leaf).valid = true ∧
        (s.VerifyInclusion sha256Hex order anchorId leaf).reason = "inclusion verified" := by
  constructor
  · intro items idx item h
    exact recomputeRoot_generate h
  · intro s anchorId leaves h leaf hleaf order
    obtain ⟨hne, hall⟩ := h.joined_spec hleaf
    rw [AnchoredProofs.VerifyInclusion]
    cases harranged : order.arrange (s.joined anchorId (sha256Hex leaf)) with
    | nil =>
        have hperm := order.perm (s.joined anchorId (sha256Hex leaf))
        rw [harranged] at hperm
        exact absurd hperm.nil_eq.symm hne
    | cons row rest =>
        have hmem : row ∈ s.joined anchorId (sha256Hex leaf) :=
          (order.perm _).mem_iff.mp (harranged ▸ List.mem_cons_self)
        have hvalid : decide (recomputeRoot sha256Hex (sha256Hex leaf) row.1.proofPath = row.2.merkleRoot) = true :=
          decide_eq_true (hall row hmem)
        exact ⟨hvalid, if_pos hvalid⟩

/-! ### Anchoring a batch -/

/-- A call of AnchorMerkleRoot and which of its inserts of proofs work. -/
structure BatchCall extends AnchorCall where
  proofWorks : Nat → Bool

structure AnchorStore where
  chain : GOTVBlockchain
  proofs : List MerkleProofRow

namespace AnchorStore

def start : AnchorStore := ⟨.start, []⟩

variable (sha256Hex) in
/-- AnchorMerkleRoot with the proofs that it stores; it does not look whether they are. -/
def anchor (s : AnchorStore) (call : BatchCall) : AnchorStore × Except AnchorMerkleError MerkleAnchorResult :=
  match s.chain.AnchorMerkleRoot sha256Hex call.env call.partyId call.anchorType call.leaves with
  | (chain, .ok result) =>
      (⟨chain, s.proofs ++ (proofRows sha256Hex result.anchorID call.leaves).filter fun mp =>
        call.proofWorks mp.leafIndex⟩, .ok result)
  | (chain, .error e) => (⟨chain, s.proofs⟩, .error e)

variable (sha256Hex) in
def step (s : AnchorStore) (call : BatchCall) : AnchorStore := (s.anchor sha256Hex call).1

def tables (s : AnchorStore) : AnchoredProofs := ⟨s.chain.anchors, s.proofs⟩

/-- Anchors are numbered, and no proof is of an anchor to come. -/
structure Numbered (t : AnchoredProofs) : Prop where
  anchors : ∀ ma ∈ t.anchors, ma.id ≤ t.anchors.length
  proofs : ∀ mp ∈ t.proofs, mp.anchorId ≤ t.anchors.length

variable {s : AnchorStore} {call : BatchCall}

/-- A call stores nothing, or one more anchor and its proofs. -/
theorem anchor_cases (sha256Hex : String → String) (s : AnchorStore) (call : BatchCall) :
    (∃ e, (s.anchor sha256Hex call).2 = .error e ∧ (s.step sha256Hex call).tables = s.tables) ∨
      ∃ result ma, (s.anchor sha256Hex call).2 = .ok result ∧ result.anchorID = s.chain.anchors.length + 1 ∧
        ma.id = s.chain.anchors.length + 1 ∧ ma.merkleRoot = merkleTop (buildMerkleTree sha256Hex call.leaves) ∧
        (s.step sha256Hex call).tables = ⟨s.chain.anchors ++ [ma], s.proofs ++
          (proofRows sha256Hex (s.chain.anchors.length + 1) call.leaves).filter fun mp =>
            call.proofWorks mp.leafIndex⟩ := by
  rw [step, anchor, GOTVBlockchain.AnchorMerkleRoot]
  by_cases hleaves : call.leaves = []
  · rw [if_pos hleaves]
    exact Or.inl ⟨_, rfl, rfl⟩
  · rw [if_neg hleaves]
    cases call.env.insertBlock with
    | refused => exact Or.inl ⟨_, rfl, rfl⟩
    | lost => exact Or.inl ⟨_, rfl, rfl⟩
    | done =>
        cases hinsert : call.env.insertAnchorWorks with
        | false =>
            left
            simp only [Statements.commit]
            exact ⟨_, rfl, rfl⟩
        | true =>
            right
            simp only [Statements.commit, if_true]
            exact ⟨_, _, rfl, rfl, rfl, rfl, rfl⟩

theorem numbered_step (h : Numbered s.tables) (call : BatchCall) : Numbered (s.step sha256Hex call).tables := by
  obtain ⟨e, -, htables⟩ | ⟨result, ma, -, -, hid, -, htables⟩ := anchor_cases sha256Hex s call
  · rw [htables]
    exact h
  · have hlength : (s.chain.anchors ++ [ma]).length = s.chain.anchors.length + 1 := List.length_append
    rw [htables]
    constructor
    · intro other hother
      show other.id ≤ (s.chain.anchors ++ [ma]).length
      rw [hlength]
      rcases List.mem_append.mp hother with hold | hnew
      · exact Nat.le_succ_of_le (h.anchors other hold)
      · rw [List.mem_singleton.mp hnew, hid]
    · intro mp hmp
      show mp.anchorId ≤ (s.chain.anchors ++ [ma]).length
      rw [hlength]
      rcases List.mem_append.mp hmp with hold | hnew
      · exact Nat.le_succ_of_le (h.proofs mp hold)
      · obtain ⟨i, leaf, -, rfl⟩ := mem_proofRows.mp (List.mem_of_mem_filter hnew)
        exact Nat.le_refl _

/-- A batch that is stored whole is untampered. -/
theorem untampered_step (h : Numbered s.tables) {result : MerkleAnchorResult}
    (hanchored : (s.anchor sha256Hex call).2 = .ok result) (hworks : ∀ i, call.proofWorks i = true) :
    (s.step sha256Hex call).tables.Untampered sha256Hex result.anchorID call.leaves := by
  obtain ⟨e, herror, -⟩ | ⟨result', ma, hok, hnumber, hid, hroot, htables⟩ := anchor_cases sha256Hex s call
  · rw [herror] at hanchored
    cases hanchored
  · obtain rfl : result' = result := Except.ok.inj (hok.symm.trans hanchored)
    rw [htables, hnumber]
    refine ⟨⟨ma, List.mem_append_right _ (List.mem_singleton_self ma), hid⟩, ?_, ?_⟩
    · intro other hother hnew
      rcases List.mem_append.mp hother with hold | hlast
      · have hle : other.id ≤ s.chain.anchors.length := h.anchors other hold
        omega
      · rw [List.mem_singleton.mp hlast, hroot]
    · have hold : s.proofs.filter (fun mp => mp.anchorId == s.chain.anchors.length + 1) = [] := by
        rw [List.filter_eq_nil_iff]
        intro mp hmp
        have hle : mp.anchorId ≤ s.chain.anchors.length := h.proofs mp hmp
        rw [beq_iff_eq]
        omega
      rw [List.filter_append, hold, List.nil_append, List.filter_filter]
      have hall : (proofRows sha256Hex (s.chain.anchors.length + 1) call.leaves).filter
          (fun mp => mp.anchorId == s.chain.anchors.length + 1 && call.proofWorks mp.leafIndex) =
            proofRows sha256Hex (s.chain.anchors.length + 1) call.leaves := by
        rw [List.filter_eq_self]
        intro mp hmp
        obtain ⟨i, leaf, -, rfl⟩ := mem_proofRows.mp hmp
        simp [hworks]
      rw [hall]

/-- Later batches leave it alone. -/
theorem Untampered.step {anchorId : Nat} {leaves : List String} (h : s.tables.Untampered sha256Hex anchorId leaves)
    (hnumbered : Numbered s.tables) (call : BatchCall) :
    (s.step sha256Hex call).tables.Untampered sha256Hex anchorId leaves := by
  obtain ⟨e, -, htables⟩ | ⟨result, ma, -, -, hid, -, htables⟩ := anchor_cases sha256Hex s call
  · rw [htables]
    exact h
  · obtain ⟨found, hfound, hfoundId⟩ := h.anchored
    have hbefore : anchorId ≤ s.chain.anchors.length := hfoundId ▸ hnumbered.anchors found hfound
    rw [htables]
    refine ⟨⟨found, List.mem_append_left _ hfound, hfoundId⟩, ?_, ?_⟩
    · intro other hother hsame
      rcases List.mem_append.mp hother with hold | hlast
      · exact h.root other hold hsame
      · rw [List.mem_singleton.mp hlast, hid] at hsame
        omega
    · have hnew : ((proofRows sha256Hex (s.chain.anchors.length + 1) call.leaves).filter fun mp =>
          call.proofWorks mp.leafIndex).filter (fun mp => mp.anchorId == anchorId) = [] := by
        rw [List.filter_eq_nil_iff]
        intro mp hmp
        obtain ⟨i, leaf, -, rfl⟩ := mem_proofRows.mp (List.mem_of_mem_filter hmp)
        rw [beq_iff_eq]
        show ¬s.chain.anchors.length + 1 = anchorId
        omega
      rw [List.filter_append, hnew, List.append_nil]
      exact h.proofs

/-- A batch that a run has stored whole is untampered at the end of the run. -/
theorem untampered_final (before later : List BatchCall) (call : BatchCall) {result : MerkleAnchorResult}
    (hanchored : ((Runs.final (step sha256Hex) start before).anchor sha256Hex call).2 = .ok result)
    (hworks : ∀ i, call.proofWorks i = true) :
    (Runs.final (step sha256Hex) start (before ++ call :: later)).tables.Untampered sha256Hex result.anchorID
      call.leaves := by
  have hstart : Numbered start.tables := ⟨fun _ h => (nomatch h), fun _ h => (nomatch h)⟩
  have hnumbered : ∀ (s : AnchorStore) (call' : BatchCall), Numbered s.tables →
      Numbered (s.step sha256Hex call').tables := fun _ call' h => numbered_step h call'
  have hbefore : Numbered (Runs.final (step sha256Hex) start before).tables :=
    Runs.forall_visited_of_step hnumbered hstart before _ (Runs.final_mem_visited _ _)
  have hkept : ∀ (s : AnchorStore) (call' : BatchCall),
      Numbered s.tables ∧ s.tables.Untampered sha256Hex result.anchorID call.leaves →
        Numbered (s.step sha256Hex call').tables ∧
          (s.step sha256Hex call').tables.Untampered sha256Hex result.anchorID call.leaves :=
    fun _ call' h => ⟨numbered_step h.1 call', Untampered.step h.2 h.1 call'⟩
  have hstored := untampered_step hbefore hanchored hworks
  rw [Runs.final_append, Runs.final_cons]
  exact (Runs.forall_visited_of_step hkept ⟨numbered_step hbefore call, hstored⟩ later _
    (Runs.final_mem_visited _ later)).2

end AnchorStore

end Inec
