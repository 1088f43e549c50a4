import Mathlib.Data.List.Chain
import Mathlib.Data.List.Nodup
import Inec.Lib.Runs
import Inec.Lib.Statements

/-!
# The chain of anchored Merkle roots

AnchorMerkleRoot appends a block to one chain for all parties, under a mutex: a block names the hash of the last
block of any party. verifyChainIntegrity reads the blocks of one party and compares each with the one before it
among these, by prev_hash and block_hash alone. It therefore fails on a chain as it was written as soon as a
party anchors after another one, and it does not see a root, a data hash, or a hash at either end of the party's
blocks that was altered.
-/

namespace Inec

open Statements

/-- A row of `gotv_chain_blocks`. -/
structure GotvBlock where
  number : Nat
  prevHash : String
  merkleRoot : String
  dataHash : String
  blockHash : String
  partyId : Int
  blockType : String
  txCount : Nat
  deriving DecidableEq, Repr

/-- A row of `gotv_merkle_anchors`. -/
structure GotvAnchor where
  id : Nat
  merkleRoot : String
  anchorType : String
  partyId : Int
  leafCount : Nat
  depth : Nat
  blockNumber : Nat
  deriving DecidableEq, Repr

structure MerkleAnchorResult where
  blockNumber : Nat
  blockHash : String
  merkleRoot : String
  anchorID : Nat
  leafCount : Nat
  depth : Nat
  prevHash : String
  deriving DecidableEq, Repr

inductive AnchorMerkleError
  | noLeaves
  | insertBlock
  | insertAnchor
  deriving DecidableEq, Repr

/-- The messages; the last two go on with the error of the driver. -/
def AnchorMerkleError.text : AnchorMerkleError → String
  | noLeaves => "no leaves to anchor"
  | insertBlock => "insert block: "
  | insertAnchor => "insert anchor: "

/-! ### Merkle trees -/

section Tree

variable (sha256Hex : String → String)

/-- The level above one, where an odd element is promoted. -/
def merkleNext : List String → List String
  | left :: right :: rest => sha256Hex (left ++ right) :: merkleNext rest
  | [odd] => [odd]
  | [] => []

def merkleLevels : Nat → List String → List (List String)
  | 0, level => [level]
  | fuel + 1, level => if 1 < level.length then level :: merkleLevels fuel (merkleNext sha256Hex level) else [level]

/-- All levels of the tree, the leaves first. -/
def buildMerkleTree (items : List String) : List (List String) :=
  if items = [] then [] else merkleLevels sha256Hex items.length (items.map sha256Hex)

/-- `tree[len(tree)-1][0]` -/
def merkleTop (tree : List (List String)) : String := (tree.getLast?.bind List.head?).getD ""

variable {sha256Hex}

end Tree

/-! ### AnchorMerkleRoot -/

/-- Which statements of a call work, when it takes the time, and how many numbers the sequence has skipped. The
inclusion proofs and the transactions that it stores at the end are nothing the chain is checked by. -/
structure AnchorEnv where
  tailWorks : Bool
  insertBlock : CommitReply
  insertAnchorWorks : Bool
  nanos : Int
  skipped : Nat
  deriving DecidableEq, Repr

structure GOTVBlockchain where
  blocks : List GotvBlock
  anchors : List GotvAnchor
  deriving DecidableEq, Repr

def firstPrevHash : String := "0000000000000000000000000000000000000000000000000000000000000000"

namespace GOTVBlockchain

variable (sha256Hex : String → String) (s : GOTVBlockchain)

/-- The hash of the last block; an error counts as an empty chain. -/
def tailHash (works : Bool) : String :=
  match if works then s.blocks.getLast? else none with
  | some b => b.blockHash
  | none => firstPrevHash

/-- The block that a call inserts. -/
def newBlock (env : AnchorEnv) (partyId : Int) (anchorType : String) (leaves : List String) : GotvBlock :=
  let root := merkleTop (buildMerkleTree sha256Hex leaves)
  let prevHash := s.tailHash env.tailWorks
  let dataHash := sha256Hex (root ++ anchorType ++ toString partyId)
  { number := ((s.blocks.getLast?.map (·.number)).getD 0) + 1 + env.skipped
    prevHash
    merkleRoot := root
    dataHash
    blockHash := sha256Hex (prevHash ++ root ++ dataHash ++ toString env.nanos)
    partyId
    blockType := anchorType
    txCount := leaves.length }

def AnchorMerkleRoot (env : AnchorEnv) (partyId : Int) (anchorType : String) (leaves : List String) :
    GOTVBlockchain × Except AnchorMerkleError MerkleAnchorResult :=
  if leaves = [] then (s, .error .noLeaves)
  else
    let b := s.newBlock sha256Hex env partyId anchorType leaves
    let depth := (buildMerkleTree sha256Hex leaves).length - 1
    match commit s (some { s with blocks := s.blocks ++ [b] }) env.insertBlock with
    | (after, false) => (after, .error .insertBlock)
    | (after, true) =>
        let anchor : GotvAnchor := ⟨after.anchors.length + 1, b.merkleRoot, anchorType, partyId,
          leaves.length, depth, b.number⟩
        if env.insertAnchorWorks then
          ({ after with anchors := after.anchors ++ [anchor] },
            .ok ⟨b.number, b.blockHash, b.merkleRoot, anchor.id, leaves.length, depth, b.prevHash⟩)
        else (after, .error .insertAnchor)

end GOTVBlockchain

/-! ### verifyChainIntegrity -/

/-- The loop of verifyChainIntegrity; `none` is the state before the first row. -/
def linkedFrom : Option String → List GotvBlock → Bool
  | _, [] => true
  | prevExpected, b :: rest =>
      if prevExpected.any (· != b.prevHash) then false else linkedFrom (some b.blockHash) rest

def blocksOf (partyId : Int) (blocks : List GotvBlock) : List GotvBlock :=
  blocks.filter fun b => b.partyId == partyId

/-- verifyChainIntegrity where its query works; where it does not, it is false. -/
def verifyChainIntegrity (blocks : List GotvBlock) (partyId : Int) : Bool :=
  linkedFrom none (blocksOf partyId blocks)

/-! ### Runs and alterations -/

/-- A call of AnchorMerkleRoot. -/
structure AnchorCall where
  env : AnchorEnv
  partyId : Int
  anchorType : String
  leaves : List String
  deriving DecidableEq, Repr

namespace GOTVBlockchain

def start : GOTVBlockchain := ⟨[], []⟩

def step (sha256Hex : String → String) (s : GOTVBlockchain) (call : AnchorCall) : GOTVBlockchain :=
  (s.AnchorMerkleRoot sha256Hex call.env call.partyId call.anchorType call.leaves).1

end GOTVBlockchain

inductive BlockField
  | merkleRoot
  | dataHash
  | prevHash
  | blockHash
  deriving DecidableEq, Repr

def GotvBlock.get (b : GotvBlock) : BlockField → String
  | .merkleRoot => b.merkleRoot
  | .dataHash => b.dataHash
  | .prevHash => b.prevHash
  | .blockHash => b.blockHash

def GotvBlock.set (b : GotvBlock) (field : BlockField) (value : String) : GotvBlock :=
  match field with
  | .merkleRoot => { b with merkleRoot := value }
  | .dataHash => { b with dataHash := value }
  | .prevHash => { b with prevHash := value }
  | .blockHash => { b with blockHash := value }

/-- Every party finds its blocks intact. -/
def Intact (blocks : List GotvBlock) : Prop := ∀ partyId, verifyChainIntegrity blocks partyId = true

/-- The owner of a block sees every alteration of it. -/
def Evident (blocks : List GotvBlock) : Prop :=
  ∀ k b field value, blocks[k]? = some b → value ≠ b.get field →
    verifyChainIntegrity (blocks.modify k (·.set field value)) b.partyId = false

/-- A call of the party that appends a block comes right after the party's last one and reads it, or is its
first. -/
def OnOwnBlock (partyId : Int) (s : GOTVBlockchain) (call : AnchorCall) : Bool :=
  call.partyId != partyId || call.leaves == [] || call.env.insertBlock == .refused ||
    (blocksOf partyId s.blocks).isEmpty || call.env.tailWorks && s.blocks.getLast?.any fun b => b.partyId == partyId

/-- No two blocks have one hash, and none has that of the empty chain. -/
def CollisionFree (blocks : List GotvBlock) : Prop := (firstPrevHash :: blocks.map (·.blockHash)).Nodup

/-! ### What the check compares -/

theorem linkedFrom_iff {prevExpected : Option String} {rows : List GotvBlock} :
    linkedFrom prevExpected rows = true ↔
      (∀ h ∈ prevExpected, ∀ b ∈ rows.head?, b.prevHash = h) ∧ rows.IsChain fun b b' =>
        b'.prevHash = b.blockHash := by
  induction rows generalizing prevExpected with
  | nil => simp [linkedFrom]
  | cons b rest ih =>
      rw [linkedFrom]
      cases prevExpected with
      | none =>
          simp only [Option.any_none, Bool.false_eq_true, if_false, ih, List.isChain_cons]
          simp
      | some h =>
          by_cases hprev : b.prevHash = h
          · simp only [Option.any_some, hprev, bne_self_eq_false, Bool.false_eq_true, if_false, ih,
              List.isChain_cons]
            simp [hprev]
          · have hne : h ≠ b.prevHash := fun heq => hprev heq.symm
            simp [hne, hprev]

theorem verifyChainIntegrity_iff {blocks : List GotvBlock} {partyId : Int} :
    verifyChainIntegrity blocks partyId = true ↔ (blocksOf partyId blocks).IsChain fun b b' =>
      b'.prevHash = b.blockHash := by
  rw [verifyChainIntegrity, linkedFrom_iff]
  simp

theorem blocksOf_append (partyId : Int) (first second : List GotvBlock) :
    blocksOf partyId (first ++ second) = blocksOf partyId first ++ blocksOf partyId second := List.filter_append ..

theorem blocksOf_singleton (partyId : Int) (b : GotvBlock) :
    blocksOf partyId [b] = if b.partyId = partyId then [b] else [] := by
  by_cases h : b.partyId = partyId <;> simp [blocksOf, h]

/-- One more block is compared with the last one of its party. -/
theorem verifyChainIntegrity_append_singleton {blocks : List GotvBlock} {b : GotvBlock} {partyId : Int} :
    verifyChainIntegrity (blocks ++ [b]) partyId = true ↔
      verifyChainIntegrity blocks partyId = true ∧
        (b.partyId = partyId → ∀ last ∈ (blocksOf partyId blocks).getLast?, b.prevHash = last.blockHash) := by
  rw [verifyChainIntegrity_iff, verifyChainIntegrity_iff, blocksOf_append, blocksOf_singleton, List.isChain_append]
  by_cases h : b.partyId = partyId
  · simp [h]
  · simp [h]

namespace GOTVBlockchain

variable {sha256Hex : String → String} {s : GOTVBlockchain}

theorem blocks_step (s : GOTVBlockchain) (call : AnchorCall) :
    (s.step sha256Hex call).blocks =
      if call.leaves = [] ∨ call.env.insertBlock = .refused then s.blocks
      else s.blocks ++ [s.newBlock sha256Hex call.env call.partyId call.anchorType call.leaves] := by
  rw [step, AnchorMerkleRoot]
  by_cases hleaves : call.leaves = []
  · rw [if_pos hleaves, if_pos (.inl hleaves)]
  · rw [if_neg hleaves]
    cases hreply : call.env.insertBlock with
    | refused =>
        rw [if_pos (.inr rfl)]
        rfl
    | done =>
        rw [if_neg (by simp [hleaves])]
        cases call.env.insertAnchorWorks <;> rfl
    | lost =>
        rw [if_neg (by simp [hleaves])]
        rfl

/-- A chain only grows. -/
theorem blocks_prefix_final (s : GOTVBlockchain) (calls : List AnchorCall) :
    s.blocks <+: (Runs.final (step sha256Hex) s calls).blocks := by
  induction calls generalizing s with
  | nil => exact List.prefix_rfl
  | cons call rest ih =>
      have hstep : s.blocks <+: (s.step sha256Hex call).blocks := by
        rw [blocks_step]
        split
        · exact List.prefix_rfl
        · exact List.prefix_append ..
      exact hstep.trans (ih _)

theorem collisionFree_beginning {blocks blocks' : List GotvBlock} (h : CollisionFree blocks')
    (hpre : blocks <+: blocks') :
    CollisionFree blocks := by
  have hsublist : (firstPrevHash :: blocks.map (·.blockHash)).Sublist
      (firstPrevHash :: blocks'.map (·.blockHash)) :=
    (hpre.sublist.map _).cons_cons _
  exact h.sublist hsublist

theorem mem_blocksOf {partyId : Int} {blocks : List GotvBlock} {b : GotvBlock} :
    b ∈ blocksOf partyId blocks ↔ b ∈ blocks ∧ b.partyId = partyId := by simp [blocksOf]

/-- A new block names the party's last one exactly if that is the tail, and is read. -/
theorem prevHash_eq_iff (hfree : CollisionFree s.blocks) {call : AnchorCall} {last : GotvBlock}
    (hlast : last ∈ (blocksOf call.partyId s.blocks).getLast?) :
    s.tailHash call.env.tailWorks = last.blockHash ↔
      call.env.tailWorks = true ∧ (s.blocks.getLast?.any fun b => b.partyId == call.partyId) = true := by
  obtain ⟨hmem, hparty⟩ := mem_blocksOf.mp (List.mem_of_getLast? hlast)
  obtain ⟨hgenesis, hnodup⟩ := List.nodup_cons.mp hfree
  have hne : firstPrevHash ≠ last.blockHash := fun heq => hgenesis (heq ▸ List.mem_map_of_mem hmem)
  rw [tailHash]
  cases call.env.tailWorks with
  | false => simp [hne]
  | true =>
      rw [if_pos rfl]
      cases htail : s.blocks.getLast? with
      | none => simp [hne]
      | some tail =>
          simp only [Option.any_some, beq_iff_eq, true_and]
          constructor
          · intro heq
            rw [List.inj_on_of_nodup_map hnodup (List.mem_of_getLast? htail) hmem heq]
            exact hparty
          · intro htailParty
            -- the tail is the last of its party
            obtain ⟨before, hblocks⟩ := List.getLast?_eq_some_iff.mp htail
            rw [hblocks, blocksOf_append, blocksOf_singleton, if_pos htailParty, List.getLast?_append] at hlast
            have heq : tail = last := Option.some.inj hlast
            rw [heq]

theorem verify_step (hfree : CollisionFree s.blocks) (call : AnchorCall) (partyId : Int) :
    verifyChainIntegrity (s.step sha256Hex call).blocks partyId = true ↔
      verifyChainIntegrity s.blocks partyId = true ∧ OnOwnBlock partyId s call = true := by
  rw [blocks_step, OnOwnBlock]
  by_cases hskip : call.leaves = [] ∨ call.env.insertBlock = .refused
  · rw [if_pos hskip]
    obtain h | h := hskip <;> simp [h]
  · obtain ⟨hleaves, hreply⟩ := not_or.mp hskip
    rw [if_neg hskip, verifyChainIntegrity_append_singleton]
    apply and_congr_right
    intro _
    show (call.partyId = partyId → ∀ last ∈ (blocksOf partyId s.blocks).getLast?,
        s.tailHash call.env.tailWorks = last.blockHash) ↔ _
    by_cases hparty : call.partyId = partyId
    · subst hparty
      cases hlast : (blocksOf call.partyId s.blocks).getLast? with
      | none =>
          rw [List.getLast?_eq_none_iff] at hlast
          simp [hlast]
      | some last =>
          have hiff := prevHash_eq_iff hfree hlast
          have hsome : (blocksOf call.partyId s.blocks).isEmpty = false := by
            rw [List.isEmpty_eq_false_iff]
            rintro hnil
            rw [hnil] at hlast
            cases hlast
          simp [hiff, hleaves, hreply, hsome]
    · simp [hparty]

/-- A party finds its blocks intact exactly if each of its calls came right after its own last block. -/
theorem verify_iff_onOwnBlock (calls : List AnchorCall) (s : GOTVBlockchain)
    (hfree : CollisionFree (Runs.final (step sha256Hex) s calls).blocks) (partyId : Int) :
    verifyChainIntegrity (Runs.final (step sha256Hex) s calls).blocks partyId = true ↔
      verifyChainIntegrity s.blocks partyId = true ∧ Runs.AllSteps (step sha256Hex)
        (fun s call => OnOwnBlock partyId s call = true) s calls := by
  induction calls generalizing s with
  | nil => simp
  | cons call rest ih =>
      have hbefore : CollisionFree s.blocks := collisionFree_beginning hfree (blocks_prefix_final s (call :: rest))
      rw [Runs.final_cons, ih _ hfree, verify_step hbefore, Runs.allSteps_cons, and_assoc]

/-! ### Alterations -/

theorem partyId_set (b : GotvBlock) (field : BlockField) (value : String) :
    (b.set field value).partyId = b.partyId := by
  cases field <;> rfl

/-- What the check makes of an altered block: it compares the block's two hashes with its neighbours among the
blocks of the party. -/
theorem verify_altered (before after : List GotvBlock) (b : GotvBlock) (field : BlockField) (value : String)
    (hintact : verifyChainIntegrity (before ++ b :: after) b.partyId = true) (hvalue : value ≠ b.get field) :
    verifyChainIntegrity (before ++ b.set field value :: after) b.partyId = false ↔
      field = .prevHash ∧ blocksOf b.partyId before ≠ [] ∨ field = .blockHash ∧ blocksOf b.partyId after ≠ [] := by
  have hsplit : ∀ b' : GotvBlock, b'.partyId = b.partyId → blocksOf b.partyId (before ++ b' :: after) =
      blocksOf b.partyId before ++ b' :: blocksOf b.partyId after := by
    intro b' hparty
    rw [blocksOf_append, blocksOf, blocksOf, List.filter_cons_of_pos (by simp [hparty])]
    rfl
  rw [verifyChainIntegrity_iff, hsplit b rfl, List.isChain_append, List.isChain_cons] at hintact
  obtain ⟨hbefore, ⟨hnext, hafter⟩, hlast⟩ := hintact
  rw [← Bool.not_eq_true, verifyChainIntegrity_iff, hsplit _ (partyId_set b field value), List.isChain_append,
    List.isChain_cons]
  simp only [List.head?_cons, Option.mem_some_iff, forall_eq'] at hlast ⊢
  have hlastNe : (∀ x ∈ (blocksOf b.partyId before).getLast?, value = x.blockHash) → value ≠ b.prevHash →
      blocksOf b.partyId before = [] := by
    intro h hne
    rw [← List.getLast?_eq_none_iff, Option.eq_none_iff_forall_ne_some]
    intro x hx
    exact hne ((h x hx).trans (hlast x hx).symm)
  have hnextNe : (∀ y ∈ (blocksOf b.partyId after).head?, y.prevHash = value) → value ≠ b.blockHash →
      blocksOf b.partyId after = [] := by
    intro h hne
    rw [← List.head?_eq_none_iff, Option.eq_none_iff_forall_ne_some]
    intro y hy
    exact hne ((h y hy).symm.trans (hnext y hy))
  cases field with
  | merkleRoot =>
      simp only [reduceCtorEq, false_and, or_self, iff_false, not_not]
      exact ⟨hbefore, ⟨hnext, hafter⟩, hlast⟩
  | dataHash =>
      simp only [reduceCtorEq, false_and, or_self, iff_false, not_not]
      exact ⟨hbefore, ⟨hnext, hafter⟩, hlast⟩
  | prevHash =>
      simp only [reduceCtorEq, false_and, or_false, true_and, not_iff_not]
      constructor
      · rintro ⟨-, -, h⟩
        exact hlastNe h hvalue
      · intro hnil
        refine ⟨hbefore, ⟨hnext, hafter⟩, ?_⟩
        rw [hnil]
        exact fun _ hx => (nomatch hx)
  | blockHash =>
      simp only [reduceCtorEq, false_and, false_or, true_and, not_iff_not]
      constructor
      · rintro ⟨-, ⟨h, -⟩, -⟩
        exact hnextNe h hvalue
      · intro hnil
        refine ⟨hbefore, ⟨?_, hafter⟩, hlast⟩
        rw [hnil]
        exact fun _ hy => (nomatch hy)

/-- A row by its position. -/
theorem eq_take_append_cons {blocks : List GotvBlock} {k : Nat} {b : GotvBlock} (h : blocks[k]? = some b) :
    blocks = blocks.take k ++ b :: blocks.drop (k + 1) := by
  obtain ⟨hk, rfl⟩ := List.getElem?_eq_some_iff.mp h
  rw [← List.drop_eq_getElem_cons hk, List.take_append_drop]

theorem modify_eq {blocks : List GotvBlock} {k : Nat} {b : GotvBlock} (h : blocks[k]? = some b)
    (f : GotvBlock → GotvBlock) :
    blocks.modify k f = blocks.take k ++ f b :: blocks.drop (k + 1) := by
  obtain ⟨hk, rfl⟩ := List.getElem?_eq_some_iff.mp h
  exact List.modify_eq_take_cons_drop hk

/-- Once a block is there, either some party finds its blocks broken or the owner of the first does not see its
root altered. -/
theorem not_intact_and_evident {blocks : List GotvBlock} (hne : blocks ≠ []) :
    ¬(Intact blocks ∧ Evident blocks) := by
  rintro ⟨hintact, hevident⟩
  obtain ⟨b, rest, rfl⟩ := List.exists_cons_of_ne_nil hne
  have hvalue : b.merkleRoot ++ "0" ≠ b.get .merkleRoot := by
    intro h
    have hlength := congrArg String.length h
    rw [String.length_append] at hlength
    exact absurd hlength (Nat.succ_ne_self _)
  have hseen := hevident 0 b .merkleRoot _ rfl hvalue
  obtain ⟨h, -⟩ | ⟨h, -⟩ := (verify_altered [] rest b .merkleRoot _ (hintact b.partyId) hvalue).mp hseen
  · cases h
  · cases h

/-- The check is sound and complete on the empty chain alone. It is sound for the parties each of whose calls
came right after its own last block; there it sees the alterations of a previous hash, but for the party's first
block, and of a block hash, but for its last. -/
theorem chainIntegrity_exact (sha256Hex : String → String) (calls : List AnchorCall)
    (hfree : CollisionFree (Runs.final (step sha256Hex) start calls).blocks) :
    let blocks := (Runs.final (step sha256Hex) start calls).blocks
    (Intact blocks ∧ Evident blocks ↔ blocks = []) ∧
    (∀ partyId, verifyChainIntegrity blocks partyId = true ↔
      Runs.AllSteps (step sha256Hex) (fun s call => OnOwnBlock partyId s call = true) start calls) ∧
    ∀ k b field value, blocks[k]? = some b → value ≠ b.get field →
      Runs.AllSteps (step sha256Hex) (fun s call => OnOwnBlock b.partyId s call = true) start calls →
      (verifyChainIntegrity (blocks.modify k (·.set field value)) b.partyId = false ↔
        field = .prevHash ∧ blocksOf b.partyId (blocks.take k) ≠ [] ∨
        field = .blockHash ∧ blocksOf b.partyId (blocks.drop (k + 1)) ≠ []) := by
  intro blocks
  have hverify : ∀ partyId, verifyChainIntegrity blocks partyId = true ↔
      Runs.AllSteps (step sha256Hex) (fun s call => OnOwnBlock partyId s call = true) start calls := by
    intro partyId
    rw [verify_iff_onOwnBlock calls start hfree partyId]
    exact and_iff_right rfl
  refine ⟨⟨fun h => ?_, fun h => ?_⟩, hverify, ?_⟩
  · by_contra hne
    exact not_intact_and_evident hne h
  · rw [h]
    exact ⟨fun _ => rfl, fun k b _ _ hk => (nomatch hk)⟩
  · intro k b field value hk hvalue hown
    rw [modify_eq hk]
    have hintact := (hverify b.partyId).mpr hown
    rw [eq_take_append_cons hk] at hintact
    exact verify_altered _ _ b field value hintact hvalue

/-- A call in which everything works. In the runs with it the hash of a text is the text itself, so nothing
collides. -/
def anchorAt (nanos : Int) (partyId : Int) (leaves : List String) : AnchorCall :=
  ⟨⟨true, .done, true, nanos, 0⟩, partyId, "pledges", leaves⟩

/-- The first party anchors twice, then the second. -/
def twoParties : List AnchorCall :=
  [anchorAt 1000 1 ["pledge-1", "pledge-2", "pledge-3"],
   anchorAt 2000 1 ["pledge-4"], anchorAt 3000 2 ["pledge-5"]]

theorem chainIntegrity_of_twoParties :
    let blocks := (Runs.final (step id) start twoParties).blocks
    (Intact blocks ∧ Evident blocks ↔ blocks = []) ∧
    (∀ partyId, verifyChainIntegrity blocks partyId = true ↔
      Runs.AllSteps (step id) (fun s call => OnOwnBlock partyId s call = true) start twoParties) ∧
    ∀ k b field value, blocks[k]? = some b → value ≠ b.get field →
      Runs.AllSteps (step id) (fun s call => OnOwnBlock b.partyId s call = true) start twoParties →
      (verifyChainIntegrity (blocks.modify k (·.set field value)) b.partyId = false ↔
        field = .prevHash ∧ blocksOf b.partyId (blocks.take k) ≠ [] ∨
        field = .blockHash ∧ blocksOf b.partyId (blocks.drop (k + 1)) ≠ []) :=
  chainIntegrity_exact id twoParties (by unfold CollisionFree; decide +kernel)

/-- The second party anchors between two calls of the first. -/
def interleavedParties : List AnchorCall :=
  [anchorAt 1000 1 ["pledge-1"], anchorAt 2000 2 ["pledge-2"], anchorAt 3000 1 ["pledge-3"]]

/-- The first party does not find its blocks intact although nothing was altered, and after its first call it
does not see another root. -/
theorem chain_check_fails :
    ¬Intact (Runs.final (step id) start interleavedParties).blocks ∧
      ¬Evident (Runs.final (step id) start (interleavedParties.take 1)).blocks := by
  have hrun : verifyChainIntegrity (Runs.final (step id) start interleavedParties).blocks 1 = false ∧
      ((Runs.final (step id) start (interleavedParties.take 1)).blocks[0]?.all fun b =>
        b.partyId == 1 && b.merkleRoot != "another root") = true ∧
      verifyChainIntegrity
        ((Runs.final (step id) start (interleavedParties.take 1)).blocks.modify 0
          (·.set .merkleRoot "another root")) 1 = true ∧
      (Runs.final (step id) start (interleavedParties.take 1)).blocks[0]?.isSome = true := by
    decide +kernel
  obtain ⟨hbroken, hfirst, hunseen, hsome⟩ := hrun
  constructor
  · intro hintact
    rw [hintact 1] at hbroken
    cases hbroken
  · intro hevident
    obtain ⟨b, hb⟩ := Option.isSome_iff_exists.mp hsome
    rw [hb, Option.all_some, Bool.and_eq_true, beq_iff_eq, bne_iff_ne] at hfirst
    have hseen := hevident 0 b .merkleRoot "another root" hb hfirst.2.symm
    rw [hfirst.1, hunseen] at hseen
    cases hseen

end GOTVBlockchain

end Inec
