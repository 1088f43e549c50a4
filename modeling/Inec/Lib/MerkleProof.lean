import Inec.Lib.MerkleTree

/-!
# Inclusion proofs

The proof of a leaf lists, level by level, the node it is joined with and the side that node stands on. A node that
goes up without a partner adds nothing. What the proof recomputes from the leaf is the top of the tree.
-/

namespace MerkleProof

open MerkleTree

variable {δ : Type}

/-- The node to join with. -/
structure Step (δ : Type) where
  hash : δ
  right : Bool
  deriving DecidableEq, Repr

def recompute (join : δ → δ → δ) (node : δ) (proof : List (Step δ)) : δ :=
  proof.foldl (fun current step => if step.right then join current step.hash else join step.hash current) node

/-- What the node at `idx` is joined with. -/
def siblings (level : List δ) (idx : Nat) : List (Step δ) :=
  if idx % 2 = 0 then (level[idx + 1]?.map fun hash => ⟨hash, true⟩).toList
  else (level[idx - 1]?.map fun hash => ⟨hash, false⟩).toList

/-- All levels, the lowest first. -/
def levels (join : δ → δ → δ) : Nat → List δ → List (List δ)
  | 0, level => [level]
  | rounds + 1, level => if 1 < level.length then level :: levels join rounds (next join level) else [level]

/-- The proof through all levels but the top one. -/
def proof : List (List δ) → Nat → List (Step δ)
  | level :: above :: rest, idx => siblings level idx ++ proof (above :: rest) (idx / 2)
  | _, _ => []

variable {join : δ → δ → δ}

theorem recompute_append (node : δ) (first second : List (Step δ)) :
    recompute join node (first ++ second) = recompute join (recompute join node first) second :=
  List.foldl_append

/-- One round: the node above is what the siblings recompute. -/
theorem next_getElem? {level : List δ} {idx : Nat} {node : δ} (h : level[idx]? = some node) :
    (next join level)[idx / 2]? = some (recompute join node (siblings level idx)) := by
  fun_induction next join level generalizing idx with
  | case1 left right rest ih =>
      obtain _ | _ | idx := idx
      · obtain rfl := Option.some.inj h
        rfl
      · obtain rfl := Option.some.inj h
        rfl
      · have hrest : rest[idx]? = some node := h
        have hhalf : (idx + 2) / 2 = idx / 2 + 1 := by omega
        have hsiblings : siblings (left :: right :: rest) (idx + 2) = siblings rest idx := by
          rw [siblings, siblings, Nat.add_mod_right]
          split
          · rfl
          · have hpred : idx + 2 - 1 = idx - 1 + 1 + 1 := by omega
            rw [hpred]
            rfl
        rw [hhalf, hsiblings, List.getElem?_cons_succ]
        exact ih hrest
  | case2 level hshort =>
      obtain rfl | ⟨only, rfl⟩ := nil_or_singleton hshort
      · cases h
      · cases idx with
        | zero => exact h
        | succ idx => cases h

theorem levels_ne_nil (rounds : Nat) (level : List δ) : levels join rounds level ≠ [] := by
  cases rounds with
  | zero => exact List.cons_ne_nil _ _
  | succ rounds =>
      rw [levels]
      split
      · exact List.cons_ne_nil _ _
      · exact List.cons_ne_nil _ _

/-- The last level is where the climb ends. -/
theorem getLast?_levels (rounds : Nat) (level : List δ) :
    (levels join rounds level).getLast? = some (climb join rounds level) := by
  induction rounds generalizing level with
  | zero => rfl
  | succ rounds ih =>
      rw [levels, climb]
      split
      · rw [List.getLast?_cons, ih]
        rfl
      · rfl

/-- Every proof recomputes to the top. -/
theorem recompute_proof {rounds : Nat} {level : List δ} {idx : Nat} {node top : δ} (h : level[idx]? = some node)
    (htop : climb join rounds level = [top]) : recompute join node
      (proof (levels join rounds level) idx) = top := by
  induction rounds generalizing level idx node with
  | zero =>
      rw [climb] at htop
      rw [htop] at h
      cases idx with
      | zero =>
          obtain rfl := Option.some.inj h
          rfl
      | succ idx => cases h
  | succ rounds ih =>
      rw [climb] at htop
      rw [levels]
      split at htop
      · next hlong =>
        rw [if_pos hlong]
        obtain ⟨above, rest, hlevels⟩ := List.exists_cons_of_ne_nil (levels_ne_nil rounds (next join level))
        rw [hlevels, proof, recompute_append, ← hlevels]
        exact ih (next_getElem? h) htop
      · next hlong =>
        rw [if_neg hlong, htop]
        rw [htop] at h
        cases idx with
        | zero =>
            obtain rfl := Option.some.inj h
            rfl
        | succ idx => cases h

end MerkleProof
